import RebasePlan.Settings.Schema
import RebasePlan.Settings.Source

/-!
# Loading settings

A loader gathers sources. Files and texts count in the order in which they were added, the later
over the earlier; variables count over them; and values that are set directly count over everything,
wherever among the rest they were set.
-/

namespace RebasePlan.Settings

/-- What settings are loaded from. -/
structure Loader where
  sources : List Source := []
  /-- How the names of variables for settings begin; without it none is looked at. -/
  variableStart : Option String := none
  overrides : List (Key × Value) := []

namespace Loader

/-- A loader with one more source. -/
def add (l : Loader) (s : Source) : Loader := { l with sources := l.sources ++ [s] }

/-- A loader that looks at variables. -/
def withVariables (l : Loader) (beginning : String) : Loader :=
  { l with variableStart := some beginning }

/-- Puts a key and its value in the place of the same key, or at the end. -/
def override (key : Key) (v : Value) : List (Key × Value) → List (Key × Value)
  | [] => [(key, v)]
  | (k, old) :: rest => if k = key then (key, v) :: rest else (k, old) :: override key v rest

/-- A loader with a value set directly, if its key is one. -/
def set? (l : Loader) (key : String) (s : Scalar) : Option Loader :=
  (Key.read? key).map fun key =>
    { l with overrides := override key (.scalar none s) l.overrides }

/-- The list of the sources that are used, numbered. -/
def listing (l : Loader) (c : Computer) : List String :=
  (l.sources.filterMap (Source.listed c)).zipIdx.map fun (line, i) => s!"{i + 1}. {line}"

/-- The values of all files and texts. -/
def sourceEntries (c : Computer) : List Source → Entries → Except LoadError Entries
  | [], entries => .ok entries
  | s :: rest, entries => do
    let more ← s.entries c
    sourceEntries c rest (Entries.putAll entries more)

/-- The values of the variables that are looked at. -/
def variableEntries (l : Loader) (c : Computer) : Except LoadError Entries :=
  match l.variableStart with
  | none => .ok []
  | some beginning => entriesOfEnvironment beginning c.environment

/-- All values, each in its place. -/
def entries (l : Loader) (c : Computer) : Except LoadError Entries := do
  let written ← sourceEntries c l.sources []
  let given ← l.variableEntries c
  return l.overrides.foldl (fun entries (key, v) => Entries.put entries key v)
    (Entries.putAll written given)

/-- The settings that all sources come to. -/
def load (l : Loader) (c : Computer) : Except LoadError Settings := do
  let settings ← ofEntries (← l.entries c)
  match settings.check c.disk c.directory with
  | .ok settings => return settings
  | .error e => throw (.unusable e)

end Loader

/-- The settings in one text. -/
def parse (c : Computer) (content : String) : Except LoadError Settings :=
  Loader.load { sources := [.text content] } c

end RebasePlan.Settings
