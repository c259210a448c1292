import RebasePlan.Disk
import RebasePlan.Verbosity

/-!
# Settings

What can be set about a run, with the defaults. The rules to be carried out are no part of it.
-/

namespace RebasePlan

/-- The settings of a run. -/
structure Settings where
  /-- How much is shown on the console. -/
  console : Verbosity := .info
  /-- How much is written to the log file. -/
  file : Verbosity := .trace
  /-- Where the log file is; without it nothing is logged to a file. -/
  logFile : Option String := none
  /-- The version-control program; without it the search path decides. -/
  program : Option String := none
  /-- Where the version-control program runs; without it, in the current directory. -/
  repository : Option String := none
  deriving DecidableEq, Repr

namespace Settings

/-- A text, filled up with spaces to a width. -/
def pad (width : Nat) (s : String) : String :=
  s ++ String.ofList (List.replicate (width - s.length) ' ')

/-- The settings as keys and values, sorted by key. -/
def entries (s : Settings) : List (String × String) := [
  ("global.file_log_level", toString s.file.value),
  ("global.log_file", s.logFile.getD ""),
  ("global.output_log_level", toString s.console.value),
  ("repo.path", s.repository.getD ""),
  ("tools.git", s.program.getD "")]

/-- One line for each setting, the values one below the other. -/
def lines (s : Settings) : List String :=
  let width := ((s.entries.map fun entry => entry.1.length).max?).getD 0
  s.entries.map fun (key, value) => s!"{pad width key} = {value}"

/-- Settings that can work: a repository that exists is a directory. -/
def check (s : Settings) (d : Disk) (directory : Place) : Except InputError Settings :=
  match s.repository with
  | none => .ok s
  | some repository =>
    let p := Path.ofString repository
    if d.holds directory p && !d.holdsDirectory directory p then
      .error (.invalidSetting "repo" "path" s!"'{repository}' is not a directory")
    else .ok s

end Settings

end RebasePlan
