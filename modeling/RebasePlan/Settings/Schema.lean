import RebasePlan.Settings
import RebasePlan.Settings.Error
import RebasePlan.Text.Lowercase

/-!
# From values to settings

Settings stand in three sections; a section is a table, or a list of the values in their order.
Names that no section knows are refused. A single value is turned into what a setting takes as far
as it can be.
-/

namespace RebasePlan.Settings

/-- A section: its name in settings, its name in messages, and the names of its settings. -/
structure Section where
  name : String
  shape : String
  settings : List String

/-- The section of what is logged. -/
def globalSection : Section :=
  ⟨"global", "GlobalConfig", ["output_log_level", "file_log_level", "log_file"]⟩
/-- The section of programs. -/
def toolsSection : Section := ⟨"tools", "ToolsConfig", ["git"]⟩
/-- The section of the repository. -/
def repoSection : Section := ⟨"repo", "RepoConfig", ["path"]⟩

/-- The names of all sections. -/
def sectionNames : List String := [globalSection, toolsSection, repoSection].map Section.name

/-- A value of a section, with its place for messages. -/
structure Member where
  setting : String
  place : String
  value : Value

/-- The values that are given to the settings of a section. -/
def Section.members (s : Section) : Option Value → Except LoadError (List Member)
  | none => .ok []
  | some (.table _ entries) =>
    match entries.find? fun (name, _) => !s.settings.contains name with
    | some (name, _) => .error (.unknownSetting name s.settings s.name)
    | none => .ok (entries.map fun (name, v) => ⟨name, s!"{s.name}.{name}", v⟩)
  | some (.list _ items) =>
    .ok ((s.settings.zip items.zipIdx).map fun (setting, v, i) => ⟨setting, s!"{s.name}[{i}]", v⟩)
  | some v => .error (.notASection (.ofValue v) s.shape s.name)

/-- The words that stand for one, and those that stand for zero. -/
def yesWords : List String := ["true", "on", "yes"]
@[inherit_doc yesWords]
def noWords : List String := ["false", "off", "no"]

/-- The number without sign that a text stands for. -/
def numberOfText? (s : String) : Option Nat :=
  let word := String.ofList (Text.lower s.toList)
  if yesWords.contains word then some 1
  else if noWords.contains word then some 0
  else Number.unsigned? s.toList

/-- The number without sign that a value stands for. -/
def Member.number (m : Member) : Except LoadError Nat :=
  match m.value with
  | .scalar origin s =>
    let wrong (wanted : Wanted) : Except LoadError Nat :=
      .error (.wrongKind (.ofValue m.value) wanted m.place origin)
    match s with
    | .nothing => wrong .number
    | .boolean b => .ok (if b then 1 else 0)
    | .integer n => if n < 0 then wrong .number64 else .ok n.toNat
    | .unsigned n => .ok n
    | .float x => .ok x.toUnsigned
    | .text s => match numberOfText? s with
      | some n => .ok n
      | none => wrong .number
  | .list origin _ => .error (.wrongKind .list .number m.place origin)
  | .table origin _ => .error (.wrongKind .table .number m.place origin)

/-- The verbosity that a value stands for. -/
def Member.verbosity (m : Member) : Except LoadError Verbosity := do
  let n ← m.number
  if n > 255 then throw (.wrongKind (.unsigned n) .number8 m.place none)
  match Verbosity.check n with
  | .ok v => return v
  | .error e => throw (.badValue e m.place)

/-- The text that a value stands for; nothing stands for no text. -/
def Member.text (m : Member) : Except LoadError (Option String) :=
  match m.value with
  | .scalar _ .nothing => .ok none
  | .scalar _ (.boolean b) => .ok (some (toString b))
  | .scalar _ (.integer n) => .ok (some (toString n))
  | .scalar _ (.unsigned n) => .ok (some (toString n))
  | .scalar _ (.float x) => .ok (some x.text)
  | .scalar _ (.text s) => .ok (some s)
  | .list origin _ => .error (.wrongKind .list .text m.place origin)
  | .table origin _ => .error (.wrongKind .table .text m.place origin)

/-- The value of one setting among those of a section. -/
def member? (members : List Member) (setting : String) : Option Member :=
  members.find? (·.setting == setting)

/-- The verbosity that is given to a setting, or its default. -/
def verbosityOf (members : List Member) (setting : String) (default : Verbosity) :
    Except LoadError Verbosity :=
  match member? members setting with
  | some m => m.verbosity
  | none => .ok default

/-- The text that is given to a setting, if there is one. -/
def textOf (members : List Member) (setting : String) : Except LoadError (Option String) :=
  match member? members setting with
  | some m => m.text
  | none => .ok none

/-- The settings that values come to. -/
def ofEntries (entries : Entries) : Except LoadError Settings := do
  match entries.find? fun (name, _) => !sectionNames.contains name with
  | some (name, _) => throw (.unknownSection name sectionNames)
  | none => pure ()
  let logging ← globalSection.members (entries.lookup globalSection.name)
  let tools ← toolsSection.members (entries.lookup toolsSection.name)
  let repo ← repoSection.members (entries.lookup repoSection.name)
  return {
    console := ← verbosityOf logging "output_log_level" .info
    file := ← verbosityOf logging "file_log_level" .trace
    logFile := ← textOf logging "log_file"
    program := ← textOf tools "git"
    repository := ← textOf repo "path" }

end RebasePlan.Settings
