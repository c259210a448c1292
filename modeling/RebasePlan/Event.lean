import RebasePlan.Call
import RebasePlan.Disk
import RebasePlan.Rule
import RebasePlan.Text.Quoted
import RebasePlan.Verbosity

/-!
# Events and logs

All that a run tells about itself. An event is a fact of the run; its severity, the part of the
program that tells it, its message and its fields follow from what it is.

A run is told on the console and, if there is a log file, in that file. Each has a verbosity of its
own. The file is made anew, with the directories that lead to it, before anything is told.
-/

namespace RebasePlan

/-- What is told while a run goes on. -/
inductive Event where
  /-- A rule was read. -/
  | ruleRead (line : Nat) (rule : Rule)
  /-- The rule file was read to its end. -/
  | planLoaded (path : String) (count : Nat)
  /-- Nothing will be executed. -/
  | dryRun (count : Nat)
  /-- A rule that would be carried out. -/
  | planned (rule : Rule)
  /-- A rule is carried out. -/
  | rebasing (step total : Nat) (rule : Rule)
  /-- The starting point is checked out again. -/
  | restoring (target : String)
  /-- The run starts on a branch. -/
  | startingBranch (name : String)
  /-- The run starts on no branch. -/
  | noBranch
  /-- The run starts on a commit. -/
  | startingCommit (name : String)
  /-- The starting point is unknown. -/
  | headUnknown
  /-- What a command printed. -/
  | printed (severity : Severity) (command text : String)
  /-- What went wrong with a command. -/
  | warned (severity : Severity) (warning : Warning)
  /-- A command is started in this directory. -/
  | entering (directory : String)
  /-- A command is started. -/
  | starting (command : String)
  /-- A command has ended. -/
  | ended (command : String) (code : Int)
  /-- The value of a setting. -/
  | optionShown (line : String)
  /-- A source of settings. -/
  | sourceShown (line : String)
  /-- The version-control program is known. -/
  | ready (program : String) (repository : Option String)
  /-- No call of the run failed. -/
  | allApplied (calls : Nat) (origin : String)
  /-- A call of the run failed. -/
  | failed (warning : Warning)
  deriving DecidableEq, Repr

/-- The value of a field of an event. -/
inductive FieldValue where
  | number (n : Int)
  /-- A text that a log line shows between quotes. -/
  | quoted (s : String)
  /-- A text that a log line shows as it is. -/
  | plain (s : String)
  deriving DecidableEq, Repr

/-- The part of the program that tells an event. -/
inductive Teller where
  | program
  | command
  | rules
  | executor
  | process
  deriving DecidableEq, Repr

/-- The name of a part in a log file. -/
def Teller.name : Teller → String
  | program => "git_rebase_rules"
  | command => "rebase_rules::cmd::rebase"
  | rules => "rebase_rules::rules"
  | executor => "rebase_rules::executor"
  | process => "rebase_rules::core::process::runner"

namespace Event

/-- How serious an event is. -/
def severity : Event → Severity
  | ruleRead .. | planLoaded .. | dryRun .. | rebasing .. | restoring .. | allApplied .. => .info
  | planned .. | startingBranch .. | noBranch | startingCommit .. | entering .. | starting ..
  | optionShown .. | sourceShown .. | ready .. => .debug
  | headUnknown | failed .. => .warn
  | ended .. => .trace
  | printed severity .. | warned severity .. => severity

/-- Who tells an event. -/
def teller : Event → Teller
  | ruleRead .. | planLoaded .. => .rules
  | dryRun .. | planned .. | rebasing .. | restoring .. | startingBranch .. | noBranch
  | startingCommit .. | headUnknown | printed .. | warned .. => .executor
  | entering .. | starting .. | ended .. => .process
  | optionShown .. | ready .. | allApplied .. | failed .. => .command
  | sourceShown .. => .program

/-- The message of an event. -/
def message : Event → String
  | ruleRead .. => "rule"
  | planLoaded .. => "loaded rule file"
  | dryRun .. => "dry run, nothing executed: pass --doit to rebase"
  | planned .. => "planned"
  | rebasing .. => "rebasing"
  | restoring .. => "restoring"
  | startingBranch .. => "starting branch"
  | noBranch => "no branch in status output, falling back to HEAD commit"
  | startingCommit .. => "starting commit"
  | headUnknown => "restore step will not find its way back"
  | printed _ _ text => text
  | warned _ warning => warning.message
  | entering .. => "cd"
  | starting .. => "exec"
  | ended .. => "completed"
  | optionShown line => line
  | sourceShown line => s!"settings {line}"
  | ready .. => "backend ready"
  | allApplied .. => "all rules applied"
  | failed warning => s!"failed: {warning.message}"

/-- The field that says why an event is told. -/
def reason (text : String) : String × FieldValue := ("reason", .quoted text)

/-- An optional text as a field shows it. -/
def optionalText : Option String → String
  | none => "None"
  | some s => s!"Some({Text.quoted s})"

/-- The fields of an event, in the order in which they are shown. -/
def fields : Event → List (String × FieldValue)
  | ruleRead line rule =>
    [("line", .number line), ("from", .quoted rule.branch), ("onto", .plain rule.base)]
  | planLoaded path count => [reason "config", ("path", .plain path), ("count", .number count)]
  | dryRun count => [("rules", .number count)]
  | planned rule => [("rule", .plain rule.text)]
  | rebasing step total rule =>
    [("step", .number step), ("total", .number total), ("from", .quoted rule.branch),
      ("onto", .quoted rule.base)]
  | restoring target => [("original", .plain target)]
  | startingBranch name => [("branch", .plain name)]
  | noBranch => []
  | startingCommit name => [("commit", .plain name)]
  | headUnknown => [("error", .plain headUnknownText)]
  | printed _ command _ => [reason "stdout", ("cmd", .quoted command)]
  | warned .. => [reason "stderr"]
  | entering directory => [("cwd", .plain directory)]
  | starting command => [reason "cmd", ("cmd", .plain command)]
  | ended command code => [("cmd", .plain command), ("exit_code", .number code)]
  | optionShown _ => [reason "config"]
  | sourceShown _ => [reason "config"]
  | ready program repository =>
    [("git", .plain program), ("repo", .plain (optionalText repository))]
  | allApplied calls origin => [("invocations", .number calls), ("original", .quoted origin)]
  | failed _ => []

end Event

/-- A field's value as a log line shows it. -/
def FieldValue.text : FieldValue → String
  | number n => toString n
  | quoted s => Text.quoted s
  | plain s => s

namespace Event

/-- What follows the severity in a log line. -/
def body (e : Event) : String :=
  Text.steady e.message ++ String.join (e.fields.map fun (name, value) => s!" {name}={value.text}")

/-- The line of an event on the console. -/
def consoleLine (e : Event) : String := s!"{e.severity.name} {e.body}"

/-- The line of an event in a log file, which also names the part that tells it. -/
def fileLine (e : Event) : String := s!"{e.severity.name} {e.teller.name}: {e.body}"

/-- The events that a verbosity shows. -/
def shownAt (v : Verbosity) (events : List Event) : List Event :=
  events.filter fun e => v.shows e.severity

end Event

/-! ## Logs -/

/-- Why there is no log file. -/
inductive LogError where
  | directoryRefused (path : Path)
  | fileRefused (path : Path)
  deriving DecidableEq, Repr

/-- The text of a log error. -/
def LogError.message : LogError → String
  | directoryRefused path => s!"failed to create log directory {path.text}"
  | fileRefused path => s!"failed to create log file {path.text}"

namespace Log

/-- Makes the directory in which a log file lies, if its path names one. -/
def makeDirectory (d : Disk) (directory : Place) (p : Path) : Except LogError Disk :=
  match p.parent? with
  | none => .ok d
  | some parent =>
    if parent.bytes.isEmpty then .ok d
    else match d.makeDirectories directory parent with
      | .ok d => .ok d
      | .error _ => .error (.directoryRefused parent)

/-- Makes an empty log file. -/
def create (d : Disk) (directory : Place) (p : Path) : Except LogError Disk := do
  let d ← makeDirectory d directory p
  match d.write directory p [] with
  | .ok d => return d
  | .error _ => throw (.fileRefused p)

/-- What the console shows of events. -/
def console (v : Verbosity) (events : List Event) : List String :=
  (Event.shownAt v events).map Event.consoleLine

/-- What a log file holds of events. -/
def file (v : Verbosity) (events : List Event) : List String :=
  (Event.shownAt v events).map Event.fileLine

/-- Lines as a text. -/
def text (lines : List String) : String := String.join (lines.map (· ++ "\n"))

end Log

end RebasePlan
