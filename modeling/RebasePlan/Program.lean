import RebasePlan.CommandLine.Help
import RebasePlan.CommandLine.Parser
import RebasePlan.Event
import RebasePlan.Job
import RebasePlan.Settings.Loader

/-!
# The program

From a command line to an exit code: read the command line, load the settings, open the logs, do the
job. What goes wrong before the logs are open is told on the error output alone.
-/

namespace RebasePlan

/-- What the program leaves behind. -/
structure Finish where
  code : Nat
  stdout : String := ""
  stderr : String := ""
  /-- The disk with the log file, if one was written. -/
  disk : Disk

namespace Program

/-- The version of the program. -/
def version : String := "0.1.0"

/-- The settings file that is looked for without being asked for. -/
def defaultSettings : Path := Path.ofString "git-rebase-rules.toml"

/-- How the names of variables for settings begin. -/
def variableStart : String := "GIT_REBASE_RULES"

/-- What the settings of a run are loaded from. -/
def loader (o : Options) : Settings.Loader :=
  let sources := .file defaultSettings false :: o.settingsFiles.map fun p => .file p true
  let start : Settings.Loader := { sources, variableStart := some variableStart }
  o.overrides.foldl (fun l (key, value) => (l.set? key (.text value)).getD l) start

/-- The exit code of a run that failed. -/
def failed : Nat := 1
/-- The exit code of a command line that cannot be used. -/
def misused : Nat := 2

/-- The job of a command line; there is none without a plan. -/
def job? (o : Options) (s : Settings) : Option Job := o.plan.map fun plan => ⟨s, plan, o.confirmed⟩

/-- What is said of a command line without a plan. -/
def noPlan : String := "No rule file specified"

/-- Does the job of a command line. What is told of a failure is the chain of its causes. -/
def dispatch {σ : Type} (o : Options) (settings : Settings) (computer : Computer)
    (programs : Programs σ) (s : σ) : (Except (List String) Unit × List Event) × σ :=
  match job? o settings with
  | some job =>
    let (finish, s) := job.run computer programs s
    ((finish.result.mapError JobError.chain, finish.events), s)
  | none => ((.error [noPlan], []), s)

/-- Does the job of a command line, with the logs open. -/
def work {σ : Type} (o : Options) (settings : Settings) (listing : List String)
    (computer : Computer) (programs : Programs σ) (s : σ) : Finish × σ :=
  let ((result, jobEvents), s) := dispatch o settings computer programs s
  let events := listing.map Event.sourceShown ++ jobEvents
  let told := Log.console settings.console events
  let (code, last) : Nat × List String := match result with
    | .ok _ => (0, [])
    | .error chain => (failed, [s!"Error: {chainText chain}"])
  let written := Text.encode (Log.text (Log.file settings.file events))
  let disk := match settings.logFile with
    | none => computer.disk
    | some p =>
      ((computer.disk.write computer.directory (Path.ofString p) written).toOption).getD
        computer.disk
  ({ code, stderr := Log.text (told ++ last), disk }, s)

/-- Carries out options: opens the logs, and works. -/
def carryOut {σ : Type} (o : Options) (computer : Computer) (programs : Programs σ) (s : σ) :
    Finish × σ :=
  let loader := loader o
  let stop (text : String) : Finish :=
    { code := failed, stderr := text ++ "\n", disk := computer.disk }
  match loader.load computer with
  | .error e => (stop s!"Failed to load settings: {e.message}", s)
  | .ok settings =>
    let opened : Except LogError Disk := match settings.logFile with
      | none => .ok computer.disk
      | some p => Log.create computer.disk computer.directory (Path.ofString p)
    match opened with
    | .error e => (stop s!"Failed to initialize logging: {e.message}", s)
    | .ok disk =>
      work o settings (loader.listing computer) { computer with disk } programs s

/-- Runs the program. -/
def run {σ : Type} (args : List (List UInt8)) (computer : Computer) (programs : Programs σ)
    (s : σ) : Finish × σ :=
  let disk := computer.disk
  match CommandLine.parse args with
  | .error (.help long) => ({ code := 0, stdout := Help.text long, disk }, s)
  | .error (.error e) => ({ code := misused, stderr := e.message ++ "\n", disk }, s)
  | .ok o =>
    if o.version then ({ code := 0, stdout := version ++ "\n", disk }, s)
    else carryOut o computer programs s

end Program

end RebasePlan
