import RebasePlan.Executor
import RebasePlan.Settings

/-!
# The job

Loads a plan and carries it out, or only shows it if the run is not confirmed. Whatever is wrong
with the plan is found before any program is started. A job fails if a call of its run failed.

A plan is loaded from a file. Every rule is told as it is read, up to the first wrong line; the file
as a whole is told only if it could be read to its end.
-/

namespace RebasePlan

/-! ## Plan files -/

/-- What is told while a plan is read. -/
def Reading.events (r : Reading) : List Event := r.accepted.map fun n => .ruleRead n.line n.rule

/-- The text of a plan file. -/
def Plan.content (d : Disk) (directory : Place) (p : Path) : Except InputError String :=
  match d.read directory p with
  | .error e => .error (if e = .missing then .planMissing p.text else .planUnreadable p.text e)
  | .ok bytes => match Text.strict bytes with
    | some content => .ok content
    | none => .error (.planUnreadable p.text .notUtf8)

/-- Loads a plan, and tells what it finds. -/
def Plan.load (d : Disk) (directory : Place) (p : Path) : Except InputError Plan × List Event :=
  match Plan.content d directory p with
  | .error e => (.error e, [])
  | .ok content =>
    let reading := Plan.read content
    match reading.plan with
    | .error e => (.error e, reading.events)
    | .ok plan => (.ok plan, reading.events ++ [.planLoaded p.text plan.length])

/-! ## Jobs -/

/-- Why a job failed. -/
inductive JobError where
  | input (cause : InputError)
  | failure (cause : Failure)
  /-- So many of all calls failed. -/
  | callsFailed (failed total : Nat)
  deriving DecidableEq, Repr

namespace JobError

/-- The text of an error. -/
def message : JobError → String
  | input e => e.message
  | failure f => f.message
  | callsFailed failed total => s!"{failed} of {total} git invocations failed"

/-- The texts of an error and of the causes beneath it, outermost first. -/
def chain : JobError → List String
  | input e => e.chain
  | failure f => f.chain
  | e => [e.message]

end JobError

/-- What a job leaves behind. -/
structure JobEnd where
  result : Except JobError Unit
  events : List Event

/-- A job: a plan file, and whether its plan is carried out. -/
structure Job where
  settings : Settings
  plan : Path
  confirmed : Bool

namespace Job

/-- What a run comes to, and what is told of it. -/
def summary (report : Report) : JobEnd :=
  if report.succeeded then
    ⟨.ok (), [.allApplied report.calls (report.origin.getD "")]⟩
  else
    ⟨.error (.callsFailed report.failures.length report.calls), report.failures.map Event.failed⟩

/-- Carries a plan out. -/
def apply {σ : Type} (j : Job) (computer : Computer) (programs : Programs σ) (plan : Plan)
    (s : σ) : JobEnd × σ :=
  match Git.locate computer (j.settings.program.map Path.ofString) with
  | .error e => (⟨.error (.failure e), []⟩, s)
  | .ok program => match Capture.create computer with
    | .error e => (⟨.error (.failure (.io e)), []⟩, s)
    | .ok capture =>
      let repository := j.settings.repository
      let backend := Git.backend computer programs program (repository.map Path.ofString)
      let (session, (_, s)) := Session.run backend plan (capture, s)
      let summary := summary session.report
      (⟨summary.result,
        .ready program.text repository :: session.events ++ summary.events⟩, s)

/-- Does a job. -/
def run {σ : Type} (j : Job) (computer : Computer) (programs : Programs σ) (s : σ) :
    JobEnd × σ :=
  let shown := j.settings.lines.map Event.optionShown
  let (loaded, told) := Plan.load computer.disk computer.directory j.plan
  match loaded with
  | .error e => (⟨.error (.input e), shown ++ told⟩, s)
  | .ok plan =>
    if j.confirmed then
      let (finish, s) := j.apply computer programs plan s
      (⟨finish.result, shown ++ told ++ finish.events⟩, s)
    else (⟨.ok (), shown ++ told ++ (Run.dry plan).events⟩, s)

end Job

end RebasePlan
