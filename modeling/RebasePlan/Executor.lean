import RebasePlan.Process.Run
import RebasePlan.Session

/-!
# Runs and their backends

A plan is carried out only after confirmation; without it the run shows the plan and touches
nothing. An executor keeps its confirmation from step to step.

The version-control program is a backend that answers each call by running one command. The program
is told to speak plainly, whatever language it would speak otherwise; an exit code other than 0 is
an answer like any other.
-/

namespace RebasePlan

/-- What a run leaves behind. -/
structure Run where
  report : Report
  events : List Event
  exchanges : List Exchange

namespace Run

/-- Shows a plan. -/
def dry (plan : Plan) : Run where
  report := { dryRun := true }
  events := .dryRun plan.length :: plan.map Event.planned
  exchanges := []

/-- What a session leaves behind. -/
def ofSession (s : Session) : Run := ⟨s.report, s.events, s.exchanges⟩

/-- Carries out a plan if that is confirmed, and shows it otherwise. -/
def execute {σ : Type} (b : Backend σ) (confirmed : Bool) (plan : Plan) (s : σ) : Run × σ :=
  if confirmed then
    let (session, s) := Session.run b plan s
    (ofSession session, s)
  else (dry plan, s)

end Run

/-- One step of an executor. -/
structure ExecutorStep where
  /-- A new confirmation, if the step sets one; it stays for the steps after it. -/
  confirmed : Option Bool := none
  plan : Plan
  /-- Whether the plan is only shown, confirmed or not. -/
  showOnly : Bool := false

namespace ExecutorStep

/-- Carries out one step; `confirmed` is what the steps before it have set. -/
def run {σ : Type} (b : Backend σ) (step : ExecutorStep) (confirmed : Bool) (s : σ) : Run × σ :=
  if step.showOnly then (Run.dry step.plan, s) else Run.execute b confirmed step.plan s

/-- Carries out steps in their order. -/
def runAll {σ : Type} (b : Backend σ) : List ExecutorStep → Bool → σ → List Run × σ
  | [], _, s => ([], s)
  | step :: steps, confirmed, s =>
    let confirmed := step.confirmed.getD confirmed
    let (run, s) := step.run b confirmed s
    let (runs, s) := runAll b steps confirmed s
    (run :: runs, s)

end ExecutorStep

/-- A backend that takes its outcomes from a list, and answers with empty output after its end. -/
def Backend.scripted : Backend (List Outcome) where
  answer call outcomes :=
    (⟨⟨"git " ++ call.text, outcomes.headD (.ok {})⟩, []⟩, outcomes.tail)

end RebasePlan

namespace RebasePlan.Git

/-- The name of the program. -/
def programName : String := "git"

/-- The variables that make the program speak plainly. -/
def plainSpeech : List (String × String) := [("LC_ALL", "C")]

/-- The command for a call. -/
def command (program : Path) (repository : Option Path) (call : Call) : Command where
  program := program
  arguments := call.arguments
  directory := repository
  assignments := plainSpeech
  mayFail := true
  name := some programName

/-- The program as a backend. -/
def backend {σ : Type} (computer : Computer) (programs : Programs σ) (program : Path)
    (repository : Option Path) : Backend (Capture × σ) where
  answer call state :=
    let command := command program repository call
    let ((outcome, log), state) := command.run computer programs state
    (⟨⟨command.text, outcome⟩, log⟩, state)

/-- The program's path: a given one as it is, otherwise the one on the search path. -/
def locate (computer : Computer) (given : Option Path) : Except Failure Path :=
  match given with
  | some path => .ok path
  | none => match computer.which programName with
    | .ok path => .ok path
    | .error e => .error (.launch e)

end RebasePlan.Git
