import RebasePlan.Event
import RebasePlan.Head
import RebasePlan.Text.Parts

/-!
# A session with the version-control program

A backend answers calls; it may keep a state of any kind, so each answer may depend on all that went
before. A session is what a confirmed run has seen: first where the repository stands, then a
checkout and a rebase for every rule, last the checkout of the starting point. No answer stops it.
The report and the events of a run are read off its session.
-/

namespace RebasePlan

/-- What a backend gives back for a call, and what it told meanwhile. -/
structure Answer where
  reply : Reply
  log : List Event := []

/-- Something that answers calls, with a state of its own. -/
structure Backend (σ : Type) where
  answer : Call → σ → Answer × σ

/-- A call, the reply to it, and what the backend told meanwhile. -/
structure Exchange where
  call : Call
  reply : Reply
  log : List Event

/-- Makes one call. -/
def Backend.exchange {σ : Type} (b : Backend σ) (c : Call) (s : σ) : Exchange × σ :=
  let (answer, s) := b.answer c s
  (⟨c, answer.reply, answer.log⟩, s)

namespace Exchange

/-- The branch that a status names. -/
def branch? (e : Exchange) : Option String := e.reply.successText?.bind Head.branch?

/-- The commit that a description of the head names. -/
def commit? (e : Exchange) : Option String := e.reply.successText?.bind Head.commit?

/-- What is told of a query: the first line that it printed, and a warning that is serious only if
    the query failed. -/
def queryEvents (e : Exchange) : List Event :=
  let printed := e.reply.output?.toList.map fun output =>
    Event.printed .debug e.reply.command (Text.firstLine output.stdout)
  let warned := e.reply.warning?.toList.map fun w =>
    Event.warned (if w.isFailure then .warn else .debug) w
  e.log ++ printed ++ warned

/-- What is told of a checkout or a rebase: all that it printed, unless it is blank, and its
    warning. -/
def actionEvents (e : Exchange) : List Event :=
  let printed := e.reply.output?.toList.flatMap fun output =>
    let text := trimmed output.stdout
    if text.isEmpty then [] else [Event.printed .info e.reply.command text]
  let warned := e.reply.warning?.toList.map fun w => Event.warned .warn w
  e.log ++ printed ++ warned

end Exchange

/-- Where a run starts. -/
inductive Origin where
  | branch (name : String)
  | commit (name : String)
  | unknown
  deriving DecidableEq, Repr

/-- The name to return to, if it is known. -/
def Origin.name? : Origin → Option String
  | branch name => some name
  | commit name => some name
  | unknown => none

/-- What is checked out at the end: the empty reference if there is no name to return to. -/
def Origin.target (o : Origin) : String := o.name?.getD ""

/-- The queries at the beginning of a session: the head commit is asked for only if the status names
    no branch. -/
structure Opening where
  status : Exchange
  showHead : Option Exchange

namespace Opening

/-- Finds out where the repository stands. -/
def run {σ : Type} (b : Backend σ) (s : σ) : Opening × σ :=
  let (status, s) := b.exchange .status s
  match status.branch? with
  | some _ => (⟨status, none⟩, s)
  | none =>
    let (showHead, s) := b.exchange .showHead s
    (⟨status, some showHead⟩, s)

/-- The starting point that the queries tell. -/
def origin (o : Opening) : Origin :=
  match o.status.branch? with
  | some name => .branch name
  | none => match o.showHead.bind Exchange.commit? with
    | some name => .commit name
    | none => .unknown

/-- The exchanges of the queries. -/
def exchanges (o : Opening) : List Exchange := o.status :: o.showHead.toList

/-- What is told of the queries. -/
def events (o : Opening) : List Event :=
  o.status.queryEvents ++
    match o.origin with
    | .branch name => [.startingBranch name]
    | .commit name =>
      .noBranch :: o.showHead.toList.flatMap Exchange.queryEvents ++ [.startingCommit name]
    | .unknown => .noBranch :: o.showHead.toList.flatMap Exchange.queryEvents ++ [.headUnknown]

end Opening

/-- A rule as it was carried out. -/
structure RuleStep where
  rule : Rule
  checkout : Exchange
  rebase : Exchange

namespace RuleStep

/-- Carries out the rules of a plan, one after the other. -/
def runAll {σ : Type} (b : Backend σ) : Plan → σ → List RuleStep × σ
  | [], s => ([], s)
  | rule :: rules, s =>
    let (checkout, s) := b.exchange (.checkout rule.branch) s
    let (rebase, s) := b.exchange (.rebase rule.base) s
    let (steps, s) := runAll b rules s
    (⟨rule, checkout, rebase⟩ :: steps, s)

/-- The two exchanges of a rule. -/
def exchanges (r : RuleStep) : List Exchange := [r.checkout, r.rebase]

/-- What is told of rules, the first of which is number `n` of `total`. -/
def eventsFrom (total n : Nat) : List RuleStep → List Event
  | [] => []
  | r :: rest =>
    .rebasing n total r.rule ::
      (r.checkout.actionEvents ++ r.rebase.actionEvents ++ eventsFrom total (n + 1) rest)

end RuleStep

/-- What a confirmed run has seen. -/
structure Session where
  opening : Opening
  steps : List RuleStep
  restore : Exchange

/-- What is known after a run. -/
structure Report where
  /-- Nothing was executed. -/
  dryRun : Bool := false
  /-- What was checked out when the run started. -/
  origin : Option String := none
  /-- How many calls were made. -/
  calls : Nat := 0
  /-- The warnings, in the order of the calls. -/
  warnings : List Warning := []
  deriving DecidableEq, Repr

namespace Report

/-- The warnings of calls that failed. -/
def failures (r : Report) : List Warning := r.warnings.filter Warning.isFailure

/-- Whether no call failed. -/
def succeeded (r : Report) : Bool := r.failures.isEmpty

end Report

namespace Session

/-- Carries out a plan and returns to the starting point. -/
def run {σ : Type} (b : Backend σ) (plan : Plan) (s : σ) : Session × σ :=
  let (opening, s) := Opening.run b s
  let (steps, s) := RuleStep.runAll b plan s
  let (restore, s) := b.exchange (.checkout opening.origin.target) s
  (⟨opening, steps, restore⟩, s)

/-- All exchanges of a session, in their order. -/
def exchanges (s : Session) : List Exchange :=
  s.opening.exchanges ++ s.steps.flatMap RuleStep.exchanges ++ [s.restore]

/-- All calls of a session, in their order. -/
def calls (s : Session) : List Call := s.exchanges.map Exchange.call

/-- What is known after a session. -/
def report (s : Session) : Report where
  origin := s.opening.origin.name?
  calls := s.exchanges.length
  warnings := s.exchanges.filterMap fun e => e.reply.warning?

/-- What is told of a session. -/
def events (s : Session) : List Event :=
  s.opening.events ++ RuleStep.eventsFrom s.steps.length 1 s.steps ++
    .restoring s.opening.origin.target :: s.restore.actionEvents

end Session

end RebasePlan
