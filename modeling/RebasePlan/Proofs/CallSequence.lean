import RebasePlan.Executor
import RebasePlan.Proofs.HeadReading

/-! # The calls of a confirmed run

    A backend may answer as it likes, and keep any state to do so.  What it is
    asked does not depend on that, but for the two queries at the beginning:
    `Run.confirmed_calls` gives the whole sequence.

    The calls are those that reach the backend.  `Backend.noting` writes them
    down on their way, and the simulation `Session.run_noting` shows that the run
    neither notices nor forgets any: what is written down are the exchanges of
    the session, in their order. -/

namespace RebasePlan

variable {σ τ : Type}

/-- A backend that writes down every call before it passes it on. -/
def Backend.noting (b : Backend σ) : Backend (List Call × σ) where
  answer call state :=
    let (answer, s) := b.answer call state.2
    (answer, (state.1 ++ [call], s))

/-- The calls that reach a backend during a confirmed run. -/
def Run.callsSeen (b : Backend σ) (plan : Plan) (s : σ) : List Call :=
  (Run.execute b.noting true plan ([], s)).2.1

/-- What a run asks for one rule. -/
def Rule.calls (r : Rule) : List Call := [.checkout r.branch, .rebase r.base]

/-- The reply names something to a reader of texts: the program ended with code 0, and the reader
    finds the name in what it printed. -/
def Reply.Names (read : String → Option String) (r : Reply) (name : String) : Prop :=
  ∃ output, r.outcome = .ok output ∧ output.exitCode = 0 ∧ read output.stdout = some name

/-- The text of a success is what a process printed that ended with exit code 0. -/
theorem Reply.successText?_eq_some_iff {r : Reply} {text : String} :
    r.successText? = some text ↔
      ∃ output, r.outcome = .ok output ∧ output.exitCode = 0 ∧ output.stdout = text := by
  rw [successText?]
  cases h : r.outcome with
  | error e =>
      constructor
      · intro hn
        exact nomatch hn
      · rintro ⟨output, ho, -⟩
        exact nomatch ho
  | ok output =>
      show (if output.succeeded then some output.stdout else none) = some text ↔ _
      constructor
      · intro ht
        split at ht
        · next hs => exact ⟨output, rfl, beq_iff_eq.mp hs, Option.some.inj ht⟩
        · exact nomatch ht
      · rintro ⟨output', ho, hcode, htext⟩
        obtain rfl := Except.ok.inj ho
        have hs : output.succeeded = true := beq_iff_eq.mpr hcode
        rw [if_pos hs, htext]

theorem Reply.names_iff {read : String → Option String} {r : Reply} {name : String} :
    r.Names read name ↔ r.successText?.bind read = some name := by
  rw [Option.bind_eq_some_iff]
  constructor
  · rintro ⟨output, ho, hcode, hname⟩
    exact ⟨output.stdout, successText?_eq_some_iff.mpr ⟨output, ho, hcode, rfl⟩, hname⟩
  · rintro ⟨text, htext, hname⟩
    obtain ⟨output, ho, hcode, rfl⟩ := successText?_eq_some_iff.mp htext
    exact ⟨output, ho, hcode, hname⟩

/-- A reply names nothing just if it has no text of a success, or none from which something can be
    read. -/
theorem Reply.names_nothing_iff {read : String → Option String} {r : Reply} :
    (∀ name, ¬ r.Names read name) ↔ r.successText?.bind read = none := by
  rw [Option.eq_none_iff_forall_ne_some]
  exact forall_congr' fun name => not_congr names_iff

/-- A reply names at most one thing, and which one depends on its outcome alone. -/
theorem Reply.Names.unique {read : String → Option String} {r r' : Reply} {name name' : String}
    (hsame : r.outcome = r'.outcome) (h : r.Names read name) (h' : r'.Names read name') :
    name = name' := by
  obtain ⟨output, ho, -, hname⟩ := h
  obtain ⟨output', ho', -, hname'⟩ := h'
  obtain rfl := Except.ok.inj (ho.symm.trans (hsame.trans ho'))
  exact Option.some.inj (hname.symm.trans hname')

theorem Reply.Names.of_outcome_eq {read : String → Option String} {r r' : Reply} {name : String}
    (hsame : r.outcome = r'.outcome) (h : r.Names read name) : r'.Names read name := by
  obtain ⟨output, ho, hcode, hname⟩ := h
  exact ⟨output, hsame.symm.trans ho, hcode, hname⟩

/-! ## The opening -/

/-- The reply to the status. -/
def Backend.statusReply (b : Backend σ) (s : σ) : Reply := (b.answer .status s).1.reply

/-- The reply to a description of the head that is asked for after the status. -/
def Backend.headReply (b : Backend σ) (s : σ) : Reply :=
  (b.answer .showHead (b.answer .status s).2).1.reply

/-- Where a run starts: the queries that it makes after the status, and the reference that it will
    return to. -/
inductive StartsAt (b : Backend σ) (s : σ) : List Call → String → Prop where
  /-- The status names a branch. -/
  | branch {name : String} : (b.statusReply s).Names Head.branch? name → StartsAt b s [] name
  /-- The status names none, and the description of the head names a commit. -/
  | commit {name : String} : (∀ branch, ¬ (b.statusReply s).Names Head.branch? branch) →
      (b.headReply s).Names Head.commit? name → StartsAt b s [.showHead] name
  /-- Neither names anything. -/
  | unknown : (∀ branch, ¬ (b.statusReply s).Names Head.branch? branch) →
      (∀ commit, ¬ (b.headReply s).Names Head.commit? commit) → StartsAt b s [.showHead] ""

/-- Two runs whose queries are answered alike; the description of the head matters only if it is
    asked for. -/
def SameStart (b : Backend σ) (s : σ) (b' : Backend τ) (s' : τ) : Prop :=
  (b.statusReply s).outcome = (b'.statusReply s').outcome ∧
    ((∀ branch, ¬ (b.statusReply s).Names Head.branch? branch) →
      (b.headReply s).outcome = (b'.headReply s').outcome)

theorem SameStart.refl (b : Backend σ) (s : σ) : SameStart b s b s := ⟨rfl, fun _ => rfl⟩

/-- A status that names a branch ends the opening, and the run starts at that branch. -/
theorem Opening.run_of_branch {b : Backend σ} {s : σ} {name : String}
    (h : (b.statusReply s).Names Head.branch? name) :
    (Opening.run b s).1 = ⟨(b.exchange .status s).1, none⟩ ∧
      (Opening.run b s).1.origin = .branch name := by
  have hbranch : (b.exchange .status s).1.branch? = some name := Reply.names_iff.mp h
  have hrun : (Opening.run b s).1 = ⟨(b.exchange .status s).1, none⟩ := by
    simp only [Opening.run, hbranch]
  refine ⟨hrun, ?_⟩
  rw [hrun]
  simp only [Opening.origin, hbranch]

/-- Without a branch in the status, the opening asks a second time, and the run starts where the
    answer says, if it says anything. -/
theorem Opening.run_of_no_branch {b : Backend σ} {s : σ}
    (h : ∀ branch, ¬ (b.statusReply s).Names Head.branch? branch) :
    (Opening.run b s).1 = ⟨(b.exchange .status s).1,
        some (b.exchange .showHead (b.exchange .status s).2).1⟩ ∧
      (Opening.run b s).1.origin.name?
        = (b.headReply s).successText?.bind Head.commit? := by
  have hbranch : (b.exchange .status s).1.branch? = none := Reply.names_nothing_iff.mp h
  have hrun : (Opening.run b s).1 = ⟨(b.exchange .status s).1,
      some (b.exchange .showHead (b.exchange .status s).2).1⟩ := by
    simp only [Opening.run, hbranch]
  refine ⟨hrun, ?_⟩
  rw [hrun]
  simp only [Opening.origin, hbranch, Option.bind_some]
  have hcommit : (b.exchange .showHead (b.exchange .status s).2).1.commit?
      = (b.headReply s).successText?.bind Head.commit? := rfl
  rw [hcommit]
  cases (b.headReply s).successText?.bind Head.commit? with
  | none => rfl
  | some name => rfl

/-- **THE OPENING** asks for the status, and for the head only if the status names no branch; then
    it knows where the run starts. -/
theorem Opening.startsAt_run (b : Backend σ) (s : σ) :
    ∃ queries, StartsAt b s queries (Opening.run b s).1.origin.target ∧
      (Opening.run b s).1.exchanges.map Exchange.call = .status :: queries := by
  -- on whether the status names a branch: nothing else decides if the head is asked for
  by_cases h : ∃ name, (b.statusReply s).Names Head.branch? name
  · obtain ⟨name, hname⟩ := h
    obtain ⟨hrun, horigin⟩ := Opening.run_of_branch hname
    refine ⟨[], ?_, ?_⟩
    · rw [horigin]
      exact .branch hname
    · rw [hrun]
      rfl
  · have hno : ∀ name, ¬ (b.statusReply s).Names Head.branch? name := fun n hn => h ⟨n, hn⟩
    obtain ⟨hrun, horigin⟩ := Opening.run_of_no_branch hno
    refine ⟨[.showHead], ?_, ?_⟩
    · rw [Origin.target, horigin]
      cases hc : (b.headReply s).successText?.bind Head.commit? with
      | none => exact .unknown hno (Reply.names_nothing_iff.mpr hc)
      | some name => exact .commit hno (Reply.names_iff.mpr hc)
    · rw [hrun]
      rfl

/-- A starting point that is known has a name. -/
theorem Opening.target_eq_empty_iff (b : Backend σ) (s : σ) :
    (Opening.run b s).1.origin.target = "" ↔ (Opening.run b s).1.origin.name? = none := by
  have hne : ∀ name, (Opening.run b s).1.origin.name? = some name → name ≠ "" := by
    intro name hname
    by_cases h : ∃ branch, (b.statusReply s).Names Head.branch? branch
    · obtain ⟨branch, hbranch⟩ := h
      obtain ⟨-, horigin⟩ := Opening.run_of_branch hbranch
      rw [horigin] at hname
      obtain ⟨output, -, -, hread⟩ := hbranch
      rw [← Option.some.inj hname]
      exact Head.branch?_ne_empty hread
    · have hno : ∀ branch, ¬ (b.statusReply s).Names Head.branch? branch :=
        fun n hn => h ⟨n, hn⟩
      obtain ⟨-, horigin⟩ := Opening.run_of_no_branch hno
      obtain ⟨output, -, -, hread⟩ := Reply.names_iff.mpr (horigin.symm.trans hname)
      exact Head.commit?_ne_empty hread
  rw [Origin.target]
  cases hname : (Opening.run b s).1.origin.name? with
  | none => exact iff_of_true rfl rfl
  | some name => exact iff_of_false (hne name hname) (Option.some_ne_none name)

/-- Where a run starts depends on nothing but the answers to its queries. -/
theorem StartsAt.unique {b : Backend σ} {s : σ} {b' : Backend τ} {s' : τ}
    {queries queries' : List Call} {target target' : String}
    (hsame : SameStart b s b' s') (h : StartsAt b s queries target)
    (h' : StartsAt b' s' queries' target') : queries = queries' ∧ target = target' := by
  obtain ⟨hstatus, hhead⟩ := hsame
  cases h with
  | branch hname =>
      have hname' := hname.of_outcome_eq hstatus
      cases h' with
      | branch hn => exact ⟨rfl, hname.unique hstatus hn⟩
      | commit hno _ => exact absurd hname' (hno _)
      | unknown hno _ => exact absurd hname' (hno _)
  | commit hno hname =>
      have hsame := hhead hno
      cases h' with
      | branch hn => exact absurd (hn.of_outcome_eq hstatus.symm) (hno _)
      | commit _ hn => exact ⟨rfl, hname.unique hsame hn⟩
      | unknown _ hnone => exact absurd (hname.of_outcome_eq hsame) (hnone _)
  | unknown hno hnone =>
      have hsame := hhead hno
      cases h' with
      | branch hn => exact absurd (hn.of_outcome_eq hstatus.symm) (hno _)
      | commit _ hn => exact absurd (hn.of_outcome_eq hsame.symm) (hnone _)
      | unknown _ _ => exact ⟨rfl, rfl⟩

/-- A run asks for the head, or for nothing more than the status. -/
theorem StartsAt.queries_eq {b : Backend σ} {s : σ} {queries : List Call} {target : String}
    (h : StartsAt b s queries target) :
    (queries = [] ∧ ∃ name, (b.statusReply s).Names Head.branch? name) ∨
    (queries = [.showHead] ∧ ¬ ∃ name, (b.statusReply s).Names Head.branch? name) := by
  cases h with
  | branch hname => exact Or.inl ⟨rfl, _, hname⟩
  | commit hno _ => exact Or.inr ⟨rfl, fun ⟨name, hname⟩ => hno name hname⟩
  | unknown hno _ => exact Or.inr ⟨rfl, fun ⟨name, hname⟩ => hno name hname⟩

/-! ## The rules -/

/-- Carrying out one rule. -/
def RuleStep.step (b : Backend σ) (rule : Rule) (s : σ) : RuleStep × σ :=
  let (checkout, s) := b.exchange (.checkout rule.branch) s
  let (rebase, s) := b.exchange (.rebase rule.base) s
  (⟨rule, checkout, rebase⟩, s)

theorem RuleStep.runAll_cons (b : Backend σ) (rule : Rule) (plan : Plan) (s : σ) :
    RuleStep.runAll b (rule :: plan) s
      = ((RuleStep.step b rule s).1 :: (RuleStep.runAll b plan (RuleStep.step b rule s).2).1,
        (RuleStep.runAll b plan (RuleStep.step b rule s).2).2) := rfl

/-- One rule is checked out and rebased, whatever is answered. -/
theorem RuleStep.calls_step (b : Backend σ) (rule : Rule) (s : σ) :
    (RuleStep.step b rule s).1.exchanges.map Exchange.call = rule.calls := rfl

/-- So are all of them, in their order. -/
theorem RuleStep.calls_runAll (b : Backend σ) (plan : Plan) (s : σ) :
    ((RuleStep.runAll b plan s).1.flatMap RuleStep.exchanges).map Exchange.call
      = plan.flatMap Rule.calls := by
  induction plan generalizing s with
  | nil => rfl
  | cons rule plan ih =>
      rw [RuleStep.runAll_cons, List.flatMap_cons, List.map_append, RuleStep.calls_step, ih,
        List.flatMap_cons]

/-- The calls of a session: the opening's, two for each rule, and the way back. -/
theorem Session.calls_run (b : Backend σ) (plan : Plan) (s : σ) :
    (Session.run b plan s).1.calls = (Opening.run b s).1.exchanges.map Exchange.call ++
      plan.flatMap Rule.calls ++ [.checkout (Opening.run b s).1.origin.target] := by
  rw [← RuleStep.calls_runAll b plan (Opening.run b s).2]
  rw [Session.calls, Session.exchanges, List.map_append, List.map_append]
  rfl

/-! ## What reaches the backend -/

/-- A call that is written down is answered as before. -/
theorem Backend.exchange_noting (b : Backend σ) (c : Call) (log : List Call) (s : σ) :
    b.noting.exchange c (log, s) = ((b.exchange c s).1, (log ++ [c], (b.exchange c s).2)) := rfl

/-- Noting the calls of an opening changes nothing about it and notes them in their order. -/
theorem Opening.run_noting (b : Backend σ) (log : List Call) (s : σ) :
    Opening.run b.noting (log, s) = ((Opening.run b s).1,
      (log ++ (Opening.run b s).1.exchanges.map Exchange.call, (Opening.run b s).2)) := by
  simp only [Opening.run, Backend.exchange_noting]
  cases (b.exchange .status s).1.branch? with
  | some name => rfl
  | none =>
      simp only [List.append_assoc]
      rfl

theorem RuleStep.step_noting (b : Backend σ) (rule : Rule) (log : List Call) (s : σ) :
    RuleStep.step b.noting rule (log, s)
      = ((RuleStep.step b rule s).1, (log ++ rule.calls, (RuleStep.step b rule s).2)) := by
  simp only [RuleStep.step, Backend.exchange_noting, List.append_assoc]
  rfl

/-- By induction on the plan, what is noted of its rules is what they say, whatever was noted
    before. -/
theorem RuleStep.runAll_noting (b : Backend σ) (plan : Plan) (log : List Call) (s : σ) :
    RuleStep.runAll b.noting plan (log, s) = ((RuleStep.runAll b plan s).1,
      (log ++ plan.flatMap Rule.calls, (RuleStep.runAll b plan s).2)) := by
  induction plan generalizing log s with
  | nil =>
      show ([], (log, s)) = ([], (log ++ [], s))
      rw [List.append_nil]
  | cons rule plan ih =>
      rw [RuleStep.runAll_cons, RuleStep.step_noting, ih, RuleStep.runAll_cons, List.flatMap_cons,
        List.append_assoc]

/-- **WRITING DOWN CHANGES NOTHING**: the session is the same, and what is written down are its
    calls. -/
theorem Session.run_noting (b : Backend σ) (plan : Plan) (log : List Call) (s : σ) :
    Session.run b.noting plan (log, s) = ((Session.run b plan s).1,
      (log ++ (Session.run b plan s).1.calls, (Session.run b plan s).2)) := by
  have hcalls := Session.calls_run b plan s
  simp only [Session.run, Opening.run_noting, RuleStep.runAll_noting, Backend.exchange_noting,
    List.append_assoc] at hcalls ⊢
  rw [hcalls]

/-- The calls that a noting backend sees are those that the session tells of itself. -/
theorem Run.callsSeen_eq (b : Backend σ) (plan : Plan) (s : σ) :
    Run.callsSeen b plan s = (Session.run b plan s).1.calls := by
  show (Session.run b.noting plan ([], s)).2.1 = _
  rw [Session.run_noting]
  rfl

/-- **THE CALLS OF A CONFIRMED RUN**: the status, the queries that finding the starting point takes,
    a checkout and a rebase for each rule, and the checkout of the starting point.  That reference
    is empty just if the report knows no starting point, and runs with the same start make the
    same calls. -/
theorem Run.confirmed_calls (b : Backend σ) (plan : Plan) (s : σ) :
    (∃ queries target, StartsAt b s queries target ∧
      Run.callsSeen b plan s =
        .status :: queries ++ plan.flatMap Rule.calls ++ [.checkout target] ∧
      (target = "" ↔ (Run.execute b true plan s).1.report.origin = none)) ∧
    ∀ {τ : Type} (b' : Backend τ) (s' : τ), SameStart b s b' s' →
      Run.callsSeen b' plan s' = Run.callsSeen b plan s := by
  obtain ⟨queries, hstart, hqueries⟩ := Opening.startsAt_run b s
  refine ⟨⟨queries, _, hstart, ?_, Opening.target_eq_empty_iff b s⟩, ?_⟩
  · rw [Run.callsSeen_eq, Session.calls_run, hqueries]
  · intro τ b' s' hsame
    obtain ⟨queries', hstart', hqueries'⟩ := Opening.startsAt_run b' s'
    obtain ⟨rfl, htarget⟩ := hstart.unique hsame hstart'
    rw [Run.callsSeen_eq, Run.callsSeen_eq, Session.calls_run, Session.calls_run, hqueries,
      hqueries', htarget]

/-- A failing run and a smooth one that begin alike. -/
theorem Run.confirmed_calls_scripted :
    SameStart Backend.scripted [.ok { stdout := "## main" }]
      Backend.scripted [.ok { stdout := "## main" }, .ok { exitCode := 1 },
        .error (.unknownProgram "git")] ∧
    Run.callsSeen Backend.scripted [⟨"topic", "main"⟩]
        [.ok { stdout := "## main" }, .ok { exitCode := 1 }, .error (.unknownProgram "git")]
      = Run.callsSeen Backend.scripted [⟨"topic", "main"⟩] [.ok { stdout := "## main" }] := by
  have hsame : SameStart Backend.scripted [.ok { stdout := "## main" }]
      Backend.scripted [.ok { stdout := "## main" }, .ok { exitCode := 1 },
        .error (.unknownProgram "git")] :=
    ⟨rfl, fun hno => absurd ⟨_, rfl, rfl, rfl⟩ (hno "main")⟩
  exact ⟨hsame, (Run.confirmed_calls Backend.scripted [⟨"topic", "main"⟩] _).2 _ _ hsame⟩

end RebasePlan
