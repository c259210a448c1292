import Mathlib.Algebra.Ring.Nat
import RebasePlan.Proofs.Replay

/-! # The steps of one executor

    An executor carries two things from step to step: the state of its backend and
    the confirmation.  Nothing else gets across.  A step that only shows its plan
    hands both on as it found them (`ExecutorStep.run_of_onlyShows`), so it can be
    taken out of a sequence, its confirmation left to the step behind it
    (`ExecutorStep.runAll_without`).  A step that is carried out reports what its
    own replies say (`Session.report_eq_ofReplies`), whatever was reported before.

    Which calls belong to which step is read off a backend that writes down what
    it answers: each step adds to that transcript just its own exchanges
    (`ExecutorStep.runAll_transcribing`). -/

namespace RebasePlan

variable {σ : Type}

/-! ## A report is made of replies -/

/-- The name of the starting point by the replies to the calls of a run. -/
def Report.originOf : List Reply → Option String
  | [] => none
  | status :: replies =>
    match status.successText?.bind Head.branch? with
    | some name => some name
    | none => replies.head?.bind fun head => head.successText?.bind Head.commit?

/-- The report on a run whose calls were answered by these replies. -/
def Report.ofReplies (replies : List Reply) : Report where
  origin := originOf replies
  calls := replies.length
  warnings := replies.filterMap Reply.warning?

/-- The replies of an opening tell where the run started, whatever comes after them. -/
theorem Opening.originOf_replies (b : Backend σ) (s : σ) (rest : List Reply) :
    Report.originOf ((Opening.run b s).1.exchanges.map Exchange.reply ++ rest)
      = (Opening.run b s).1.origin.name? := by
  -- on whether the status names a branch: otherwise the head is asked for next
  by_cases h : ∃ name, (b.statusReply s).Names Head.branch? name
  · obtain ⟨name, hname⟩ := h
    obtain ⟨hrun, horigin⟩ := Opening.run_of_branch hname
    have hbranch : (b.exchange .status s).1.reply.successText?.bind Head.branch? = some name :=
      Reply.names_iff.mp hname
    rw [horigin, hrun]
    simp only [exchanges, Option.toList_none, List.map_cons, List.cons_append, Report.originOf,
      hbranch, Origin.name?]
  · have hno : ∀ name, ¬ (b.statusReply s).Names Head.branch? name := fun n hn => h ⟨n, hn⟩
    obtain ⟨hrun, horigin⟩ := Opening.run_of_no_branch hno
    have hbranch : (b.exchange .status s).1.reply.successText?.bind Head.branch? = none :=
      Reply.names_nothing_iff.mp hno
    rw [horigin, hrun]
    simp only [exchanges, Option.toList_some, List.map_cons, List.cons_append, Report.originOf,
      hbranch, List.head?_cons, Option.bind_some]
    rfl

/-- **A REPORT IS MADE OF REPLIES**: nothing but the replies to the calls of its own session goes
    into it. -/
theorem Session.report_eq_ofReplies (b : Backend σ) (plan : Plan) (s : σ) :
    (Session.run b plan s).1.report
      = Report.ofReplies ((Session.run b plan s).1.exchanges.map Exchange.reply) := by
  have horigin := Opening.originOf_replies b s
    (((Session.run b plan s).1.steps.flatMap RuleStep.exchanges ++
      [(Session.run b plan s).1.restore]).map Exchange.reply)
  rw [← List.map_append, ← List.append_assoc] at horigin
  rw [report, Report.ofReplies, List.length_map, List.filterMap_map]
  congr 1
  exact horigin.symm

/-! ## One step -/

/-- The calls of a run, with the replies to them. -/
def Run.answers (r : Run) : List (Call × Reply) := r.exchanges.map fun e => (e.call, e.reply)

theorem Run.map_snd_answers (r : Run) :
    r.answers.map Prod.snd = r.exchanges.map Exchange.reply := by
  rw [answers, List.map_map]
  rfl

namespace ExecutorStep

/-- The step only shows its plan: it is told to, or nothing is confirmed. -/
def OnlyShows (step : ExecutorStep) (confirmed : Bool) : Prop :=
  step.showOnly = true ∨ confirmed = false

instance (step : ExecutorStep) (confirmed : Bool) : Decidable (step.OnlyShows confirmed) :=
  inferInstanceAs (Decidable (_ ∨ _))

variable {step : ExecutorStep} {confirmed : Bool}

/-- A step that only shows its plan leaves the state alone. -/
theorem run_of_onlyShows (h : step.OnlyShows confirmed) (b : Backend σ) (s : σ) :
    step.run b confirmed s = (Run.dry step.plan, s) := by
  rw [run]
  split
  · rfl
  · next hshow =>
    rcases h with h | rfl
    · exact absurd h hshow
    · rfl

/-- Any other step is a session over its plan. -/
theorem run_of_carriesOut (h : ¬ step.OnlyShows confirmed) (b : Backend σ) (s : σ) :
    step.run b confirmed s
      = (Run.ofSession (Session.run b step.plan s).1, (Session.run b step.plan s).2) := by
  obtain ⟨hshow, hconfirmed⟩ := not_or.mp h
  rw [run, if_neg hshow, Bool.eq_true_of_not_eq_false hconfirmed]
  rfl

/-- The report of a step counts its own calls. -/
theorem calls_run (b : Backend σ) (step : ExecutorStep) (confirmed : Bool) (s : σ) :
    (step.run b confirmed s).1.report.calls = (step.run b confirmed s).1.answers.length := by
  rw [Run.answers, List.length_map]
  by_cases h : step.OnlyShows confirmed
  · rw [run_of_onlyShows h]
    rfl
  · rw [run_of_carriesOut h]
    rfl

/-- A step adds its own exchanges to what is written down, and is not changed by it. -/
theorem run_transcribing (b : Backend σ) (step : ExecutorStep) (confirmed : Bool)
    (log : List (Call × Reply)) (s : σ) :
    step.run b.transcribing confirmed (log, s) = ((step.run b confirmed s).1,
      (log ++ (step.run b confirmed s).1.answers, (step.run b confirmed s).2)) := by
  by_cases h : step.OnlyShows confirmed
  · rw [run_of_onlyShows h, run_of_onlyShows h]
    show _ = (Run.dry step.plan, (log ++ [], s))
    rw [List.append_nil]
  · rw [run_of_carriesOut h, run_of_carriesOut h, Session.run_transcribing]
    rfl

/-! ## Steps one after the other -/

theorem runAll_cons (b : Backend σ) (step : ExecutorStep) (steps : List ExecutorStep)
    (confirmed : Bool) (s : σ) :
    runAll b (step :: steps) confirmed s =
      ((step.run b (step.confirmed.getD confirmed) s).1 ::
          (runAll b steps (step.confirmed.getD confirmed)
            (step.run b (step.confirmed.getD confirmed) s).2).1,
        (runAll b steps (step.confirmed.getD confirmed)
          (step.run b (step.confirmed.getD confirmed) s).2).2) := rfl

/-- The confirmation that steps leave behind. -/
def confirmedAfter (steps : List ExecutorStep) (confirmed : Bool) : Bool :=
  steps.foldl (fun confirmed step => step.confirmed.getD confirmed) confirmed

theorem confirmedAfter_concat (steps : List ExecutorStep) (step : ExecutorStep)
    (confirmed : Bool) :
    confirmedAfter (steps ++ [step]) confirmed
      = step.confirmed.getD (confirmedAfter steps confirmed) := by
  rw [confirmedAfter, List.foldl_append]
  rfl

/-- Steps can be taken apart anywhere: the later ones go on with the confirmation and the state that
    the earlier ones left. -/
theorem runAll_append (b : Backend σ) (front rest : List ExecutorStep) (confirmed : Bool) (s : σ) :
    runAll b (front ++ rest) confirmed s =
      ((runAll b front confirmed s).1 ++
          (runAll b rest (confirmedAfter front confirmed) (runAll b front confirmed s).2).1,
        (runAll b rest (confirmedAfter front confirmed) (runAll b front confirmed s).2).2) := by
  induction front generalizing confirmed s with
  | nil => rfl
  | cons step front ih =>
      rw [List.cons_append, runAll_cons, ih, runAll_cons]
      rfl

theorem length_runAll (b : Backend σ) (steps : List ExecutorStep) (confirmed : Bool) (s : σ) :
    (runAll b steps confirmed s).1.length = steps.length := by
  induction steps generalizing confirmed s with
  | nil => rfl
  | cons step steps ih => rw [runAll_cons, List.length_cons, ih, List.length_cons]

/-- **EACH STEP WRITES ITS OWN PAGE**: what is written down are the exchanges of the steps, one step
    after the other. -/
theorem runAll_transcribing (b : Backend σ) (steps : List ExecutorStep) (confirmed : Bool)
    (log : List (Call × Reply)) (s : σ) :
    runAll b.transcribing steps confirmed (log, s) = ((runAll b steps confirmed s).1,
      (log ++ (runAll b steps confirmed s).1.flatMap Run.answers,
        (runAll b steps confirmed s).2)) := by
  induction steps generalizing confirmed log s with
  | nil =>
      show ([], (log, s)) = ([], (log ++ [], s))
      rw [List.append_nil]
  | cons step steps ih =>
      simp only [runAll_cons, run_transcribing, ih, List.flatMap_cons, List.append_assoc]

/-- The answers to all steps are as many as the reports count calls. -/
theorem length_flatMap_answers (b : Backend σ) (steps : List ExecutorStep) (confirmed : Bool)
    (s : σ) :
    ((runAll b steps confirmed s).1.flatMap Run.answers).length
      = ((runAll b steps confirmed s).1.map fun r => r.report.calls).sum := by
  induction steps generalizing confirmed s with
  | nil => rfl
  | cons step steps ih =>
      rw [runAll_cons]
      simp only [List.flatMap_cons, List.length_append, List.map_cons, List.sum_cons, ih,
        calls_run]

/-! ## Taking a step out -/

/-- Steps, the first of which takes over a confirmation that was set before it, unless it sets one
    itself. -/
def inheriting (flag : Option Bool) : List ExecutorStep → List ExecutorStep
  | [] => []
  | step :: steps => { step with confirmed := step.confirmed.or flag } :: steps

/-- A confirmation that the first step takes over counts as the one from which the steps begin. -/
theorem runAll_inheriting (b : Backend σ) (flag : Option Bool) (steps : List ExecutorStep)
    (confirmed : Bool) (s : σ) :
    (runAll b (inheriting flag steps) confirmed s)
      = runAll b steps (flag.getD confirmed) s := by
  cases steps with
  | nil => rfl
  | cons step steps =>
      have hflag : (step.confirmed.or flag).getD confirmed
          = step.confirmed.getD (flag.getD confirmed) := by
        cases step.confirmed <;> rfl
      rw [inheriting, runAll_cons, runAll_cons, hflag]
      rfl

/-- **A STEP THAT ONLY SHOWS LEAVES NO TRACE**: without it, the steps before and behind it are what
    they were, if its confirmation is kept. -/
theorem runAll_without (b : Backend σ) (front : List ExecutorStep) (step : ExecutorStep)
    (rest : List ExecutorStep) (confirmed : Bool) (s : σ)
    (h : step.OnlyShows (confirmedAfter (front ++ [step]) confirmed)) :
    runAll b (front ++ inheriting step.confirmed rest) confirmed s =
      ((runAll b (front ++ step :: rest) confirmed s).1.eraseIdx front.length,
        (runAll b (front ++ step :: rest) confirmed s).2) := by
  rw [confirmedAfter_concat] at h
  have hlength := length_runAll b front confirmed s
  rw [runAll_append, runAll_append, runAll_inheriting, runAll_cons]
  simp only [run_of_onlyShows h]
  rw [← hlength, List.eraseIdx_append_of_length_le (Nat.le_refl _), Nat.sub_self]
  rfl

/-! ## A whole session of steps -/

/-- The runs of the steps of a new executor, to which nothing is confirmed yet. -/
def runs (b : Backend σ) (steps : List ExecutorStep) (s : σ) : List Run :=
  (runAll b steps false s).1

/-- The calls that reach the backend of a new executor, with the replies that it gives. -/
def transcript (b : Backend σ) (steps : List ExecutorStep) (s : σ) : List (Call × Reply) :=
  (runAll b.transcribing steps false ([], s)).2.1

theorem transcript_eq (b : Backend σ) (steps : List ExecutorStep) (s : σ) :
    transcript b steps s = (runs b steps s).flatMap Run.answers := by
  rw [transcript, runAll_transcribing, List.nil_append]
  rfl

/-- The runs of a sequence that is continued begin with the runs of the sequence. -/
theorem runs_append (b : Backend σ) (front rest : List ExecutorStep) (s : σ) :
    runs b (front ++ rest) s = runs b front s ++
      (runAll b rest (confirmedAfter front false) (runAll b front false s).2).1 := by
  rw [runs, runAll_append]
  rfl

/-- **STEPS DO NOT LEAK**: as many calls are answered as the reports count.  In any sequence, the
    step behind `front` adds to the transcript just the calls of its own run.  If it only shows its
    plan, these are none, its report is empty, and without it all other runs and the calls are the
    same.  Otherwise its report is made of the replies to its own calls. -/
theorem runs_stand_alone (b : Backend σ) (s : σ) :
    (∀ steps, (transcript b steps s).length
      = ((runs b steps s).map fun r => r.report.calls).sum) ∧
    ∀ front step rest, ∃ r, (runs b (front ++ step :: rest) s)[front.length]? = some r ∧
      transcript b (front ++ [step]) s = transcript b front s ++ r.answers ∧
      (step.OnlyShows (confirmedAfter (front ++ [step]) false) →
        r.answers = [] ∧
        r.report = { dryRun := true, origin := none, calls := 0, warnings := [] } ∧
        runs b (front ++ inheriting step.confirmed rest) s
          = (runs b (front ++ step :: rest) s).eraseIdx front.length ∧
        transcript b (front ++ inheriting step.confirmed rest) s
          = transcript b (front ++ step :: rest) s) ∧
      (¬ step.OnlyShows (confirmedAfter (front ++ [step]) false) →
        r.report = Report.ofReplies (r.answers.map Prod.snd)) := by
  refine ⟨fun steps => ?_, fun front step rest => ?_⟩
  · rw [transcript_eq]
    exact length_flatMap_answers b steps false s
  -- the run of the step, in the state and with the confirmation that the steps before it leave
  have hstep := runAll_cons b step rest (confirmedAfter front false) (runAll b front false s).2
  rw [← confirmedAfter_concat] at hstep
  generalize hr : step.run b (confirmedAfter (front ++ [step]) false) (runAll b front false s).2
    = ran at hstep
  have hlength : (runs b front s).length = front.length := length_runAll b front false s
  refine ⟨ran.1, ?_, ?_, fun hshows => ⟨?_, ?_, ?_, ?_⟩, fun hcarries => ?_⟩
  · rw [runs_append, hstep, ← hlength, List.getElem?_append_right (Nat.le_refl _), Nat.sub_self]
    rfl
  · have hlast := runAll_cons b step [] (confirmedAfter front false) (runAll b front false s).2
    rw [← confirmedAfter_concat, hr] at hlast
    rw [transcript_eq, transcript_eq, runs_append, hlast, List.flatMap_append]
    congr 1
    exact List.append_nil _
  · rw [← hr, run_of_onlyShows hshows]
    rfl
  · rw [← hr, run_of_onlyShows hshows]
    rfl
  · exact congrArg Prod.fst (runAll_without b front step rest false s hshows)
  · exact congrArg (fun ran => ran.2.1)
      (runAll_without b.transcribing front step rest false ([], s) hshows)
  · rw [← hr, run_of_carriesOut hcarries, Run.map_snd_answers]
    exact Session.report_eq_ofReplies b step.plan _

/-- A step that confirms and only shows its plan, between one that is carried out and one that is
    carried out because of it. -/
theorem runs_stand_alone_confirmed_by_shown :
    let plan : Plan := [⟨"topic", "main"⟩]
    let script : List Outcome := [.ok { stdout := "## main" }, .ok { exitCode := 1 }]
    let front : List ExecutorStep := [⟨some true, plan, false⟩, ⟨some false, plan, false⟩]
    let step : ExecutorStep := ⟨some true, plan, true⟩
    let rest : List ExecutorStep := [⟨none, plan, false⟩]
    step.OnlyShows (confirmedAfter (front ++ [step]) false) ∧
      runs Backend.scripted (front ++ inheriting step.confirmed rest) script
        = (runs Backend.scripted (front ++ step :: rest) script).eraseIdx 2 ∧
      (transcript Backend.scripted (front ++ step :: rest) script).length = 4 + 0 + 0 + 5 := by
  intro plan script front step rest
  have hshows : step.OnlyShows (confirmedAfter (front ++ [step]) false) := by decide
  obtain ⟨hcount, hsteps⟩ := runs_stand_alone Backend.scripted script
  obtain ⟨r, -, -, hquiet, -⟩ := hsteps front step rest
  obtain ⟨-, -, hothers, -⟩ := hquiet hshows
  exact ⟨hshows, hothers, (hcount _).trans (by decide +kernel)⟩

end ExecutorStep

end RebasePlan
