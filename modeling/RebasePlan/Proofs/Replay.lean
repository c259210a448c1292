import RebasePlan.Proofs.CallSequence

/-! # A session is the replay of its calls

    Which calls a session makes is decided on the way, by the answers.  Once it is
    over, the calls are a list, and making them again in their order brings back
    every exchange and the backend's last state (`Session.replay_run`).  What
    holds of each exchange, or is kept from call to call, is then an induction
    over that list, with no look at queries, rules and the way back.

    Two backends that answer alike lead the same session
    (`Session.run_of_simulates`).  With both, a backend that writes down what it
    answers (`Backend.transcribing`) writes down just the exchanges of the
    session. -/

namespace RebasePlan

variable {σ τ : Type}

/-- Makes calls one after the other. -/
def Backend.replay (b : Backend σ) : List Call → σ → List Exchange × σ
  | [], s => ([], s)
  | c :: calls, s =>
    let (e, s) := b.exchange c s
    let (rest, s) := b.replay calls s
    (e :: rest, s)

namespace Backend

theorem replay_cons (b : Backend σ) (c : Call) (calls : List Call) (s : σ) :
    b.replay (c :: calls) s = ((b.exchange c s).1 :: (b.replay calls (b.exchange c s).2).1,
      (b.replay calls (b.exchange c s).2).2) := rfl

/-- Calls can be taken apart anywhere: the later ones go on in the state that the earlier ones left.
    -/
theorem replay_append (b : Backend σ) (calls calls' : List Call) (s : σ) :
    b.replay (calls ++ calls') s
      = ((b.replay calls s).1 ++ (b.replay calls' (b.replay calls s).2).1,
        (b.replay calls' (b.replay calls s).2).2) := by
  induction calls generalizing s with
  | nil => rfl
  | cons c calls ih => rw [List.cons_append, replay_cons, ih, replay_cons, List.cons_append]

/-- What holds of every answer holds of every exchange. -/
theorem forall_replay {b : Backend σ} {P : Exchange → Prop}
    (h : ∀ c s, P (b.exchange c s).1) (calls : List Call) (s : σ) :
    ∀ e ∈ (b.replay calls s).1, P e := by
  induction calls generalizing s with
  | nil =>
      intro e he
      exact nomatch he
  | cons c calls ih =>
      intro e he
      rw [replay_cons] at he
      rcases List.mem_cons.mp he with rfl | he
      · exact h c s
      · exact ih _ e he

end Backend

/-! ## Bringing a session back -/

theorem Opening.replay_run (b : Backend σ) (s : σ) :
    b.replay ((Opening.run b s).1.exchanges.map Exchange.call) s
      = ((Opening.run b s).1.exchanges, (Opening.run b s).2) := by
  simp only [Opening.run]
  cases (b.exchange .status s).1.branch? with
  | some name => rfl
  | none => rfl

theorem RuleStep.replay_step (b : Backend σ) (rule : Rule) (s : σ) :
    b.replay rule.calls s
      = ((RuleStep.step b rule s).1.exchanges, (RuleStep.step b rule s).2) := rfl

/-- By induction on the plan, the steps of its rules are the replay of their calls. -/
theorem RuleStep.replay_runAll (b : Backend σ) (plan : Plan) (s : σ) :
    b.replay (plan.flatMap Rule.calls) s
      = ((RuleStep.runAll b plan s).1.flatMap RuleStep.exchanges,
        (RuleStep.runAll b plan s).2) := by
  induction plan generalizing s with
  | nil => rfl
  | cons rule plan ih =>
      rw [List.flatMap_cons, Backend.replay_append, RuleStep.replay_step, ih, RuleStep.runAll_cons,
        List.flatMap_cons]

/-- The calls of a confirmed run, in the order of its exchanges. -/
theorem Run.calls_execute (b : Backend σ) (plan : Plan) (s : σ) :
    ∃ queries target, StartsAt b s queries target ∧
      (Run.execute b true plan s).1.exchanges.map Exchange.call =
        .status :: queries ++ plan.flatMap Rule.calls ++ [.checkout target] := by
  obtain ⟨queries, hstart, hqueries⟩ := Opening.startsAt_run b s
  refine ⟨queries, _, hstart, ?_⟩
  rw [← hqueries]
  exact Session.calls_run b plan s

/-- **A SESSION IS THE REPLAY OF ITS CALLS**: making them again in their order brings back the
    exchanges and the last state. -/
theorem Session.replay_run (b : Backend σ) (plan : Plan) (s : σ) :
    b.replay (Session.run b plan s).1.calls s
      = ((Session.run b plan s).1.exchanges, (Session.run b plan s).2) := by
  rw [Session.calls_run, Backend.replay_append, Backend.replay_append, Opening.replay_run,
    RuleStep.replay_runAll]
  rfl

/-- What holds of every answer of a backend holds of every exchange of a session. -/
theorem Session.forall_exchange {b : Backend σ} {P : Exchange → Prop}
    (h : ∀ c s, P (b.exchange c s).1) (plan : Plan) (s : σ) :
    ∀ e ∈ (Session.run b plan s).1.exchanges, P e := by
  have hall := Backend.forall_replay h (Session.run b plan s).1.calls s
  rw [Session.replay_run] at hall
  exact hall

/-! ## Backends that answer alike -/

/-- In states that belong together the two backends answer alike, and their next states belong
    together again. -/
def Backend.Simulates (b : Backend σ) (b' : Backend τ) (R : σ → τ → Prop) : Prop :=
  ∀ c s t, R s t → (b.answer c s).1 = (b'.answer c t).1 ∧ R (b.answer c s).2 (b'.answer c t).2

variable {b : Backend σ} {b' : Backend τ} {R : σ → τ → Prop}

/-- Backends that answer alike exchange alike, and their states stay related. -/
theorem Backend.Simulates.exchange (h : b.Simulates b' R) (c : Call) {s : σ} {t : τ}
    (hst : R s t) :
    (b.exchange c s).1 = (b'.exchange c t).1 ∧ R (b.exchange c s).2 (b'.exchange c t).2 := by
  obtain ⟨hanswer, hnext⟩ := h c s t hst
  refine ⟨?_, hnext⟩
  show Exchange.mk c (b.answer c s).1.reply (b.answer c s).1.log = _
  rw [hanswer]
  rfl

/-- So does an opening, whichever of its two ways it goes. -/
theorem Opening.run_of_simulates (h : b.Simulates b' R) {s : σ} {t : τ} (hst : R s t) :
    (Opening.run b s).1 = (Opening.run b' t).1 ∧
      R (Opening.run b s).2 (Opening.run b' t).2 := by
  obtain ⟨hstatus, hnext⟩ := h.exchange .status hst
  simp only [Opening.run, hstatus]
  cases (b'.exchange .status t).1.branch? with
  | some name => exact ⟨rfl, hnext⟩
  | none =>
      obtain ⟨hhead, hlast⟩ := h.exchange .showHead hnext
      simp only [hhead]
      exact ⟨trivial, hlast⟩

/-- So do the steps of a plan, by induction on its rules. -/
theorem RuleStep.runAll_of_simulates (h : b.Simulates b' R) (plan : Plan) {s : σ} {t : τ}
    (hst : R s t) :
    (RuleStep.runAll b plan s).1 = (RuleStep.runAll b' plan t).1 ∧
      R (RuleStep.runAll b plan s).2 (RuleStep.runAll b' plan t).2 := by
  induction plan generalizing s t with
  | nil => exact ⟨rfl, hst⟩
  | cons rule plan ih =>
      obtain ⟨hcheckout, hmid⟩ := h.exchange (.checkout rule.branch) hst
      obtain ⟨hrebase, hnext⟩ := h.exchange (.rebase rule.base) hmid
      obtain ⟨hrest, hlast⟩ := ih hnext
      simp only [RuleStep.runAll, hcheckout, hrebase, hrest]
      exact ⟨trivial, hlast⟩

/-- **BACKENDS THAT ANSWER ALIKE** lead the same session. -/
theorem Session.run_of_simulates (h : b.Simulates b' R) (plan : Plan) {s : σ} {t : τ}
    (hst : R s t) :
    (Session.run b plan s).1 = (Session.run b' plan t).1 ∧
      R (Session.run b plan s).2 (Session.run b' plan t).2 := by
  -- the way back goes where the opening says, which is the same for both
  obtain ⟨hopening, h₁⟩ := Opening.run_of_simulates h hst
  obtain ⟨hsteps, h₂⟩ := RuleStep.runAll_of_simulates h plan h₁
  obtain ⟨hrestore, h₃⟩ :=
    h.exchange (.checkout (Opening.run b' t).1.origin.target) h₂
  simp only [Session.run, hopening, hsteps, hrestore]
  exact ⟨trivial, h₃⟩

/-! ## Writing down what is answered -/

/-- A backend that writes down every call and the reply to it. -/
def Backend.transcribing (b : Backend σ) : Backend (List (Call × Reply) × σ) where
  answer call state :=
    let (answer, s) := b.answer call state.2
    (answer, (state.1 ++ [(call, answer.reply)], s))

/-- The calls that reach a backend during a confirmed run, with the replies that it gives. -/
def Run.transcript (b : Backend σ) (plan : Plan) (s : σ) : List (Call × Reply) :=
  (Run.execute b.transcribing true plan ([], s)).2.1

theorem Backend.transcribing_simulates (b : Backend σ) :
    b.transcribing.Simulates b (fun state s => state.2 = s) := by
  rintro c state s rfl
  exact ⟨rfl, rfl⟩

/-- What is written down during a replay are its calls with their replies, behind what was written
    before. -/
theorem Backend.replay_transcribing (b : Backend σ) (calls : List Call)
    (log : List (Call × Reply)) (s : σ) :
    (b.transcribing.replay calls (log, s)).2.1
      = log ++ (b.replay calls s).1.map fun e => (e.call, e.reply) := by
  induction calls generalizing log s with
  | nil => exact (List.append_nil log).symm
  | cons c calls ih =>
      rw [replay_cons, replay_cons, List.map_cons]
      show (b.transcribing.replay calls (log ++ [(c, (b.answer c s).1.reply)], _)).2.1 = _
      rw [ih, List.append_assoc]
      rfl

/-- **WRITING DOWN THE ANSWERS CHANGES NOTHING**: the session is the same, and what is written down
    are its exchanges. -/
theorem Session.run_transcribing (b : Backend σ) (plan : Plan) (log : List (Call × Reply)) (s : σ) :
    Session.run b.transcribing plan (log, s) = ((Session.run b plan s).1,
      (log ++ (Session.run b plan s).1.exchanges.map (fun e => (e.call, e.reply)),
        (Session.run b plan s).2)) := by
  obtain ⟨hsession, hstate⟩ := Session.run_of_simulates b.transcribing_simulates plan
    (s := (log, s)) (t := s) rfl
  have hreplay := congrArg (fun run => run.2.1) (Session.replay_run b.transcribing plan (log, s))
  have hlog : (Session.run b.transcribing plan (log, s)).2.1
      = log ++ (Session.run b plan s).1.exchanges.map (fun e => (e.call, e.reply)) := by
    rw [← hreplay, Backend.replay_transcribing, hsession, Session.replay_run]
  exact Prod.ext hsession (Prod.ext hlog hstate)

/-- What is written down are the exchanges of the session. -/
theorem Run.transcript_eq (b : Backend σ) (plan : Plan) (s : σ) :
    Run.transcript b plan s
      = (Session.run b plan s).1.exchanges.map fun e => (e.call, e.reply) := by
  show (Session.run b.transcribing plan ([], s)).2.1 = _
  rw [Session.run_transcribing, List.nil_append]

end RebasePlan
