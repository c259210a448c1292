import RebasePlan.Proofs.Replay
import RebasePlan.Proofs.Trimming

/-! # What a report says of its run

    A report is read off the replies that came back.  `Report.Accounts` says what
    each of its parts should be, reply by reply: a warning for every call that
    went wrong or left a complaint, a failure for every call that went wrong.

    The report tells a failure by the exit code in the warning, a caller by the
    text of the reply.  The two agree (`Reply.isFailure_entry`) as long as an exit
    that counts as an error has a code other than 0, which is all that is asked
    of a backend (`Outcome.Possible`). -/

namespace RebasePlan

open Text (Blank)

variable {σ : Type}

/-- What running a process can come to: an exit that counts as an error has a code other than 0. -/
def Outcome.Possible (o : Outcome) : Prop := ∀ command, o ≠ .error (.badExit command 0)

instance (o : Outcome) : Decidable o.Possible :=
  match o with
  | .ok _ => isTrue nofun
  | .error (.badExit _ 0) => isFalse fun h => h _ rfl
  | .error (.badExit _ (.ofNat (_ + 1))) => isTrue nofun
  | .error (.badExit _ (.negSucc _)) => isTrue nofun
  | .error (.unknownProgram _) => isTrue nofun
  | .error (.notStarted ..) => isTrue nofun
  | .error (.notCaptured ..) => isTrue nofun

namespace Reply

/-! ## One reply -/

/-- The call did not run, or its process ended with a code other than 0. -/
def Failed (r : Reply) : Prop := ∀ output, r.outcome = .ok output → output.exitCode ≠ 0

/-- The process left something besides blanks on its error output. -/
def Complains (r : Reply) : Prop :=
  ∃ output, r.outcome = .ok output ∧ ¬ Blank output.stderr.toList

/-- The exit code of a call; none if it did not run. -/
def exitCode? (r : Reply) : Option Int :=
  match r.outcome with
  | .ok output => some output.exitCode
  | .error (.badExit _ code) => some code
  | .error _ => none

/-- What is there to read about a call: its error output, or why it did not run. -/
def complaint (r : Reply) : String :=
  match r.outcome with
  | .ok output => trimmed output.stderr
  | .error (.badExit ..) => ""
  | .error e => e.message

/-- What a report writes of a call. -/
def entry (r : Reply) : Warning := ⟨r.command, r.exitCode?, r.complaint⟩

variable {r : Reply}

/-- A call failed just if it left no text of a success. -/
theorem failed_iff : r.Failed ↔ r.successText? = none := by
  rw [Option.eq_none_iff_forall_ne_some]
  constructor
  · intro h text htext
    obtain ⟨output, ho, hcode, -⟩ := successText?_eq_some_iff.mp htext
    exact h output ho hcode
  · intro h output ho hcode
    exact h output.stdout (successText?_eq_some_iff.mpr ⟨output, ho, hcode, rfl⟩)

instance (r : Reply) : Decidable r.Failed := decidable_of_iff _ failed_iff.symm

theorem not_failed_iff : ¬ r.Failed ↔ ∃ text, r.successText? = some text := by
  rw [failed_iff, ← ne_eq, Option.ne_none_iff_exists']

theorem failed_of_error {e : LaunchError} (h : r.outcome = .error e) : r.Failed := by
  intro output ho
  rw [h] at ho
  exact nomatch ho

theorem failed_iff_of_ok {output : Output} (h : r.outcome = .ok output) :
    r.Failed ↔ output.exitCode ≠ 0 := by
  constructor
  · intro hf
    exact hf output h
  · intro hne output' ho
    rw [← Except.ok.inj (h.symm.trans ho)]
    exact hne

theorem complains_iff_of_ok {output : Output} (h : r.outcome = .ok output) :
    r.Complains ↔ trimmed output.stderr ≠ "" := by
  have hblank : trimmed output.stderr = "" ↔ Blank output.stderr.toList := by
    rw [trimmed, String.ofList_eq_empty_iff, Text.trim_eq_nil_iff]
  constructor
  · rintro ⟨output', ho, hnot⟩ hempty
    rw [← Except.ok.inj (h.symm.trans ho)] at hnot
    exact hnot (hblank.mp hempty)
  · intro hne
    exact ⟨output, h, fun hb => hne (hblank.mpr hb)⟩

instance (r : Reply) : Decidable r.Complains :=
  match h : r.outcome with
  | .ok _ => decidable_of_iff _ (complains_iff_of_ok h).symm
  | .error _ => isFalse fun ⟨_, ho, _⟩ => nomatch h.symm.trans ho

/-- A warning is given of each call that failed or left a complaint. -/
theorem warning?_eq (r : Reply) :
    r.warning? = if r.Failed ∨ r.Complains then some r.entry else none := by
  cases h : r.outcome with
  | error e =>
      rw [if_pos (Or.inl (failed_of_error h)), warning?, entry, exitCode?, complaint, h]
      cases e with
      | badExit command code => rfl
      | unknownProgram name => rfl
      | notStarted command cause => rfl
      | notCaptured command cause => rfl
  | ok output =>
      have hentry : r.entry = ⟨r.command, some output.exitCode, trimmed output.stderr⟩ := by
        rw [entry, exitCode?, complaint, h]
      have hquiet : (output.succeeded && (trimmed output.stderr).isEmpty) = true ↔
          ¬ (r.Failed ∨ r.Complains) := by
        rw [not_or, failed_iff_of_ok h, complains_iff_of_ok h, Bool.and_eq_true,
          String.isEmpty_iff, not_not, not_not]
        exact and_congr_left' beq_iff_eq
      rw [warning?, h, hentry]
      show (if (output.succeeded && (trimmed output.stderr).isEmpty) = true then none else _) = _
      by_cases hq : (output.succeeded && (trimmed output.stderr).isEmpty) = true
      · rw [if_pos hq, if_neg (hquiet.mp hq)]
      · rw [if_neg hq, if_pos (not_not.mp fun hn => hq (hquiet.mpr hn))]

/-- The report and the reply agree on what is a failure. -/
theorem isFailure_entry (h : r.outcome.Possible) : r.entry.isFailure = true ↔ r.Failed := by
  rw [Warning.isFailure, bne_iff_ne]
  show r.exitCode? ≠ some 0 ↔ _
  cases ho : r.outcome with
  | ok output =>
      rw [failed_iff_of_ok ho, exitCode?, ho]
      exact not_congr Option.some_inj
  | error e =>
      refine iff_of_true ?_ (failed_of_error ho)
      rw [exitCode?, ho]
      cases e with
      | badExit command code =>
          -- the one place where it matters what is possible
          rintro hcode
          obtain rfl := Option.some.inj hcode
          exact h command ho
      | unknownProgram name => exact nofun
      | notStarted command cause => exact nofun
      | notCaptured command cause => exact nofun

end Reply

/-! ## The report -/

/-- A report that says of these replies what there is to say: how many they are, a warning of each
    that failed or left a complaint, a failure of each that failed, and success if none did. -/
structure Report.Accounts (report : Report) (replies : List Reply) : Prop where
  calls : report.calls = replies.length
  warnings : report.warnings =
    (replies.filter fun r => r.Failed ∨ r.Complains).map Reply.entry
  failures : report.failures = (replies.filter fun r => r.Failed).map Reply.entry
  succeeded : report.succeeded = true ↔ ∀ r ∈ replies, ∃ text, r.successText? = some text

/-- The replies of a session. -/
def Session.replies (s : Session) : List Reply := s.exchanges.map Exchange.reply

/-- The warnings of replies are the entries of those that failed or complain. -/
theorem Reply.filterMap_warning? (replies : List Reply) :
    replies.filterMap Reply.warning? =
      (replies.filter fun r => r.Failed ∨ r.Complains).map Reply.entry := by
  rw [← List.filterMap_eq_map, List.filterMap_filter]
  refine List.filterMap_congr fun r _ => ?_
  rw [Reply.warning?_eq]
  simp only [decide_eq_true_eq]
  rfl

/-- The failures among the warnings are those of the calls that failed. -/
theorem Reply.filter_isFailure {replies : List Reply} (h : ∀ r ∈ replies, r.outcome.Possible) :
    ((replies.filter fun r => r.Failed ∨ r.Complains).map Reply.entry).filter Warning.isFailure
      = (replies.filter fun r => r.Failed).map Reply.entry := by
  rw [List.filter_map, List.filter_filter]
  congr 1
  refine List.filter_congr fun r hr => ?_
  have hiff := Reply.isFailure_entry (h r hr)
  by_cases hf : r.Failed
  · simp [hiff, hf]
  · simp [hiff, hf]

/-- **THE REPORT ACCOUNTS** for the replies of its session. -/
theorem Session.report_accounts {session : Session}
    (h : ∀ r ∈ session.replies, r.outcome.Possible) : session.report.Accounts session.replies := by
  have hwarnings : session.report.warnings =
      (session.replies.filter fun r => r.Failed ∨ r.Complains).map Reply.entry := by
    rw [← Reply.filterMap_warning?, Session.replies, List.filterMap_map]
    rfl
  have hfailures : session.report.failures =
      (session.replies.filter fun r => r.Failed).map Reply.entry := by
    rw [Report.failures, hwarnings, Reply.filter_isFailure h]
  refine ⟨(List.length_map _).symm, hwarnings, hfailures, ?_⟩
  rw [Report.succeeded, hfailures, List.isEmpty_iff, List.map_eq_nil_iff, List.filter_eq_nil_iff]
  refine forall₂_congr fun r _ => ?_
  rw [decide_eq_true_eq, Reply.not_failed_iff]

/-- The replies in the transcript are those of the session. -/
theorem Run.replies_transcript (b : Backend σ) (plan : Plan) (s : σ) :
    (Run.transcript b plan s).map Prod.snd = (Session.run b plan s).1.replies := by
  rw [Run.transcript_eq, List.map_map]
  rfl

/-- How many calls a run makes: two for each rule, and two or three besides. -/
theorem Session.length_exchanges (b : Backend σ) (plan : Plan) (s : σ) :
    ((∃ name, (b.statusReply s).Names Head.branch? name) →
      (Session.run b plan s).1.exchanges.length = 2 * plan.length + 2) ∧
    ((¬ ∃ name, (b.statusReply s).Names Head.branch? name) →
      (Session.run b plan s).1.exchanges.length = 2 * plan.length + 3) := by
  obtain ⟨queries, hstart, hqueries⟩ := Opening.startsAt_run b s
  have hrules : (plan.flatMap Rule.calls).length = 2 * plan.length := by
    rw [List.length_flatMap]
    simp [Rule.calls, Nat.mul_comm]
  have hlength : (Session.run b plan s).1.exchanges.length
      = queries.length + 2 * plan.length + 2 := by
    rw [← List.length_map Exchange.call, ← Session.calls, Session.calls_run, hqueries]
    simp only [List.length_append, List.length_cons, List.length_nil, hrules]
    omega
  rcases hstart.queries_eq with ⟨rfl, hbranch⟩ | ⟨rfl, hnone⟩
  · refine ⟨fun _ => ?_, fun hno => absurd hbranch hno⟩
    rw [hlength, List.length_nil, Nat.zero_add]
  · refine ⟨fun hyes => absurd hyes hnone, fun _ => ?_⟩
    rw [hlength, List.length_singleton]
    omega

/-- **THE REPORT OF A CONFIRMED RUN** accounts for the replies that the backend gave, call by call;
    and these are two for each rule of the plan, with two or three besides. -/
theorem Run.report_accounts_for_calls (b : Backend σ) (plan : Plan) (s : σ)
    (h : ∀ made ∈ Run.transcript b plan s, made.2.outcome.Possible) :
    let report := (Run.execute b true plan s).1.report
    report.Accounts ((Run.transcript b plan s).map Prod.snd) ∧
    ((∃ name, (b.statusReply s).Names Head.branch? name) → report.calls = 2 * plan.length + 2) ∧
    ((¬ ∃ name, (b.statusReply s).Names Head.branch? name) →
      report.calls = 2 * plan.length + 3) := by
  have hpossible : ∀ r ∈ (Session.run b plan s).1.replies, r.outcome.Possible := by
    rw [← Run.replies_transcript]
    intro r hr
    obtain ⟨made, hmade, rfl⟩ := List.mem_map.mp hr
    exact h made hmade
  refine ⟨?_, Session.length_exchanges b plan s⟩
  rw [Run.replies_transcript]
  exact Session.report_accounts hpossible

/-- A run with every kind of trouble: a complaint of blanks alone, an exit that counts as an error,
    a complaint without a failure, and a call that does not run. -/
theorem Run.report_accounts_for_trouble :
    let plan : Plan := [⟨"topic", "main"⟩]
    let script : List Outcome := [.ok { stdout := "## main", stderr := " \n" },
      .error (.badExit "git checkout topic" 128), .ok { stderr := "hint: done" },
      .error (.notStarted "git checkout main" .missing)]
    let report := (Run.execute Backend.scripted true plan script).1.report
    (∀ made ∈ Run.transcript Backend.scripted plan script, made.2.outcome.Possible) ∧
      report.Accounts ((Run.transcript Backend.scripted plan script).map Prod.snd) ∧
      report.calls = 4 := by
  intro plan script report
  have hpossible : ∀ made ∈ Run.transcript Backend.scripted plan script,
      made.2.outcome.Possible := by decide
  obtain ⟨haccounts, hbranch, -⟩ :=
    Run.report_accounts_for_calls Backend.scripted plan script hpossible
  exact ⟨hpossible, haccounts, hbranch ⟨"main", _, rfl, rfl, rfl⟩⟩

end RebasePlan
