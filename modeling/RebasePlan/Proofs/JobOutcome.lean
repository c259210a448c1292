import RebasePlan.Program
import RebasePlan.Proofs.GitProcesses
import RebasePlan.Proofs.ReportAccounts
import RebasePlan.Proofs.Utf8Reading

/-! # What a job comes to

    A job looks at three things before it starts a program, and each of them can
    stop it: the plan file, the confirmation, and what a run needs.  `PlanFault`,
    `HoldsPlan` and `Job.Lacks` say of a computer what there is to find, without
    the job; `Job.run_comes_to` says what the job makes of it.  Behind the three
    nothing stops it any more: the whole run is made, and the result is read off
    the replies (`Job.CarriesOut`). -/

namespace RebasePlan

variable {σ : Type} {c : Computer}

/-! ## The plan file -/

/-- What is wrong with the file at a path, as the error that tells it. -/
inductive PlanFault (c : Computer) (p : Path) : InputError → Prop where
  | absent : c.disk.read c.directory p = .error .missing → PlanFault c p (.planMissing p.text)
  | unreadable {e : IoError} : c.disk.read c.directory p = .error e → e ≠ .missing →
      PlanFault c p (.planUnreadable p.text e)
  /-- The bytes of the file are those of no text. -/
  | notText {bytes : List UInt8} : c.disk.read c.directory p = .ok bytes →
      (∀ content, bytes ≠ Text.encode content) → PlanFault c p (.planUnreadable p.text .notUtf8)
  /-- The text is none that the reader of plans takes. -/
  | rejected {content : String} {e : InputError} :
      c.disk.read c.directory p = .ok (Text.encode content) →
      (Plan.read content).plan = .error e → PlanFault c p e

/-- The file at a path is the text of a plan. -/
def HoldsPlan (c : Computer) (p : Path) (plan : Plan) : Prop :=
  ∃ content, c.disk.read c.directory p = .ok (Text.encode content) ∧
    (Plan.read content).plan = .ok plan

/-- A file that cannot be read is missing or unreadable, and the error names its path. -/
theorem Plan.content_of_error {p : Path} {e : IoError} (h : c.disk.read c.directory p = .error e) :
    Plan.content c.disk c.directory p =
      .error (if e = .missing then .planMissing p.text else .planUnreadable p.text e) := by
  rw [Plan.content, h]

theorem Plan.content_of_text {p : Path} {content : String}
    (h : c.disk.read c.directory p = .ok (Text.encode content)) :
    Plan.content c.disk c.directory p = .ok content := by
  have hstrict : Text.strict (Text.encode content) = some content :=
    Text.strict_eq_some_iff.mpr rfl
  simp only [Plan.content, h, hstrict]

/-- A file whose bytes are no text is unreadable. -/
theorem Plan.content_of_noText {p : Path} {bytes : List UInt8}
    (h : c.disk.read c.directory p = .ok bytes) (hno : ∀ content, bytes ≠ Text.encode content) :
    Plan.content c.disk c.directory p = .error (.planUnreadable p.text .notUtf8) := by
  have hstrict : Text.strict bytes = none :=
    Option.eq_none_iff_forall_ne_some.mpr fun content hs =>
      hno content (Text.strict_eq_some_iff.mp hs)
  simp only [Plan.content, h, hstrict]

theorem Plan.load_of_content_error {p : Path} {e : InputError}
    (h : Plan.content c.disk c.directory p = .error e) :
    (Plan.load c.disk c.directory p).1 = .error e := by
  rw [Plan.load, h]

theorem Plan.load_of_content {p : Path} {content : String}
    (h : Plan.content c.disk c.directory p = .ok content) :
    (Plan.load c.disk c.directory p).1 = (Plan.read content).plan := by
  simp only [Plan.load, h]
  cases (Plan.read content).plan with
  | error e => rfl
  | ok plan => rfl

theorem PlanFault.load {p : Path} {e : InputError} (h : PlanFault c p e) :
    (Plan.load c.disk c.directory p).1 = .error e := by
  cases h with
  | absent hread =>
      refine Plan.load_of_content_error ?_
      rw [Plan.content_of_error hread, if_pos rfl]
  | unreadable hread hne =>
      refine Plan.load_of_content_error ?_
      rw [Plan.content_of_error hread, if_neg hne]
  | notText hread hno => exact Plan.load_of_content_error (Plan.content_of_noText hread hno)
  | rejected hread hplan => rw [Plan.load_of_content (Plan.content_of_text hread), hplan]

theorem HoldsPlan.load {p : Path} {plan : Plan} (h : HoldsPlan c p plan) :
    (Plan.load c.disk c.directory p).1 = .ok plan := by
  obtain ⟨content, hread, hplan⟩ := h
  rw [Plan.load_of_content (Plan.content_of_text hread), hplan]

/-- Whatever lies on the disk, a path leads to a plan or to a fault. -/
theorem planFault_or_holdsPlan (c : Computer) (p : Path) :
    (∃ e, PlanFault c p e) ∨ ∃ plan, HoldsPlan c p plan := by
  cases hread : c.disk.read c.directory p with
  | error e =>
      by_cases he : e = .missing
      · exact Or.inl ⟨_, .absent (he ▸ hread)⟩
      · exact Or.inl ⟨_, .unreadable hread he⟩
  | ok bytes =>
      by_cases htext : ∃ content, bytes = Text.encode content
      · obtain ⟨content, rfl⟩ := htext
        cases hplan : (Plan.read content).plan with
        | error e => exact Or.inl ⟨e, .rejected hread hplan⟩
        | ok plan => exact Or.inr ⟨plan, content, hread, hplan⟩
      · exact Or.inl ⟨_, .notText hread fun content hb => htext ⟨content, hb⟩⟩

/-! ## The run -/

/-- What running a command can come to. -/
theorem Command.run_possible (command : Command) (programs : Programs σ) (state : Capture × σ) :
    (command.run c programs state).1.1.Possible := by
  intro line hbad
  cases hstart : c.start command with
  | error e => simp [run, hstart] at hbad
  | ok launch =>
      -- an exit that counts as an error is one with another code
      simp only [run, hstart, outcomeOf] at hbad
      split at hbad
      · next hfailed =>
        obtain ⟨-, hcode⟩ := LaunchError.badExit.inj (Except.error.inj hbad)
        simp [hcode] at hfailed
      · simp at hbad

/-- Every reply in a session with the version-control program is a possible one. -/
theorem Git.possible_of_mem_exchanges (programs : Programs σ) (program : Path)
    (repository : Option Path) (plan : Plan) (state : Capture × σ) :
    ∀ r ∈ (Session.run (Git.backend c programs program repository) plan state).1.replies,
      r.outcome.Possible := by
  intro r hr
  obtain ⟨e, he, rfl⟩ := List.mem_map.mp hr
  refine @Session.forall_exchange _ _ (fun e => e.reply.outcome.Possible) ?_ plan state e he
  intro call state
  exact Command.run_possible (command program repository call) programs state

namespace Job

/-- The result that a run with these exchanges should have: success if every call ran and ended with
    code 0, and otherwise an error that counts those that did not. -/
structure ComesTo (exchanges : List Exchange) (result : Except JobError Unit) : Prop where
  succeeds : result = .ok () ↔
    ∀ e ∈ exchanges, ∃ output, e.reply.outcome = .ok output ∧ output.exitCode = 0
  fails : result ≠ .ok () → ∃ k n error, result = .error error ∧
    error.message = s!"{k} of {n} git invocations failed" ∧ n = exchanges.length ∧
    k = (exchanges.filter fun e => e.reply.Failed).length ∧ 1 ≤ k ∧ k ≤ n

/-- The summary of a session is the result that its exchanges should have, if its replies are
    possible ones. -/
theorem comesTo_summary {session : Session}
    (h : ∀ r ∈ session.replies, r.outcome.Possible) :
    ComesTo session.exchanges (summary session.report).result := by
  obtain ⟨hcalls, -, hfailures, hsucceeded⟩ := Session.report_accounts h
  have hall : session.report.succeeded = true ↔
      ∀ e ∈ session.exchanges, ∃ output, e.reply.outcome = .ok output ∧ output.exitCode = 0 := by
    rw [hsucceeded, Session.replies, List.forall_mem_map]
    refine forall₂_congr fun e _ => ?_
    simp only [Reply.successText?_eq_some_iff]
    constructor
    · rintro ⟨text, output, ho, hcode, -⟩
      exact ⟨output, ho, hcode⟩
    · rintro ⟨output, ho, hcode⟩
      exact ⟨output.stdout, output, ho, hcode, rfl⟩
  have hlength : session.report.failures.length
      = (session.exchanges.filter fun e => e.reply.Failed).length := by
    rw [hfailures, List.length_map, Session.replies, List.filter_map, List.length_map]
    rfl
  rw [summary]
  split
  · next hs =>
    exact ⟨iff_of_true rfl (hall.mp hs), fun hne => absurd rfl hne⟩
  · next hs =>
    have hpos : session.report.failures ≠ [] := fun hnil => hs (List.isEmpty_iff.mpr hnil)
    refine ⟨iff_of_false (by simp) fun hok => hs (hall.mpr hok), fun _ => ?_⟩
    refine ⟨_, _, _, rfl, rfl, ?_, hlength, List.length_pos_iff.mpr hpos, ?_⟩
    · rw [hcalls, Session.replies, List.length_map]
    · rw [hlength, hcalls, Session.replies, List.length_map]
      exact List.length_filter_le _ _

/-! ## The job -/

/-- What a confirmed job has not got for its run, as the failure that tells it. -/
inductive Lacks (j : Job) (c : Computer) : Failure → Prop where
  /-- No program is given, and the search path leads to none. -/
  | program : j.settings.program = none → c.find? (Path.ofString Git.programName) = none →
      Lacks j c (.launch (.unknownProgram Git.programName))
  /-- The file for error outputs cannot be made. -/
  | capture {program : Path} {e : IoError} :
      Git.locate c (j.settings.program.map Path.ofString) = .ok program →
      Capture.create c = .error e → Lacks j c (.io e)

/-- The processes that a job starts, in their order. -/
def launches (j : Job) (c : Computer) (programs : Programs σ) (s : σ) : List Launch :=
  (j.run c programs.recorded (s, [])).2.2

/-- The run that a job makes with a program and a capture file. -/
def runWith (j : Job) (c : Computer) (programs : Programs σ) (plan : Plan) (program : Path)
    (start : Capture × σ) : Run × (Capture × σ) :=
  Run.execute (Git.backend c programs program (j.settings.repository.map Path.ofString)) true plan
    start

variable {j : Job} {plan : Plan}

theorem run_eq (j : Job) (c : Computer) (programs : Programs σ) (s : σ) :
    j.run c programs s =
      let told := j.settings.lines.map Event.optionShown ++
        (Plan.load c.disk c.directory j.plan).2
      match (Plan.load c.disk c.directory j.plan).1 with
      | .error e => (⟨.error (.input e), told⟩, s)
      | .ok plan =>
        if j.confirmed then
          let ended := j.apply c programs plan s
          (⟨ended.1.result, told ++ ended.1.events⟩, ended.2)
        else (⟨.ok (), told ++ (Run.dry plan).events⟩, s) := rfl

/-- Without a plan a job does nothing. -/
theorem run_of_load_error (programs : Programs σ) (s : σ) {e : InputError}
    (h : (Plan.load c.disk c.directory j.plan).1 = .error e) :
    (j.run c programs s).1.result = .error (.input e) ∧ (j.run c programs s).2 = s := by
  rw [run_eq, h]
  exact ⟨rfl, rfl⟩

/-- Unconfirmed, a job ends well and does nothing. -/
theorem run_of_unconfirmed (programs : Programs σ) (s : σ)
    (h : (Plan.load c.disk c.directory j.plan).1 = .ok plan) (hj : j.confirmed = false) :
    (j.run c programs s).1.result = .ok () ∧ (j.run c programs s).2 = s := by
  rw [run_eq, h, hj]
  exact ⟨rfl, rfl⟩

/-- Confirmed, a job comes to what applying its plan comes to, and tells it last. -/
theorem run_of_confirmed (programs : Programs σ) (s : σ)
    (h : (Plan.load c.disk c.directory j.plan).1 = .ok plan) (hj : j.confirmed = true) :
    (j.run c programs s).1.result = (j.apply c programs plan s).1.result ∧
      (j.apply c programs plan s).1.events <:+ (j.run c programs s).1.events ∧
      (j.run c programs s).2 = (j.apply c programs plan s).2 := by
  rw [run_eq, h, hj]
  exact ⟨rfl, List.suffix_append _ _, rfl⟩

/-- If something is missing, a job says so and does nothing. -/
theorem apply_of_lacks (programs : Programs σ) (s : σ) {f : Failure} (h : j.Lacks c f) :
    (j.apply c programs plan s).1.result = .error (.failure f) ∧
      (j.apply c programs plan s).2 = s := by
  cases h with
  | program hnone hfind =>
      have hlocate : Git.locate c (j.settings.program.map Path.ofString)
          = .error (.launch (.unknownProgram Git.programName)) := by
        rw [hnone, Option.map_none]
        simp only [Git.locate, Computer.which, hfind]
      rw [apply, hlocate]
      exact ⟨rfl, rfl⟩
  | capture hlocate hcreate =>
      rw [apply, hlocate, hcreate]
      exact ⟨rfl, rfl⟩

/-- A job that lacks nothing has a program and a capture file. -/
theorem exists_of_not_lacks (h : ¬ ∃ f, j.Lacks c f) :
    ∃ program capture, Git.locate c (j.settings.program.map Path.ofString) = .ok program ∧
      Capture.create c = .ok capture := by
  have hlocate : ∃ program, Git.locate c (j.settings.program.map Path.ofString) = .ok program := by
    cases hgiven : j.settings.program with
    | some given => exact ⟨Path.ofString given, rfl⟩
    | none =>
        cases hfind : c.find? (Path.ofString Git.programName) with
        | none => exact absurd ⟨_, .program hgiven hfind⟩ h
        | some program =>
            refine ⟨program, ?_⟩
            simp only [Option.map_none, Git.locate, Computer.which, hfind]
  obtain ⟨program, hprogram⟩ := hlocate
  cases hcreate : Capture.create c with
  | error e => exact absurd ⟨_, .capture hprogram hcreate⟩ h
  | ok capture => exact ⟨program, capture, hprogram, rfl⟩

/-- With a program and a capture file, applying a plan is the run on it and the summary of its
    report. -/
theorem apply_of_ready (programs : Programs σ) (s : σ) (plan : Plan) {program : Path}
    {capture : Capture}
    (hlocate : Git.locate c (j.settings.program.map Path.ofString) = .ok program)
    (hcreate : Capture.create c = .ok capture) :
    let ran := j.runWith c programs plan program (capture, s)
    (j.apply c programs plan s).1.result = (summary ran.1.report).result ∧
      ran.1.events <:+: (j.apply c programs plan s).1.events ∧
      (j.apply c programs plan s).2 = ran.2.2 := by
  intro ran
  rw [apply, hlocate, hcreate]
  exact ⟨rfl, ⟨[.ready program.text j.settings.repository],
    (summary ran.1.report).events, rfl⟩, rfl⟩

/-- The job makes the whole run of a plan, and nothing else: it starts the processes of the run and
    tells what the run tells.  Its result is what the exchanges of the run come to, of which there
    are two for each rule and two or three besides. -/
structure CarriesOut (j : Job) (c : Computer) (programs : Programs σ) (s : σ) (plan : Plan)
    (program : Path) (capture : Capture) : Prop where
  located : Git.locate c (j.settings.program.map Path.ofString) = .ok program
  created : Capture.create c = .ok capture
  launches : j.launches c programs s =
    (j.runWith c programs.recorded plan program (capture, (s, []))).2.2.2
  events : (j.runWith c programs plan program (capture, s)).1.events <:+:
    (j.run c programs s).1.events
  calls : ∃ queries target,
    StartsAt (Git.backend c programs program (j.settings.repository.map Path.ofString))
      (capture, s) queries target ∧
    (j.runWith c programs plan program (capture, s)).1.exchanges.map Exchange.call =
      .status :: queries ++ plan.flatMap Rule.calls ++ [.checkout target]
  count : (j.runWith c programs plan program (capture, s)).1.exchanges.length
      = 2 * plan.length + 2 ∨
    (j.runWith c programs plan program (capture, s)).1.exchanges.length = 2 * plan.length + 3
  result : ComesTo (j.runWith c programs plan program (capture, s)).1.exchanges
    (j.run c programs s).1.result

/-- A confirmed job that has all it needs carries out its plan. -/
theorem carriesOut_of_ready (programs : Programs σ) (s : σ)
    (hload : (Plan.load c.disk c.directory j.plan).1 = .ok plan)
    (hj : j.confirmed = true) {program : Path} {capture : Capture}
    (hlocate : Git.locate c (j.settings.program.map Path.ofString) = .ok program)
    (hcreate : Capture.create c = .ok capture) :
    j.CarriesOut c programs s plan program capture := by
  obtain ⟨hresult, htold, -⟩ := run_of_confirmed programs s hload hj
  obtain ⟨hsummary, hevents, -⟩ := apply_of_ready programs s plan hlocate hcreate
  refine ⟨hlocate, hcreate, ?_, hevents.trans htold.isInfix, ?_, ?_, ?_⟩
  · obtain ⟨-, -, hstate⟩ := run_of_confirmed programs.recorded (s, []) hload hj
    obtain ⟨-, -, hran⟩ := apply_of_ready programs.recorded (s, []) plan hlocate hcreate
    exact congrArg Prod.snd (hstate.trans hran)
  · exact Run.calls_execute _ plan _
  · obtain ⟨hbranch, hnone⟩ := Session.length_exchanges
      (Git.backend c programs program (j.settings.repository.map Path.ofString)) plan (capture, s)
    by_cases h : ∃ name, ((Git.backend c programs program
        (j.settings.repository.map Path.ofString)).statusReply (capture, s)).Names Head.branch? name
    · exact Or.inl (hbranch h)
    · exact Or.inr (hnone h)
  · -- the report counts the exchanges of this very run
    rw [hresult, hsummary]
    exact comesTo_summary (Git.possible_of_mem_exchanges programs program _ plan (capture, s))

end Job

/-! ## The exit code -/

/-- The program ends well just if it was given a plan file and the job on it ends well. -/
theorem Program.dispatch_eq_ok_iff (o : Options) (settings : Settings) (c : Computer)
    (programs : Programs σ) (s : σ) :
    (dispatch o settings c programs s).1.1 = .ok () ↔
      ∃ j, job? o settings = some j ∧ (j.run c programs s).1.result = .ok () := by
  rw [dispatch]
  cases job? o settings with
  | none => exact iff_of_false nofun fun ⟨_, hj, _⟩ => nomatch hj
  | some j =>
      have hjob : (∃ j', some j = some j' ∧ (j'.run c programs s).1.result = .ok ()) ↔
          (j.run c programs s).1.result = .ok () := by
        simp
      rw [hjob]
      show (j.run c programs s).1.result.mapError JobError.chain = .ok () ↔ _
      cases (j.run c programs s).1.result with
      | ok done => exact iff_of_true rfl rfl
      | error e => exact iff_of_false nofun nofun

/-- The exit code is 0 just if the result is a success. -/
theorem Program.code_work_eq_zero_iff (o : Options) (settings : Settings) (listing : List String)
    (c : Computer) (programs : Programs σ) (s : σ) :
    (work o settings listing c programs s).1.code = 0 ↔
      (dispatch o settings c programs s).1.1 = .ok () := by
  rw [work]
  rcases dispatch o settings c programs s with ⟨⟨result, events⟩, s⟩
  cases result with
  | ok done => exact iff_of_true rfl rfl
  | error chain => exact iff_of_false nofun nofun

/-- **WHAT A JOB COMES TO**: a fault in the plan file stops it first, then a missing confirmation,
    then what its run lacks, each with its own result and before any process is started.  A job
    that nothing stops makes its whole run.  The program ends with code 0 just if its job
    succeeded. -/
theorem Job.run_comes_to (j : Job) (c : Computer) (programs : Programs σ) (s : σ) :
    let result := (j.run c programs s).1.result
    let launches := j.launches c programs s
    (∀ e, PlanFault c j.plan e → result = .error (.input e) ∧ launches = []) ∧
    (∀ plan, HoldsPlan c j.plan plan →
      (j.confirmed = false → result = .ok () ∧ launches = []) ∧
      (j.confirmed = true →
        (∀ f, j.Lacks c f → result = .error (.failure f) ∧ launches = []) ∧
        ((¬ ∃ f, j.Lacks c f) →
          ∃ program capture, j.CarriesOut c programs s plan program capture))) ∧
    ((∃ e, PlanFault c j.plan e) ∨ ∃ plan, HoldsPlan c j.plan plan) ∧
    ∀ o settings listing, (Program.work o settings listing c programs s).1.code = 0 ↔
      ∃ j, Program.job? o settings = some j ∧ (j.run c programs s).1.result = .ok () := by
  intro result launches
  refine ⟨?_, ?_, planFault_or_holdsPlan c j.plan, ?_⟩
  · intro e he
    exact ⟨(run_of_load_error programs s he.load).1,
      congrArg Prod.snd (run_of_load_error programs.recorded (s, []) he.load).2⟩
  · intro plan hplan
    refine ⟨fun hj => ?_, fun hj => ⟨fun f hf => ?_, fun hready => ?_⟩⟩
    · exact ⟨(run_of_unconfirmed programs s hplan.load hj).1,
        congrArg Prod.snd (run_of_unconfirmed programs.recorded (s, []) hplan.load hj).2⟩
    · obtain ⟨hresult, -, -⟩ := run_of_confirmed programs s hplan.load hj
      obtain ⟨-, -, hstate⟩ := run_of_confirmed programs.recorded (s, []) hplan.load hj
      refine ⟨hresult.trans (apply_of_lacks programs s hf).1, ?_⟩
      exact congrArg Prod.snd (hstate.trans (apply_of_lacks programs.recorded (s, []) hf).2)
    · obtain ⟨program, capture, hlocate, hcreate⟩ := exists_of_not_lacks hready
      exact ⟨program, capture, carriesOut_of_ready programs s hplan.load hj hlocate hcreate⟩
  · intro o settings listing
    rw [Program.code_work_eq_zero_iff, Program.dispatch_eq_ok_iff]

/-- A job that nothing stops, with a checkout that fails: one call of four. -/
theorem Job.run_comes_to_failed_call :
    let c : Computer := ⟨Disk.ofList [([], .directory), ([Text.encode "tmp"], .directory),
      ([Text.encode "git"], .file [] .program),
      ([Text.encode "rules"], .file (Text.encode "topic -> main") .data)], [], []⟩
    let j : Job := ⟨{ program := some "/git" }, Path.ofString "rules", true⟩
    let script : List Performance := [⟨.exited 0, Text.encode "## main", []⟩, ⟨.exited 1, [], []⟩]
    HoldsPlan c j.plan [⟨"topic", "main"⟩] ∧ (¬ ∃ f, j.Lacks c f) ∧
      (∃ program capture,
        j.CarriesOut c Programs.scripted script [⟨"topic", "main"⟩] program capture) ∧
      (j.run c Programs.scripted script).1.result = .error (.callsFailed 1 4) := by
  intro c j script
  have hplan : HoldsPlan c j.plan [⟨"topic", "main"⟩] := ⟨"topic -> main", rfl, by decide⟩
  have hready : ¬ ∃ f, j.Lacks c f := by
    rintro ⟨f, hf⟩
    cases hf with
    | program hnone _ => exact nomatch hnone
    | capture _ hcreate => exact nomatch hcreate
  obtain ⟨-, hjob, -⟩ := Job.run_comes_to j c Programs.scripted script
  exact ⟨hplan, hready, ((hjob _ hplan).2 rfl).2 hready, by decide +kernel⟩

end RebasePlan
