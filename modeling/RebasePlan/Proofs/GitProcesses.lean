import RebasePlan.Executor
import RebasePlan.Proofs.CommandRun
import RebasePlan.Proofs.Replay

/-! # The calls of a run as processes

    The version-control program answers a call by a process of its own.
    `Git.Serves` says how a list of exchanges is made of such processes: each call
    is one process with the arguments of that call, in the state that the last
    one left, and the reply is what the process leaves behind.  Two kinds of call
    never become a process, those whose reference holds a NUL and those whose
    reference is longer than the system takes; nothing happens then.

    A confirmed run is served this way (`Git.run_served`), so the processes that
    are started are its calls less those of the two kinds, in the same order. -/

namespace RebasePlan

variable {σ : Type}

/-- A path that leads anywhere holds no NUL. -/
theorem Disk.holdsNul_of_locate {d : Disk} {directory place : Place} {p : Path}
    (h : d.locate directory p = .ok place) : p.holdsNul = false := by
  cases hnul : p.holdsNul with
  | false => rfl
  | true =>
      rw [locate, checkPath, hnul] at h
      exact nomatch h

namespace Call

/-- What a call asks to be checked out, or to be rebased onto. -/
def reference? : Call → Option String
  | checkout reference => some reference
  | rebase base => some base
  | _ => none

/-- The call's reference holds a NUL. -/
def HoldsNul (c : Call) : Prop := ∃ r ∈ c.reference?, '\x00' ∈ r.toList

/-- The call's reference has more bytes than the system takes for one argument. -/
def TooLong (c : Call) : Prop := ∃ r ∈ c.reference?, Computer.maxArgument < r.utf8ByteSize

/-- The system takes the call's reference as an argument. -/
def Startable (c : Call) : Prop := ¬ c.HoldsNul ∧ ¬ c.TooLong

instance (c : Call) : Decidable c.HoldsNul := inferInstanceAs (Decidable (∃ r ∈ c.reference?, _))

instance (c : Call) : Decidable c.TooLong := inferInstanceAs (Decidable (∃ r ∈ c.reference?, _))

instance (c : Call) : Decidable c.Startable := inferInstanceAs (Decidable (_ ∧ _))

/-- Why the system does not start a call. -/
def refusal? (c : Call) : Option IoError :=
  if c.HoldsNul then some .nulInCommand
  else if c.TooLong then some .argumentsTooLong
  else none

theorem startable_iff {c : Call} : c.Startable ↔ c.refusal? = none := by
  rw [Startable, refusal?]
  split
  · next hnul => exact iff_of_false (fun h => h.1 hnul) nofun
  · next hnul =>
    split
    · next hlong => exact iff_of_false (fun h => h.2 hlong) nofun
    · next hlong => exact iff_of_true ⟨hnul, hlong⟩ rfl

/-- Nothing but the reference of a call can be wrong with its arguments. -/
theorem exists_argument_iff {P : String → Prop}
    (hwords : ∀ word ∈ ["status", "-sb", "show", "--pretty=oneline", "HEAD", "checkout", "rebase"],
      ¬ P word) (c : Call) : (∃ a ∈ c.arguments, P a) ↔ ∃ r ∈ c.reference?, P r := by
  simp only [List.forall_mem_cons] at hwords
  obtain ⟨hstatus, hshort, hshow, hline, hhead, hcheckout, hrebase, -⟩ := hwords
  cases c <;> simp [arguments, reference?, *]

theorem exists_nul_iff (c : Call) :
    (∃ a ∈ c.arguments, Command.nulIn a = true) ↔ c.HoldsNul := by
  rw [exists_argument_iff (by decide)]
  simp only [HoldsNul, Command.nulIn, List.contains_iff_mem]

theorem exists_tooLong_iff (c : Call) :
    (∃ a ∈ c.arguments, Computer.maxArgument < a.utf8ByteSize) ↔ c.TooLong :=
  exists_argument_iff (by decide) c

end Call

/-- The process for a call: the program with the arguments that the call is made with. The reference
    is one of them, whatever it holds. -/
def Launch.forCall (launch : Launch) : Call → Launch
  | .status => { launch with arguments := ["status", "-sb"] }
  | .showHead => { launch with arguments := ["show", "--pretty=oneline", "HEAD"] }
  | .checkout reference => { launch with arguments := ["checkout", reference] }
  | .rebase base => { launch with arguments := ["rebase", base] }

theorem Launch.forCall_eq (launch : Launch) (c : Call) :
    launch.forCall c = { launch with arguments := c.arguments } := by
  cases c <;> rfl

/-- A call is known by its process. -/
theorem Launch.forCall_injective (launch : Launch) : Function.Injective launch.forCall := by
  intro c d h
  have harguments : (launch.forCall c).arguments = (launch.forCall d).arguments :=
    congrArg Launch.arguments h
  cases c <;> cases d <;> simp_all [forCall]

namespace Git

/-- The program can be executed where it is to run: without arguments it becomes this process. -/
def CanStart (computer : Computer) (program : Path) (repository : Option Path)
    (launch : Launch) : Prop :=
  computer.start { program, directory := repository, assignments := plainSpeech } = .ok launch

/-- So it is with an executable file that is named by its path, in a repository that exists. -/
theorem canStart_of_executable {computer : Computer} {program : Path} {repository : Option Path}
    {place directory : Place} {content : List UInt8}
    (hin : ∀ p, repository = some p → computer.disk.locate computer.directory p = .ok directory ∧
      computer.disk.lookup directory = some .directory)
    (hhere : repository = none → directory = computer.directory)
    (hslash : program.bytes.contains Path.slash = true)
    (hlocate : computer.disk.locate directory program = .ok place)
    (hfile : computer.disk.lookup place = some (.file content .program))
    (hfit : Computer.fits [] (computer.environment.extend plainSpeech) = true) :
    CanStart computer program repository
      ⟨place, [], directory, computer.environment.extend plainSpeech⟩ := by
  have hnul : Command.holdsNul { program, directory := repository, assignments := plainSpeech }
      = false := by
    have hrepository : repository.any Path.holdsNul = false := by
      cases repository with
      | none => rfl
      | some p => exact Disk.holdsNul_of_locate (hin p rfl).1
    simp only [Command.holdsNul, Disk.holdsNul_of_locate hlocate, hrepository]
    decide
  have hdirectory : computer.directoryFor
      { program, directory := repository, assignments := plainSpeech } = .ok directory := by
    cases repository with
    | none => rw [hhere rfl]; rfl
    | some p => exact Computer.enter_eq_ok_iff.mpr (hin p rfl)
  have hprogram : computer.programFor program directory (computer.environment.extend plainSpeech)
      true = .ok place := by
    have hne : ¬ program.bytes.isEmpty = true := by
      intro hempty
      rw [List.isEmpty_iff.mp hempty] at hslash
      exact absurd hslash (by decide)
    rw [Computer.programFor, if_neg hne, if_pos hslash, Computer.execute_of_located hlocate, hfile]
    rfl
  rw [CanStart, Computer.start_of_not_holdsNul hnul, hdirectory]
  simp only [Except.bind]
  rw [hfit, hprogram]

/-- Exchanges that come from processes, and the processes in their order: what the programs do
    leads from one state to the other. -/
inductive Serves (programs : Programs σ) (launch : Launch) :
    σ → List Exchange → List Launch → σ → Prop where
  | done {s : σ} : Serves programs launch s [] [] s
  /-- The call is not started, and the reply says why. -/
  | refused {s s' : σ} {e : Exchange} {rest : List Exchange} {launches : List Launch}
      {cause : IoError} :
      e.call.refusal? = some cause →
      e.reply.outcome = .error (.notStarted e.reply.command cause) →
      Serves programs launch s rest launches s' →
      Serves programs launch s (e :: rest) launches s'
  /-- The call is one process, and the reply is the output of that process. -/
  | started {s s' : σ} {e : Exchange} {rest : List Exchange} {launches : List Launch} :
      e.call.refusal? = none →
      e.reply.outcome = .ok (programs.perform (launch.forCall e.call) s).1.output →
      Serves programs launch (programs.perform (launch.forCall e.call) s).2 rest launches s' →
      Serves programs launch s (e :: rest) (launch.forCall e.call :: launches) s'

namespace Serves

variable {programs : Programs σ} {launch : Launch} {s s' : σ} {exchanges : List Exchange}
  {launches : List Launch}

/-- The processes are those of the calls that can be started. -/
theorem launches_eq (h : Serves programs launch s exchanges launches s') :
    launches = ((exchanges.map Exchange.call).filter Call.Startable).map launch.forCall := by
  induction h with
  | done => rfl
  | refused hcall _ _ ih =>
      rw [List.map_cons, List.filter_cons_of_neg (by simp [Call.startable_iff, hcall])]
      exact ih
  | started hcall _ _ ih =>
      rw [List.map_cons, List.filter_cons_of_pos (by simp [Call.startable_iff, hcall]),
        List.map_cons, ← ih]

/-- No exit code counts as an error. -/
theorem outcome_ne_badExit (h : Serves programs launch s exchanges launches s') :
    ∀ e ∈ exchanges, ∀ command code, e.reply.outcome ≠ .error (.badExit command code) := by
  induction h with
  | done => exact nofun
  | refused _ hreply _ ih =>
      refine List.forall_mem_cons.mpr ⟨fun command code hbad => ?_, ih⟩
      exact nomatch hreply.symm.trans hbad
  | started _ hreply _ ih =>
      refine List.forall_mem_cons.mpr ⟨fun command code hbad => ?_, ih⟩
      exact nomatch hreply.symm.trans hbad

end Serves

/-! ## One call -/

variable {computer : Computer} {program : Path} {repository : Option Path} {launch : Launch}

/-- Whether a call is started is decided by its reference. -/
theorem CanStart.start_command (h : CanStart computer program repository launch) (c : Call) :
    computer.start (command program repository c) = match c.refusal? with
      | some cause => .error cause
      | none => .ok (launch.forCall c) := by
  have hstart := Computer.start_withArguments (command program repository c) c.arguments h
  simp only [Call.exists_nul_iff, Call.exists_tooLong_iff, ← Launch.forCall_eq] at hstart
  refine hstart.trans ?_
  rw [Call.refusal?]
  split
  · rfl
  · split <;> rfl

/-- One call is served by its process or by none, and a process that was started is written down. -/
theorem CanStart.serves_exchange (h : CanStart computer program repository launch)
    (programs : Programs σ) (c : Call) (capture : Capture) (s : σ) (before : List Launch) :
    let made := (backend computer programs.recorded program repository).exchange c
      (capture, (s, before))
    ∃ launches, made.2.2.2 = before ++ launches ∧
      ∀ {rest more s'}, Serves programs launch made.2.2.1 rest more s' →
        Serves programs launch s (made.1 :: rest) (launches ++ more) s' := by
  intro made
  have hstart := h.start_command c
  cases hcall : c.refusal? with
  | some cause =>
      rw [hcall] at hstart
      obtain ⟨houtcome, hstate⟩ :=
        Command.run_of_error hstart programs.recorded capture (s, before)
      have hsame : made.2.2.1 = s := congrArg Prod.fst hstate
      refine ⟨[], (congrArg Prod.snd hstate).trans (List.append_nil before).symm, ?_⟩
      intro rest more s' hrest
      rw [hsame] at hrest
      exact .refused hcall houtcome hrest
  | none =>
      rw [hcall] at hstart
      obtain ⟨houtcome, hstate⟩ :=
        Command.run_of_ok hstart rfl programs.recorded capture (s, before)
      have hnext : made.2.2.1 = (programs.perform (launch.forCall c) s).2 :=
        congrArg Prod.fst hstate
      refine ⟨[launch.forCall c], congrArg Prod.snd hstate, ?_⟩
      intro rest more s' hrest
      rw [hnext] at hrest
      exact .started hcall houtcome hrest

/-! ## All calls -/

/-- **CALLS ARE SERVED BY PROCESSES**, one after the other. -/
theorem CanStart.serves_replay (h : CanStart computer program repository launch)
    (programs : Programs σ) (calls : List Call) (capture : Capture) (s : σ)
    (before : List Launch) :
    let ran := (backend computer programs.recorded program repository).replay calls
      (capture, (s, before))
    ∃ launches, ran.2.2.2 = before ++ launches ∧
      Serves programs launch s ran.1 launches ran.2.2.1 := by
  -- on the calls, from any state and behind any processes: each call leaves both to the next
  induction calls generalizing capture s before with
  | nil => exact ⟨[], (List.append_nil before).symm, .done⟩
  | cons c calls ih =>
      obtain ⟨first, hfirst, hserves⟩ := h.serves_exchange programs c capture s before
      rw [Backend.replay_cons]
      obtain ⟨more, hmore, hrest⟩ := ih _ _ _
      refine ⟨first ++ more, ?_, hserves hrest⟩
      rw [← List.append_assoc, ← hfirst]
      exact hmore

/-- The program runs in the repository if there is one, and is told to speak plainly whatever it
    would inherit. -/
structure RunsPlainly (computer : Computer) (repository : Option Path) (launch : Launch) :
    Prop where
  speech : launch.environment.value? "LC_ALL" = some (Text.encode "C")
  inRepository : ∀ p, repository = some p →
    computer.disk.locate computer.directory p = .ok launch.directory ∧
      computer.disk.lookup launch.directory = some .directory
  inPlace : repository = none → launch.directory = computer.directory

/-- What can be started runs plainly, whatever language the computer speaks. -/
theorem CanStart.runsPlainly (h : CanStart computer program repository launch) :
    RunsPlainly computer repository launch := by
  obtain ⟨-, hdirectory, henvironment, -⟩ := Computer.eq_of_start h
  refine ⟨?_, ?_, ?_⟩
  · rw [henvironment]
    exact Environment.value?_extend_concat (by decide) "C" _ []
  · rintro p rfl
    exact Computer.enter_eq_ok_iff.mp hdirectory
  · rintro rfl
    exact (Except.ok.inj hdirectory).symm

/-- The exchanges of a run are served by the processes that were started for it, from its first
    state to its last. -/
theorem CanStart.serves_run (h : CanStart computer program repository launch)
    (programs : Programs σ) (plan : Plan) (capture : Capture) (s : σ) :
    let ran := Run.execute (backend computer programs.recorded program repository) true plan
      (capture, (s, []))
    Serves programs launch s ran.1.exchanges ran.2.2.2 ran.2.2.1 := by
  intro ran
  obtain ⟨launches, hlaunches, hserves⟩ := h.serves_replay programs
    (Session.run (backend computer programs.recorded program repository) plan
      (capture, (s, []))).1.calls capture s []
  rw [Session.replay_run] at hlaunches hserves
  have hstarted : ran.2.2.2 = launches := hlaunches
  rw [hstarted]
  exact hserves

/-- **A CONFIRMED RUN IS SERVED BY PROCESSES**: of its calls all are started but those whose
    reference holds a NUL or is too long, each as one process with the call's arguments.  What is
    not started stops nothing, and what is started leaves an output, however it ends. -/
theorem run_served (h : CanStart computer program repository launch) (programs : Programs σ)
    (plan : Plan) (capture : Capture) (s : σ) :
    let b := backend computer programs.recorded program repository
    let start := (capture, (s, []))
    let ran := Run.execute b true plan start
    let calls := ran.1.exchanges.map Exchange.call
    (∃ queries target, StartsAt b start queries target ∧
      calls = .status :: queries ++ plan.flatMap Rule.calls ++ [.checkout target]) ∧
    ran.2.2.2 = (calls.filter Call.Startable).map launch.forCall ∧
    Serves programs launch s ran.1.exchanges ran.2.2.2 ran.2.2.1 ∧
    (∀ e ∈ ran.1.exchanges, ∀ command code, e.reply.outcome ≠ .error (.badExit command code)) ∧
    RunsPlainly computer repository launch := by
  intro b start ran calls
  have hserves := h.serves_run programs plan capture s
  exact ⟨Run.calls_execute b plan start, hserves.launches_eq, hserves,
    hserves.outcome_ne_badExit, h.runsPlainly⟩

/-- A computer that speaks German, with the program at its root and a repository beside it. -/
def germanComputer : Computer where
  disk := Disk.ofList [([], .directory), ([Text.encode "git"], .file [] .program),
    ([Text.encode "repo"], .directory)]
  directory := []
  environment := [(Text.encode "LC_ALL", Text.encode "de_DE")]

/-- A run with a reference that looks like an option, one that holds a NUL, a process that is killed
    and one that fails: the way back is still tried, to a reference that is empty. -/
theorem run_served_in_repository :
    let repository := some (Path.ofString "repo")
    let launch : Launch := ⟨[Text.encode "git"], [], [Text.encode "repo"],
      [(Text.encode "LC_ALL", Text.encode "C")]⟩
    let b := backend germanComputer Programs.scripted.recorded (Path.ofString "/git") repository
    let plan : Plan := [⟨"-f 'a b'", "up\x00stream"⟩]
    let script : List Performance := [⟨.killed, [], []⟩, ⟨.exited 128, [], Text.encode "no"⟩]
    let ran := Run.execute b true plan ({}, (script, []))
    CanStart germanComputer (Path.ofString "/git") repository launch ∧
      Serves Programs.scripted launch script ran.1.exchanges ran.2.2.2 ran.2.2.1 ∧
      ran.2.2.2.map Launch.arguments = [["status", "-sb"], ["show", "--pretty=oneline", "HEAD"],
        ["checkout", "-f 'a b'"], ["checkout", ""]] := by
  intro repository launch b plan script ran
  have hstart : CanStart germanComputer (Path.ofString "/git") repository launch := by
    refine canStart_of_executable ?_ nofun rfl rfl rfl rfl
    intro p hp
    obtain rfl := Option.some.inj hp
    exact ⟨rfl, rfl⟩
  exact ⟨hstart, (run_served hstart Programs.scripted plan {} script).2.2.1, rfl⟩

/-- A call that is too long is no process, so not all calls without a NUL are. -/
theorem CanStart.launches_ne_of_tooLong (h : CanStart computer program repository launch)
    (programs : Programs σ) (capture : Capture) (s : σ) {r : Rule} {plan : Plan}
    (hr : r ∈ plan) (hnul : ¬ (Call.checkout r.branch).HoldsNul)
    (hlong : (Call.checkout r.branch).TooLong) :
    let ran := Run.execute (backend computer programs.recorded program repository) true plan
      (capture, (s, []))
    ran.2.2.2 ≠ ((ran.1.exchanges.map Exchange.call).filter fun c => ¬ c.HoldsNul).map
      launch.forCall := by
  intro ran heq
  obtain ⟨queries, target, -, hcalls⟩ :=
    Run.calls_execute (backend computer programs.recorded program repository) plan
      (capture, (s, []))
  have hmem : .checkout r.branch ∈ ran.1.exchanges.map Exchange.call := by
    rw [hcalls]
    refine List.mem_append_left _ (List.mem_append_right _ (List.mem_flatMap.mpr ⟨r, hr, ?_⟩))
    exact List.mem_cons_self
  have hstarted : launch.forCall (.checkout r.branch) ∈ ran.2.2.2 := by
    rw [heq]
    exact List.mem_map_of_mem (List.mem_filter.mpr ⟨hmem, decide_eq_true hnul⟩)
  -- but what is started is startable
  rw [(h.serves_run programs plan capture s).launches_eq] at hstarted
  obtain ⟨c, hc, hsame⟩ := List.mem_map.mp hstarted
  obtain rfl := launch.forCall_injective hsame
  exact (of_decide_eq_true (List.mem_filter.mp hc).2).2 hlong

private theorem utf8ByteSize_replicate (n : Nat) :
    (String.ofList (List.replicate n 'a')).utf8ByteSize = n := by
  induction n with
  | zero => rfl
  | succ n ih =>
      rw [List.replicate_succ, String.ofList_cons, String.utf8ByteSize_append, ih]
      exact Nat.add_comm 1 n

/-- A reference of one byte more than the system takes is not started, though it holds no NUL. -/
theorem long_reference_not_started :
    ∃ (plan : Plan) (launch : Launch),
      plan = [⟨String.ofList (List.replicate 131072 'a'), "main"⟩] ∧
      CanStart germanComputer (Path.ofString "/git") none launch ∧
      let b := backend germanComputer Programs.scripted.recorded (Path.ofString "/git") none
      let ran := Run.execute b true plan ({}, ([], []))
      ran.2.2.2 ≠ ((ran.1.exchanges.map Exchange.call).filter fun c => ¬ c.HoldsNul).map
        launch.forCall := by
  have hstart : CanStart germanComputer (Path.ofString "/git") none ⟨[Text.encode "git"], [], [],
      [(Text.encode "LC_ALL", Text.encode "C")]⟩ :=
    canStart_of_executable nofun (fun _ => rfl) rfl rfl rfl rfl
  refine ⟨_, _, rfl, hstart,
    hstart.launches_ne_of_tooLong Programs.scripted {} [] List.mem_cons_self ?_ ?_⟩
  · rintro ⟨r, hr, hmem⟩
    obtain rfl := Option.some.inj hr
    rw [String.toList_ofList] at hmem
    exact absurd (List.eq_of_mem_replicate hmem) (by decide)
  · refine ⟨_, rfl, ?_⟩
    rw [utf8ByteSize_replicate]
    exact Nat.lt_succ_self 131071

end Git

end RebasePlan
