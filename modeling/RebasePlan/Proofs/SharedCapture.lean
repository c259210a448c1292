import RebasePlan.Proofs.CommandRun

/-! # Commands that share one capture file

    The error output of all commands goes to one file, and what one of them left
    there is still in it when the next one is run.  It does no harm: whatever the
    file held and wherever its offset stood, a command finds it as if it were new
    (`Capture.prepare_eq`), and what is read back is what was written since, in
    as many pieces as it was written (`Capture.readBack_pieces`).

    So a run of a command depends on its own program alone (`Errand.endsAs_run`),
    and a sequence of runs on one file is the same as a sequence of runs with a
    file each (`Errand.runs_isolated`). -/

namespace RebasePlan

variable {σ : Type}

/-! ## The file -/

namespace Capture

/-- **A PREPARED FILE IS A NEW ONE**, whatever it held before. -/
theorem prepare_eq (c : Capture) : c.prepare = {} := by
  simp [prepare, truncate, rewind]

theorem write_nil (c : Capture) : c.write [] = c := rfl

theorem write_of_ne_nil (c : Capture) {bytes : List UInt8} (h : bytes ≠ []) :
    c.write bytes =
      { content := c.content.take c.offset ++
          List.replicate (c.offset - c.content.length) 0 ++ bytes ++
          c.content.drop (c.offset + bytes.length)
        offset := c.offset + bytes.length } :=
  if_neg fun hempty => h (List.isEmpty_iff.mp hempty)

/-- The part of a file in front of what was written has the length of the offset. -/
theorem length_front (c : Capture) :
    (c.content.take c.offset ++ List.replicate (c.offset - c.content.length) 0).length
      = c.offset := by
  rw [List.length_append, List.length_take, List.length_replicate]
  omega

/-- **WRITING GOES ON** where it stopped: two pieces are as good as one. -/
theorem write_write (c : Capture) (xs ys : List UInt8) :
    (c.write xs).write ys = c.write (xs ++ ys) := by
  by_cases hxs : xs = []
  · rw [hxs, write_nil, List.nil_append]
  by_cases hys : ys = []
  · rw [hys, write_nil, List.append_nil]
  have hfront := length_front c
  generalize hf : c.content.take c.offset ++ List.replicate (c.offset - c.content.length) 0
    = front at hfront
  have hlength : (front ++ xs).length = c.offset + xs.length := by
    rw [List.length_append, hfront]
  -- the second piece begins where the first one ends, so there is no gap to fill
  have hbefore (rest : List UInt8) :
      (front ++ xs ++ rest).take (c.offset + xs.length) = front ++ xs := by
    rw [← hlength, List.take_left]
  have hbehind (rest : List UInt8) :
      (front ++ xs ++ rest).drop (c.offset + xs.length + ys.length) = rest.drop ys.length := by
    rw [← hlength, List.drop_length_add_append]
  have hgap (rest : List UInt8) :
      c.offset + xs.length - (front ++ xs ++ rest).length = 0 := by
    rw [List.length_append, hlength]
    omega
  rw [write_of_ne_nil c hxs, write_of_ne_nil _ hys,
    write_of_ne_nil c (List.append_ne_nil_of_left_ne_nil hxs ys), hf]
  dsimp only
  rw [hbefore, hbehind, hgap, List.drop_drop, List.length_append]
  simp only [List.replicate_zero, List.append_nil, List.append_assoc, Nat.add_assoc]

/-- What is written in pieces is read back as a whole. -/
theorem foldl_write (c : Capture) (pieces : List (List UInt8)) :
    pieces.foldl write c = c.write pieces.flatten := by
  induction pieces generalizing c with
  | nil => rfl
  | cons piece pieces ih => rw [List.foldl_cons, ih, write_write, List.flatten_cons]

/-- **NOTHING IS LOST AND NOTHING IS LEFT OVER**: from a prepared file comes just what was written.
    -/
theorem readBack_pieces (c : Capture) (pieces : List (List UInt8)) :
    (pieces.foldl write c.prepare).readBack.1 = pieces.flatten := by
  rw [foldl_write, readBack_write]

end Capture

/-! ## One run -/

/-- A command, and the computer on which it is run. -/
structure Errand where
  computer : Computer
  command : Command

namespace Errand

/-- What a run of a command comes to, and the state in which it leaves the programs.  Nothing goes
    in but the command, its computer, and what its own program does when it is started. -/
inductive EndsAs (programs : Programs σ) (e : Errand) (s : σ) : Outcome → σ → Prop where
  /-- The command cannot be started, and nothing happens. -/
  | notStarted {cause : IoError} : e.computer.start e.command = .error cause →
      EndsAs programs e s (.error (.notStarted e.command.text cause)) s
  /-- Its program fails, and that counts as an error. -/
  | failed {launch : Launch} : e.computer.start e.command = .ok launch →
      e.command.mayFail = false → (programs.perform launch s).1.output.exitCode ≠ 0 →
      EndsAs programs e s
        (.error (.badExit e.command.text (programs.perform launch s).1.output.exitCode))
        (programs.perform launch s).2
  /-- Its program leaves an output behind. -/
  | finished {launch : Launch} : e.computer.start e.command = .ok launch →
      e.command.mayFail = true ∨ (programs.perform launch s).1.output.exitCode = 0 →
      EndsAs programs e s (.ok (programs.perform launch s).1.output) (programs.perform launch s).2

/-- A command that can be started comes to what its program left behind. -/
theorem run_of_start {e : Errand} {launch : Launch}
    (h : e.computer.start e.command = .ok launch) (programs : Programs σ) (capture : Capture)
    (s : σ) :
    let ran := e.command.run e.computer programs (capture, s)
    let output := (programs.perform launch s).1.output
    ran.1.1 = (if output.exitCode ≠ 0 ∧ e.command.mayFail = false
        then .error (.badExit e.command.text output.exitCode) else .ok output) ∧
      ran.2.2 = (programs.perform launch s).2 := by
  intro ran output
  have houtcome : ran.1.1 = e.command.outcomeOf (programs.perform launch s).1
      (capture.prepare.write (programs.perform launch s).1.stderr).readBack.1 := by
    show (e.command.run e.computer programs (capture, s)).1.1 = _
    rw [Command.run, h]
  have hstate : ran.2.2 = (programs.perform launch s).2 := by
    show (e.command.run e.computer programs (capture, s)).2.2 = _
    rw [Command.run, h]
  refine ⟨?_, hstate⟩
  rw [houtcome, Capture.readBack_write, Command.outcomeOf]
  simp only [Bool.and_eq_true, decide_eq_true_eq, Bool.not_eq_true']
  rfl

/-- **A RUN IS ITS OWN**: what it comes to has nothing of what the file held before. -/
theorem endsAs_run (programs : Programs σ) (e : Errand) (capture : Capture) (s : σ) :
    let ran := e.command.run e.computer programs (capture, s)
    EndsAs programs e s ran.1.1 ran.2.2 := by
  intro ran
  cases hstart : e.computer.start e.command with
  | error cause =>
      obtain ⟨houtcome, hstate⟩ := Command.run_of_error hstart programs capture s
      rw [show ran.1.1 = _ from houtcome, show ran.2.2 = _ from hstate]
      exact .notStarted hstart
  | ok launch =>
      obtain ⟨houtcome, hstate⟩ := run_of_start hstart programs capture s
      rw [show ran.1.1 = _ from houtcome, show ran.2.2 = _ from hstate]
      split
      · next hfailed => exact .failed hstart hfailed.2 hfailed.1
      · next hnot =>
        refine .finished hstart ?_
        rcases Bool.eq_false_or_eq_true e.command.mayFail with hmay | hmay
        · exact Or.inl hmay
        · exact Or.inr (not_not.mp fun hcode => hnot ⟨hcode, hmay⟩)

/-- A run finds every file as if it were new. -/
theorem run_fresh (programs : Programs σ) (e : Errand) (capture : Capture) (s : σ) :
    e.command.run e.computer programs (capture, s) = e.command.run e.computer programs ({}, s) := by
  simp only [Command.run, Capture.prepare_eq]

/-! ## All runs -/

/-- Runs commands one after the other.  They share one capture file. -/
def runAll (programs : Programs σ) :
    List Errand → Capture × σ → List (Outcome × List Event) × (Capture × σ)
  | [], state => ([], state)
  | e :: errands, state =>
    let (result, state) := e.command.run e.computer programs state
    let (results, state) := runAll programs errands state
    (result :: results, state)

/-- Runs commands one after the other.  Each has a new capture file of its own. -/
def runApart (programs : Programs σ) : List Errand → σ → List (Outcome × List Event) × σ
  | [], s => ([], s)
  | e :: errands, s =>
    let (result, (_, s)) := e.command.run e.computer programs ({}, s)
    let (results, s) := runApart programs errands s
    (result :: results, s)

/-- What runs come to one after the other: each of them by itself, in the state that the last one
    left. -/
inductive EndInTurn (programs : Programs σ) : σ → List Errand → List Outcome → σ → Prop where
  | done {s : σ} : EndInTurn programs s [] [] s
  | next {s s' last : σ} {e : Errand} {errands : List Errand} {outcome : Outcome}
      {outcomes : List Outcome} : EndsAs programs e s outcome s' →
      EndInTurn programs s' errands outcomes last →
      EndInTurn programs s (e :: errands) (outcome :: outcomes) last

/-- Sharing the file makes no difference, whatever it held at first. -/
theorem runAll_eq_runApart (programs : Programs σ) (errands : List Errand) (capture : Capture)
    (s : σ) :
    (runAll programs errands (capture, s)).1 = (runApart programs errands s).1 ∧
      (runAll programs errands (capture, s)).2.2 = (runApart programs errands s).2 := by
  -- on the commands, for any file: each run leaves another one to the next
  induction errands generalizing capture s with
  | nil => exact ⟨rfl, rfl⟩
  | cons e errands ih =>
      obtain ⟨hresults, hstate⟩ := ih (e.command.run e.computer programs (capture, s)).2.1
        (e.command.run e.computer programs (capture, s)).2.2
      rw [runAll, runApart, ← run_fresh programs e capture s]
      exact ⟨congrArg _ hresults, hstate⟩

/-- Each of the runs ends as its own command and program say, in its turn. -/
theorem endInTurn_runAll (programs : Programs σ) (errands : List Errand) (capture : Capture)
    (s : σ) :
    let ran := runAll programs errands (capture, s)
    EndInTurn programs s errands (ran.1.map Prod.fst) ran.2.2 := by
  induction errands generalizing capture s with
  | nil => exact .done
  | cons e errands ih => exact .next (endsAs_run programs e capture s) (ih _ _)

/-- **RUNS ON ONE FILE ARE ISOLATED**: whatever the file holds at first, each run has the result
    that it would have with a new file, which is what its own program left behind.  It does not
    matter in how many pieces a program writes. -/
theorem runs_isolated (programs : Programs σ) (errands : List Errand) (capture : Capture) (s : σ) :
    let shared := runAll programs errands (capture, s)
    let apart := runApart programs errands s
    shared.1 = apart.1 ∧ shared.2.2 = apart.2 ∧
      EndInTurn programs s errands (shared.1.map Prod.fst) shared.2.2 ∧
      ∀ pieces : List (List UInt8),
        (pieces.foldl Capture.write shared.2.1.prepare).readBack.1 = pieces.flatten := by
  intro shared apart
  obtain ⟨hresults, hstate⟩ := runAll_eq_runApart programs errands capture s
  exact ⟨hresults, hstate, endInTurn_runAll programs errands capture s,
    Capture.readBack_pieces shared.2.1⟩

end Errand

end RebasePlan
