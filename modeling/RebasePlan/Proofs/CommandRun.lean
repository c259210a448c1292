import RebasePlan.Process.Run
import RebasePlan.Proofs.FirstCut

/-! # What running a command comes to

    A command is started or it is not, and `Computer.start_withArguments` says
    which: if a program can be started at all, then with every list of arguments
    that holds no NUL and no argument that is too long.  Which file the program
    is, where it runs and what variables it is given do not depend on the
    arguments.

    What happens once it is started is up to the program.  The run adds nothing
    and loses nothing: what was captured before is gone (`Capture.readBack_write`),
    and what the program leaves behind is the outcome, character by character. -/

namespace RebasePlan

variable {σ : Type}

/-! ## Variables -/

namespace Environment

/-- What begins with something goes on behind it in the order of bytes. -/
theorem lt_append_cons (xs : List UInt8) (y : UInt8) (ys : List UInt8) : xs < xs ++ y :: ys := by
  induction xs with
  | nil => exact List.nil_lt_cons y ys
  | cons x xs ih => exact List.cons_lt_cons_self.mpr ih

/-- An entry that an insertion passes over is not taken for the one that is inserted. -/
theorem not_prefix_entryText {name n v : List UInt8} (hname : equalsSign ∉ name)
    (hne : name ≠ n) (hlt : ¬ name < n) : ¬ name ++ [equalsSign] <+: entryText (n, v) := by
  rintro ⟨rest, hrest⟩
  -- both names begin the same text, so one of them begins the other
  have hbegin : name <+: n ++ equalsSign :: v := by
    refine ⟨equalsSign :: rest, ?_⟩
    rw [← List.singleton_append, ← List.append_assoc]
    exact hrest
  obtain ⟨t, ht⟩ := (Text.prefix_append_barrier_iff hname).mp hbegin
  cases t with
  | nil => exact hne (by rw [← ht, List.append_nil])
  | cons d t => exact hlt (ht ▸ lt_append_cons name d t)

theorem get?_cons_here {name value : List UInt8} (rest : Environment) :
    get? ((name, value) :: rest) name = some value := by
  have htext : name ++ [equalsSign] <+: entryText (name, value) :=
    ⟨value, by simp [entryText]⟩
  rw [get?, List.map_cons, List.find?_cons_of_pos (List.isPrefixOf_iff_prefix.mpr htext),
    Option.map_some]
  congr 1
  rw [entryText, show name ++ equalsSign :: value = (name ++ [equalsSign]) ++ value by simp,
    List.drop_left]

/-- A variable whose text does not begin with the wanted name and an equals sign is passed over. -/
theorem get?_cons_skip {name : List UInt8} {entry : List UInt8 × List UInt8}
    {rest : Environment} (h : ¬ name ++ [equalsSign] <+: entryText entry) :
    get? (entry :: rest) name = get? rest name := by
  rw [get?, List.map_cons, List.find?_cons_of_neg fun hp => h (List.isPrefixOf_iff_prefix.mp hp)]
  rfl

/-- A variable that was put somewhere has its value, whatever stood there. -/
theorem get?_insert {name : List UInt8} (hname : equalsSign ∉ name) (value : List UInt8)
    (env : Environment) : get? (insert name value env) name = some value := by
  induction env with
  | nil => exact get?_cons_here []
  | cons entry rest ih =>
      obtain ⟨n, v⟩ := entry
      rw [insert]
      split
      · exact get?_cons_here rest
      · split
        · exact get?_cons_here _
        · next hne hlt =>
          rw [get?_cons_skip (not_prefix_entryText hname hne hlt)]
          exact ih

/-- The last of a child's own variables has its value, whatever was inherited. -/
theorem value?_extend_concat {name : String} (hname : equalsSign ∉ Text.encode name)
    (value : String) (env : Environment) (own : List (String × String)) :
    (env.extend (own ++ [(name, value)])).value? name = some (Text.encode value) := by
  have hown : (own ++ [(name, value)]).isEmpty = false := by simp
  rw [extend, hown, if_neg Bool.false_ne_true, List.map_append, ← List.append_assoc,
    List.foldl_append]
  exact get?_insert hname _ _

end Environment

/-! ## Starting -/

theorem Command.holdsNul_withArguments (command : Command) (arguments : List String) :
    Command.holdsNul { command with arguments } =
      (Command.holdsNul { command with arguments := [] } || arguments.any Command.nulIn) := by
  simp only [holdsNul, List.any_nil, Bool.or_false]
  ac_rfl

namespace Computer

variable {c : Computer} {disk : Disk} {directory : Place}

private theorem exists_of_bind_eq_ok {α β : Type} {x : Except IoError α}
    {f : α → Except IoError β} {b : β} (h : x.bind f = .ok b) : ∃ a, x = .ok a ∧ f a = .ok b := by
  cases x with
  | error e => exact nomatch h
  | ok a => exact ⟨a, rfl, h⟩

theorem enter_of_located {p : Path} {place : Place}
    (h : c.disk.locate c.directory p = .ok place) :
    c.enter p = match c.disk.lookup place with
      | some .directory => .ok place
      | _ => .error .notADirectory := by
  rw [enter, h]
  rfl

/-- To enter a path is to follow it and to find a directory. -/
theorem enter_eq_ok_iff {p : Path} {place : Place} :
    c.enter p = .ok place ↔
      c.disk.locate c.directory p = .ok place ∧ c.disk.lookup place = some .directory := by
  constructor
  · intro h
    obtain ⟨there, hlocate, -⟩ := exists_of_bind_eq_ok h
    rw [enter_of_located hlocate] at h
    split at h
    · next hdir =>
      obtain rfl := Except.ok.inj h
      exact ⟨hlocate, hdir⟩
    · exact nomatch h
  · rintro ⟨hlocate, hdir⟩
    rw [enter_of_located hlocate, hdir]

theorem start_of_holdsNul {command : Command} (h : command.holdsNul = true) :
    c.start command = .error .nulInCommand := by
  rw [start, if_pos h]
  rfl

/-- Any other command is started from its directory, with its variables, if its program is found and
    can be executed. -/
theorem start_of_not_holdsNul {command : Command} (h : command.holdsNul = false) :
    c.start command = (c.directoryFor command).bind fun directory =>
      let environment := c.environment.extend command.assignments
      (c.programFor command.program directory environment
        (fits command.arguments environment)).bind fun program =>
          .ok ⟨program, command.arguments, directory, environment⟩ := by
  rw [start, if_neg (Bool.eq_false_iff.mp h)]
  rfl

/-- What is known of a command that is started. -/
theorem eq_of_start {command : Command} {launch : Launch} (h : c.start command = .ok launch) :
    command.holdsNul = false ∧ c.directoryFor command = .ok launch.directory ∧
      launch.environment = c.environment.extend command.assignments ∧
      c.programFor command.program launch.directory launch.environment
        (fits command.arguments launch.environment) = .ok launch.program := by
  cases hnul : command.holdsNul with
  | true => exact nomatch (start_of_holdsNul hnul).symm.trans h
  | false =>
      rw [start_of_not_holdsNul hnul] at h
      obtain ⟨directory, hdirectory, h⟩ := exists_of_bind_eq_ok h
      obtain ⟨program, hprogram, h⟩ := exists_of_bind_eq_ok h
      obtain rfl := Except.ok.inj h
      exact ⟨rfl, hdirectory, rfl, hprogram⟩

/-- At the end of a path there must be a program; what does not fit is refused before a program is
    found to be broken. -/
theorem execute_of_located {p : Path} {place : Place}
    (hlocate : disk.locate directory p = .ok place) (fit : Bool) :
    execute disk directory fit p = match disk.lookup place with
      | some (.file _ .data) => .error .denied
      | some (.file _ .brokenProgram) =>
        .error (if fit then .notAProgram else .argumentsTooLong)
      | some (.file _ .program) => if fit then .ok place else .error .argumentsTooLong
      | _ => .error .denied := by
  simp only [execute, hlocate, bind, Except.bind]
  cases disk.lookup place with
  | none => rfl
  | some entry =>
      cases entry with
      | directory => rfl
      | file content use => cases use <;> cases fit <;> rfl

/-- A file cannot be executed whatever the arguments are, or it is they that stop it. -/
theorem execute_cases (disk : Disk) (directory : Place) (p : Path) :
    (∃ e, ∀ fit, execute disk directory fit p = .error e) ∨
      execute disk directory false p = .error .argumentsTooLong := by
  cases hlocate : disk.locate directory p with
  | error e => exact Or.inl ⟨e, fun _ => by rw [execute, hlocate]; rfl⟩
  | ok place =>
      simp only [execute_of_located hlocate]
      cases disk.lookup place with
      | none => exact Or.inl ⟨.denied, fun _ => rfl⟩
      | some entry =>
          cases entry with
          | directory => exact Or.inl ⟨.denied, fun _ => rfl⟩
          | file content use =>
              cases use with
              | data => exact Or.inl ⟨.denied, fun _ => rfl⟩
              | brokenProgram => exact Or.inr rfl
              | program => exact Or.inr rfl

/-- Arguments that do not fit stop what could be executed otherwise. -/
theorem execute_unfit {fit : Bool} {p : Path} {place : Place}
    (h : execute disk directory fit p = .ok place) :
    execute disk directory false p = .error .argumentsTooLong := by
  rcases execute_cases disk directory p with ⟨e, he⟩ | hunfit
  · exact nomatch (he fit).symm.trans h
  · exact hunfit

/-- If a program can be executed, then the same search ends at it and complains of the size as soon
    as something does not fit. -/
theorem executeFirst_unfit {fit : Bool} {paths : List Path} {place : Place} (denied : Bool)
    (last : IoError)
    (h : executeFirst (execute disk directory fit) denied last paths = .ok place) :
    executeFirst (execute disk directory false) denied last paths = .error .argumentsTooLong := by
  induction paths generalizing denied last with
  | nil => exact nomatch h
  | cons p paths ih =>
      rw [executeFirst] at h ⊢
      rcases execute_cases disk directory p with ⟨e, he⟩ | hunfit
      · -- both searches pass this file for the same error, or end at it
        rw [he] at h ⊢
        dsimp only at h ⊢
        split at h
        · next hdenied => rw [if_pos hdenied]; exact ih _ _ h
        · next hdenied =>
          split at h
          · next hpassed => rw [if_neg hdenied, if_pos hpassed]; exact ih _ _ h
          · exact nomatch h
      · rw [hunfit]
        rfl

variable {program : Path} {environment : Environment}

theorem programFor_unfit {fit : Bool} {place : Place}
    (h : c.programFor program directory environment fit = .ok place) :
    c.programFor program directory environment false = .error .argumentsTooLong := by
  rw [programFor] at h ⊢
  split at h
  · exact nomatch h
  · next hempty =>
    rw [if_neg hempty]
    split at h
    · next hslash => rw [if_pos hslash]; exact execute_unfit h
    · next hslash => rw [if_neg hslash]; exact executeFirst_unfit _ _ h

/-- What is started fits. -/
theorem fit_of_programFor {fit : Bool} {place : Place}
    (h : c.programFor program directory environment fit = .ok place) : fit = true := by
  cases fit with
  | true => rfl
  | false => exact nomatch (programFor_unfit h).symm.trans h

/-- Where the variables fit, the arguments decide, and each of them for itself. -/
theorem fits_iff {arguments : List String} (h : fits [] environment = true) :
    fits arguments environment = true ↔ ¬ ∃ a ∈ arguments, maxArgument < a.utf8ByteSize := by
  have hvariables : (environment.all fun entry =>
      (Environment.entryText entry).length ≤ maxArgument) = true := h
  rw [fits, hvariables, Bool.and_true, List.all_eq_true, not_exists]
  simp only [decide_eq_true_eq, not_and, Nat.not_lt]

/-- **WHAT STARTS AT ALL STARTS WITH ANY ARGUMENTS** that the system takes. -/
theorem start_withArguments (command : Command) (arguments : List String) {launch : Launch}
    (h : c.start { command with arguments := [] } = .ok launch) :
    c.start { command with arguments } =
      if ∃ a ∈ arguments, Command.nulIn a = true then .error .nulInCommand
      else if ∃ a ∈ arguments, maxArgument < a.utf8ByteSize then .error .argumentsTooLong
      else .ok { launch with arguments } := by
  obtain ⟨hnul, hdirectory, henvironment, hprogram⟩ := eq_of_start h
  have hholds : (Command.holdsNul { command with arguments }) = arguments.any Command.nulIn := by
    rw [Command.holdsNul_withArguments, hnul, Bool.false_or]
  by_cases hin : ∃ a ∈ arguments, Command.nulIn a = true
  · rw [if_pos hin]
    exact start_of_holdsNul (hholds.trans (List.any_eq_true.mpr hin))
  · rw [if_neg hin, start_of_not_holdsNul
      (hholds.trans (Bool.eq_false_iff.mpr fun hany => hin (List.any_eq_true.mp hany)))]
    -- the variables fit, since they fit beside no arguments
    have hempty : fits [] launch.environment = true := fit_of_programFor hprogram
    show (c.directoryFor { command with arguments := [] }).bind _ = _
    rw [hdirectory]
    simp only [Except.bind, ← henvironment]
    rw [hempty] at hprogram
    by_cases hlong : ∃ a ∈ arguments, maxArgument < a.utf8ByteSize
    · have hfit : fits arguments launch.environment = false :=
        Bool.eq_false_iff.mpr fun hfit => (fits_iff hempty).mp hfit hlong
      rw [if_pos hlong, hfit, programFor_unfit hprogram]
    · rw [if_neg hlong, (fits_iff hempty).mpr hlong, hprogram]

end Computer

/-! ## Running -/

namespace Capture

/-- What is read back is what was written, and nothing of what was there before. -/
theorem readBack_write (c : Capture) (bytes : List UInt8) :
    (c.prepare.write bytes).readBack.1 = bytes := by
  rw [write]
  split
  · next hempty =>
    rw [List.isEmpty_iff.mp hempty]
    simp [prepare, truncate, rewind, readBack, readToEnd]
  · simp [prepare, truncate, rewind, readBack, readToEnd]

end Capture

/-- What a program leaves behind, as the output of a process. -/
def Performance.output (p : Performance) : Output where
  exitCode := match p.ending with
    | .exited code => code
    | .killed => -1
  stdout := Text.lossy p.stdout
  stderr := Text.lossy p.stderr

namespace Command

variable {command : Command} {computer : Computer}

/-- A command that is not started is reported, and no program does anything. -/
theorem run_of_error {e : IoError} (h : computer.start command = .error e) (programs : Programs σ)
    (capture : Capture) (s : σ) :
    (command.run computer programs (capture, s)).1.1 = .error (.notStarted command.text e) ∧
      (command.run computer programs (capture, s)).2.2 = s := by
  rw [run, h]
  exact ⟨rfl, rfl⟩

/-- A command that is started leaves behind what its program does. -/
theorem run_of_ok {launch : Launch} (h : computer.start command = .ok launch)
    (hfail : command.mayFail = true) (programs : Programs σ) (capture : Capture) (s : σ) :
    (command.run computer programs (capture, s)).1.1
        = .ok (programs.perform launch s).1.output ∧
      (command.run computer programs (capture, s)).2.2 = (programs.perform launch s).2 := by
  rw [run, h]
  refine ⟨?_, rfl⟩
  show command.outcomeOf _ (capture.prepare.write _).readBack.1 = _
  rw [Capture.readBack_write, outcomeOf, hfail]
  simp only [Bool.not_true, Bool.and_false]
  rfl

end Command

end RebasePlan
