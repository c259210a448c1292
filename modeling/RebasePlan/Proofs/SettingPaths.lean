import RebasePlan.Proofs.GivenAlone
import RebasePlan.Proofs.TomlStrings

/-! # Paths as settings

    A path that is set directly, or written as a string in a text, is taken as it
    stands.  A variable's text is first taken for a truth value or a number where it
    looks like one, and a path comes to the printed form of that.  So the three ways
    agree on a path just if it is no truth value and no number, or one in its printed
    form (`load_path_alike_iff`). -/

namespace RebasePlan.Settings

/-- A setting whose text is taken for a path as it stands. -/
inductive PathSetting where
  | program
  | logFile
  deriving DecidableEq, Repr

namespace PathSetting

/-- The setting that takes the path. -/
def setting : PathSetting → Setting
  | program => .program
  | logFile => .logFile

/-- The settings in which only a path is set. -/
def only : PathSetting → Option String → Settings
  | program, text => { program := text }
  | logFile, text => { logFile := text }

/-- The settings show which path was set. -/
theorem only_injective {p : PathSetting} {v w : Option String} (h : p.only v = p.only w) :
    v = w := by
  cases p with
  | program => exact congrArg Settings.program h
  | logFile => exact congrArg Settings.logFile h

theorem usable_only (p : PathSetting) (v : Option String) (c : Computer) :
    (p.only v).Usable c := by
  cases p <;> exact fun _ h => nomatch h

theorem isBare_home (p : PathSetting) : Toml.IsBare p.setting.home.name := by
  cases p <;> exact ⟨by decide, List.all_eq_true.mp (by decide)⟩

theorem isBare_name (p : PathSetting) : Toml.IsBare p.setting.name := by
  cases p <;> exact ⟨by decide, List.all_eq_true.mp (by decide)⟩

/-- Where a path is the only thing that is given, it is the only thing that is set. -/
theorem exists_load_only (p : PathSetting) {c : Computer} {calls : List LoaderCall} {v : Scalar}
    (h : GivesOnly c calls p.setting v) :
    ∃ l, Loader.made? calls = some l ∧ l.load c = .ok (p.only v.printed) := by
  obtain ⟨l, hl, hload⟩ := h.exists_load_eq_ok_iff
  refine ⟨l, hl, (hload _).mpr ⟨?_, fun k hk => ?_, p.usable_only _ c⟩⟩
  · cases p <;> rfl
  · cases p <;> cases k <;> first | rfl | exact (hk rfl).elim

end PathSetting

/-! ## Texts that variables keep -/

/-- A text is no truth value and no number, or one in its printed form. -/
structure Kept (v : String) : Prop where
  word : lowered v = "true" ∨ lowered v = "false" → lowered v = v
  integer : ∀ n, Number.signed? v.toList = some n → toString n = v
  float : ∀ x, Number.signed? v.toList = none → Binary64.read? v.toList = some x → x.text = v

/-- The two truth values are printed as they are written. -/
theorem kept_word {word : String} (h : word = "true" ∨ word = "false") : Kept word := by
  have hnone : Number.signed? word.toList = none ∧ Binary64.read? word.toList = none := by
    rcases h with rfl | rfl <;> decide +kernel
  refine ⟨fun _ => ?_, fun n hn => ?_, fun x _ hx => ?_⟩
  · rcases h with rfl | rfl <;> decide +kernel
  · exact absurd (hn.symm.trans hnone.1) (Option.some_ne_none n)
  · exact absurd (hx.symm.trans hnone.2) (Option.some_ne_none x)

/-- A whole number is kept just if it is printed like it was written. -/
theorem kept_iff_of_integer {v : String} {n : Int}
    (hword : lowered v ≠ "true" ∧ lowered v ≠ "false")
    (hn : Number.signed? v.toList = some n) : Kept v ↔ toString n = v := by
  refine ⟨fun h => h.integer n hn, fun h => ⟨fun hv => ?_, fun m hm => ?_, fun x hnone _ => ?_⟩⟩
  · exact (hv.elim hword.1 hword.2).elim
  · exact Option.some.inj (hn.symm.trans hm) ▸ h
  · exact absurd (hn.symm.trans hnone) (Option.some_ne_none n)

/-- So it is with a fraction. -/
theorem kept_iff_of_float {v : String} {x : Binary64}
    (hword : lowered v ≠ "true" ∧ lowered v ≠ "false") (hn : Number.signed? v.toList = none)
    (hx : Binary64.read? v.toList = some x) : Kept v ↔ x.text = v := by
  refine ⟨fun h => h.float x hn hx, fun h => ⟨fun hv => ?_, fun m hm => ?_, fun y _ hy => ?_⟩⟩
  · exact (hv.elim hword.1 hword.2).elim
  · exact absurd (hm.symm.trans hn) (Option.some_ne_none m)
  · exact Option.some.inj (hx.symm.trans hy) ▸ h

/-- All other texts are kept. -/
theorem kept_of_neither {v : String} (hword : lowered v ≠ "true" ∧ lowered v ≠ "false")
    (hn : Number.signed? v.toList = none) (hx : Binary64.read? v.toList = none) : Kept v := by
  refine ⟨fun hv => ?_, fun m hm => ?_, fun y _ hy => ?_⟩
  · exact (hv.elim hword.1 hword.2).elim
  · exact absurd (hm.symm.trans hn) (Option.some_ne_none m)
  · exact absurd (hy.symm.trans hx) (Option.some_ne_none y)

/-- **A VARIABLE KEEPS A TEXT** just if it takes it for itself, or for something that is printed
    like it. -/
theorem printed_guess_eq_iff (v : String) : (guess v).printed = some v ↔ Kept v := by
  have heq {s : String} : (some s = some v ↔ Kept v) ↔ (s = v ↔ Kept v) := by
    rw [Option.some.injEq]
  rw [guess]
  -- in the order of the guesses: the words, then whole numbers, then fractions
  by_cases htrue : lowered v = "true"
  · rw [if_pos htrue]
    exact heq.mpr ⟨fun h => kept_word (.inl h.symm),
      fun h => htrue.symm.trans (h.word (.inl htrue))⟩
  by_cases hfalse : lowered v = "false"
  · rw [if_neg htrue, if_pos hfalse]
    exact heq.mpr ⟨fun h => kept_word (.inr h.symm),
      fun h => hfalse.symm.trans (h.word (.inr hfalse))⟩
  rw [if_neg htrue, if_neg hfalse]
  cases hinteger : Number.signed? v.toList with
  | some n => exact heq.mpr (kept_iff_of_integer ⟨htrue, hfalse⟩ hinteger).symm
  | none =>
      cases hfloat : Binary64.read? v.toList with
      | some x => exact heq.mpr (kept_iff_of_float ⟨htrue, hfalse⟩ hinteger hfloat).symm
      | none => exact iff_of_true rfl (kept_of_neither ⟨htrue, hfalse⟩ hinteger hfloat)

/-! ## Three ways to a path -/

/-- **THREE WAYS TO A PATH**: every path can be written in a text, and there as well as set directly
    it is taken as it stands.  In a variable it comes to the printed form of what it is taken for,
    so the variable agrees just on the texts that it keeps. -/
theorem load_path_alike_iff (p : PathSetting) (v : String) (c : Computer) (beginning : String)
    (h : p.setting.OnlyVariable beginning v c.environment) :
    ∃ direct guessed : Loader,
      Loader.made? [.set p.setting.path (.text v)] = some direct ∧
      Loader.made? [.environment beginning] = some guessed ∧
      direct.load c = .ok (p.only (some v)) ∧
      (∀ content, Toml.read? content
          = some [(p.setting.home.name, .table [(p.setting.name, .string v)])] →
        ∃ written, Loader.made? [.add (.text content)] = some written ∧
          written.load c = .ok (p.only (some v))) ∧
      (∃ content, Toml.read? content
        = some [(p.setting.home.name, .table [(p.setting.name, .string v)])]) ∧
      guessed.load c = .ok (p.only (guess v).printed) ∧
      (guessed.load c = .ok (p.only (some v)) ↔ Kept v) := by
  obtain ⟨direct, hdirect, hdirect_load⟩ := p.exists_load_only (givesOnly_set c p.setting (.text v))
  obtain ⟨guessed, hguessed, hguessed_load⟩ := p.exists_load_only (givesOnly_variable h)
  refine ⟨direct, guessed, hdirect, hguessed, hdirect_load,
    fun _ hread => p.exists_load_only (givesOnly_text hread rfl),
    ⟨_, Toml.read?_line p.isBare_home p.isBare_name v⟩, hguessed_load, ?_⟩
  rw [hguessed_load, ← printed_guess_eq_iff]
  exact ⟨fun heq => PathSetting.only_injective (Except.ok.inj heq), fun heq => by rw [heq]⟩

/-- A computer on which the variable for the program holds digits. -/
def digitsComputer : Computer := computerWith "GRR" .program "007"

theorem onlyVariable_digitsComputer :
    Setting.program.OnlyVariable "GRR" "007" digitsComputer.environment :=
  onlyVariable_computerWith "GRR" .program "007"

theorem guess_digits : guess "007" = .integer 7 := by
  decide +kernel

/-- A program called `007` is found as it is called when it is set directly, but not when a variable
    names it. -/
theorem load_path_alike_iff_digits :
    Setting.program.OnlyVariable "GRR" "007" digitsComputer.environment ∧
      ∃ direct guessed : Loader,
        direct.load digitsComputer = .ok { program := some "007" } ∧
        guessed.load digitsComputer = .ok { program := some "7" } ∧ ¬ Kept "007" := by
  obtain ⟨direct, guessed, -, -, hdirect, -, -, hguessed, hkept⟩ :=
    load_path_alike_iff .program "007" digitsComputer "GRR" onlyVariable_digitsComputer
  rw [guess_digits] at hguessed
  refine ⟨onlyVariable_digitsComputer, direct, guessed, hdirect, hguessed, fun h => ?_⟩
  have heq := PathSetting.only_injective (Except.ok.inj (hguessed.symm.trans (hkept.mpr h)))
  exact absurd heq (by decide)

/-- The ways to a path do not always agree: zeros in front are lost on the way through a
    variable. -/
theorem exists_path_not_alike :
    ∃ direct guessed : Loader,
      Loader.made? [.set "tools.git" (.text "007")] = some direct ∧
      Loader.made? [.environment "GRR"] = some guessed ∧
      direct.load digitsComputer = .ok { program := some "007" } ∧
      guessed.load digitsComputer = .ok { program := some "7" } ∧
      direct.load digitsComputer ≠ guessed.load digitsComputer := by
  obtain ⟨direct, hdirect, hdirect_load⟩ :=
    PathSetting.program.exists_load_only (givesOnly_set digitsComputer .program (.text "007"))
  obtain ⟨guessed, hguessed, hguessed_load⟩ :=
    PathSetting.program.exists_load_only (givesOnly_variable onlyVariable_digitsComputer)
  rw [guess_digits] at hguessed_load
  refine ⟨direct, guessed, hdirect, hguessed, hdirect_load, hguessed_load, fun heq => ?_⟩
  rw [hdirect_load, hguessed_load] at heq
  exact absurd (PathSetting.only_injective (Except.ok.inj heq)) (by decide)

end RebasePlan.Settings
