import RebasePlan.Proofs.GivenAlone

/-! # Verbosities as settings

    A number stands for a verbosity just if it is one from 0 to 5, whatever way it was
    written (`Scalar.Writes.verbosity?_eq_some_iff`): nothing is cut off on the way from
    64 bits to a byte.  So a number that is given for a verbosity loads just if it is in
    range, and what loads is this number; and whatever loads at all has the verbosities
    that its values wrote as numbers (`load_verbosities`). -/

namespace RebasePlan.Settings

/-- Where events are shown, with a verbosity of its own. -/
inductive Sink where
  | console
  | file
  deriving DecidableEq, Repr

/-- The setting for the verbosity of a sink. -/
def Sink.setting : Sink → Setting
  | console => .console
  | file => .file

/-- The verbosity of a sink. -/
def verbosity (s : Settings) : Sink → Verbosity
  | .console => s.console
  | .file => s.file

/-- The verbosity of a sink where nothing says otherwise. -/
def Sink.default (sink : Sink) : Verbosity := ({} : Settings).verbosity sink

/-! ## Numbers for verbosities -/

/-- A single value is a number, or its decimal digits. -/
inductive Scalar.Writes (n : Int) : Scalar → Prop where
  | integer : Writes n (.integer n)
  | unsigned (m : Nat) : n = m → Writes n (.unsigned m)
  | digits : Writes n (.text (toString n))

/-- **NOTHING IS CUT OFF**: a written number stands for the verbosity with this number, and for none
    where there is none. -/
theorem Scalar.Writes.verbosity?_eq_some_iff {n : Int} {v : Scalar} (h : v.Writes n)
    {w : Verbosity} : v.verbosity? = some w ↔ (w.value : Int) = n := by
  have hnat (m : Nat) : (some m).bind Verbosity.ofNat? = some w ↔ (w.value : Int) = m := by
    rw [Option.bind_some, Verbosity.ofNat?_eq_some_iff, Int.natCast_inj]
  have hnone {x : Int} (hx : (w.value : Int) ≠ x) :
      (none : Option Nat).bind Verbosity.ofNat? = some w ↔ (w.value : Int) = x :=
    ⟨fun h => (nomatch h), fun h => (hx h).elim⟩
  cases h with
  | integer =>
      rw [Scalar.verbosity?, Scalar.number?]
      split
      · next hneg => exact hnone (by omega)
      · next hpos =>
        rw [hnat, Int.toNat_of_nonneg (by omega)]
  | unsigned m hm =>
      rw [hm]
      exact hnat m
  | digits =>
      rw [Scalar.verbosity?, Scalar.number?, numberOfText?_toString]
      cases n with
      | ofNat m =>
          rw [Int.ofNat_eq_natCast, Number.unsigned?_toString_natCast]
          split
          · exact hnat m
          · next hlarge =>
            -- digits for more than 64 bits are not read, but neither is there such a verbosity
            have hmax : 5 ≤ Number.maxUnsigned := by decide
            have hle := w.value_le
            exact hnone (by omega)
      | negSucc m =>
          rw [Number.unsigned?_toString_negSucc]
          exact hnone (by omega)

/-- A number is a verbosity just if it is one of the six. -/
theorem Scalar.Writes.exists_verbosity?_iff {n : Int} {v : Scalar} (h : v.Writes n) :
    (∃ w, v.verbosity? = some w) ↔ 0 ≤ n ∧ n ≤ 5 := by
  constructor
  · rintro ⟨w, hw⟩
    have hn := h.verbosity?_eq_some_iff.mp hw
    have hle := w.value_le
    omega
  · rintro ⟨hlow, hhigh⟩
    exact ⟨⟨n.toNat, by omega⟩, h.verbosity?_eq_some_iff.mpr (Int.toNat_of_nonneg hlow)⟩

/-! ## The number that counts -/

variable {c : Computer} {calls : List LoaderCall}

/-- The text of the variable for a setting. -/
def variableText? (c : Computer) (calls : List LoaderCall) (k : Setting) : Option String :=
  (beginningOf calls).bind fun beginning =>
    (c.environment.filterMap fun e => if variableKey? beginning e.1 = some k.path
      then Text.strict e.2 else none).getLast?

/-- What a variable gives is what its text is taken for. -/
theorem fromVariable?_eq_map (k : Setting) :
    fromVariable? c calls k = (variableText? c calls k).map guess := by
  rw [fromVariable?, variableText?, Option.map_bind]
  refine congrArg (Option.bind _) (funext fun beginning => ?_)
  rw [Function.comp_apply, ← List.getLast?_map, List.map_filterMap]
  congr 1
  refine List.filterMap_congr fun e _ => ?_
  split
  · rfl
  · rfl

/-- The highest layer with a value for a setting writes a number there: a call, a file or a text
    writes it as a number or in digits, a variable in digits, as far as it has 64 bits. -/
inductive WritesNumber (c : Computer) (calls : List LoaderCall) (k : Setting) (n : Int) : Prop where
  | call {v : Scalar} (h : fromCall? calls k = some v) (number : v.Writes n)
  | environment (higher : fromCall? calls k = none)
      (h : variableText? c calls k = some (toString n)) (fits : Number.fitSigned? n = some n)
  | source {v : Scalar} (higher : fromCall? calls k = none)
      (higher' : variableText? c calls k = none) (h : fromSource? c calls k = some v)
      (number : v.Writes n)

/-- A setting for which a number is written is given this number. -/
theorem WritesNumber.exists_given? {k : Setting} {n : Int} (h : WritesNumber c calls k n) :
    ∃ v, given? c calls k = some v ∧ v.Writes n := by
  rw [given?, fromVariable?_eq_map]
  cases h with
  | call h number =>
      rw [h]
      exact ⟨_, rfl, number⟩
  | environment higher h fits =>
      rw [higher, h, Option.map_some, guess_toString fits]
      exact ⟨_, rfl, .integer⟩
  | source higher higher' h number =>
      rw [higher, higher', h]
      exact ⟨_, rfl, number⟩

/-- The setting of a sink accepts what is a verbosity, and nothing else. -/
theorem Sink.accepts_iff {sink : Sink} {v : Scalar} :
    sink.setting.Accepts c v ↔ ∃ w, v.verbosity? = some w := by
  rw [← Option.isSome_iff_exists]
  cases sink with
  | console | file => exact ⟨fun h => h.1, fun h => ⟨h, fun heq => nomatch heq⟩⟩

theorem Sink.chosen_eq_some_iff {sink : Sink} {s : Settings} {given : Option Scalar} :
    sink.setting.chosen given = some (s.get sink.setting) ↔
      given.elim (some sink.default) Scalar.verbosity? = some (s.verbosity sink) := by
  cases sink <;> cases given <;> exact Iff.rfl

/-! ## Whatever loads -/

/-- The value that counts for a setting, wherever it stands in its section. -/
def Entries.value? (entries : Entries) (k : Setting) : Option Value :=
  (k.home.members (entries.lookup k.home.name)).toOption.bind fun members =>
    (member? members k.name).map Member.value

theorem Member.exists_scalar_of_verbosity {m : Member} {w : Verbosity} (h : m.verbosity = .ok w) :
    ∃ origin v, m.value = .scalar origin v ∧ v.verbosity? = some w := by
  obtain ⟨name, place, value⟩ := m
  cases value with
  | scalar origin v => exact ⟨origin, v, rfl, Member.verbosity_eq_ok_iff.mp h⟩
  | list | table => exact nomatch h

theorem verbosityOf_eq_ok {members : List Member} {name : String} {default w : Verbosity}
    (h : verbosityOf members name default = .ok w) :
    (member? members name).map Member.value = none ∧ w = default ∨
      ∃ origin v, (member? members name).map Member.value = some (.scalar origin v) ∧
        v.verbosity? = some w := by
  rw [verbosityOf] at h
  cases hmember : member? members name with
  | none =>
      rw [hmember] at h
      exact .inl ⟨rfl, (Except.ok.inj h).symm⟩
  | some m =>
      rw [hmember] at h
      obtain ⟨origin, v, hvalue, hv⟩ := Member.exists_scalar_of_verbosity h
      exact .inr ⟨origin, v, congrArg some hvalue, hv⟩

/-- The verbosities of settings are what the values of their section come to, or their defaults. -/
theorem verbosity_of_ofEntries {entries : Entries} {s : Settings} (h : ofEntries entries = .ok s)
    (sink : Sink) :
    entries.value? sink.setting = none ∧ s.verbosity sink = sink.default ∨
      ∃ origin v, entries.value? sink.setting = some (.scalar origin v) ∧
        v.verbosity? = some (s.verbosity sink) := by
  obtain ⟨members, hmembers, hcontent⟩ := (ofEntries_eq_ok_iff_ofMembers.mp h).2 sink.setting
  rw [Entries.value?, hmembers]
  cases sink with
  | console => exact verbosityOf_eq_ok hcontent
  | file => exact verbosityOf_eq_ok hcontent

/-! ## Numbers and verbosities -/

/-- **ONLY NUMBERS IN RANGE**: where the highest layer writes a number for a verbosity and all else
    can stand, settings load just if the number is one from 0 to 5, and the verbosity is this
    number; it is the default where no layer gives it.  And the verbosities of settings that load
    from anything at all are from 0 to 5, each the default or the number that its value wrote. -/
theorem load_verbosities :
    (∀ (c : Computer) (calls : List LoaderCall), WellFormed (fun _ _ => True) c calls →
      ∃ l, Loader.made? calls = some l ∧ ∀ sink : Sink,
        (∀ n, WritesNumber c calls sink.setting n →
          (∀ k, k ≠ sink.setting → ∀ v, given? c calls k = some v → k.Accepts c v) →
            ((∃ s, l.load c = .ok s) ↔ 0 ≤ n ∧ n ≤ 5)) ∧
        ∀ s, l.load c = .ok s →
          (∀ n, WritesNumber c calls sink.setting n → ((s.verbosity sink).value : Int) = n) ∧
          (given? c calls sink.setting = none → s.verbosity sink = sink.default)) ∧
    ∀ (c : Computer) (l : Loader) (s : Settings), l.load c = .ok s →
      ∃ entries, l.entries c = .ok entries ∧ ∀ sink : Sink, (s.verbosity sink).value ≤ 5 ∧
        (entries.value? sink.setting = none ∧ s.verbosity sink = sink.default ∨
          ∃ origin v, entries.value? sink.setting = some (.scalar origin v) ∧
            ∀ n, v.Writes n → ((s.verbosity sink).value : Int) = n) := by
  constructor
  · intro c calls h
    obtain ⟨l, hl, hload⟩ := exists_load_eq_ok_iff h
    refine ⟨l, hl, fun sink => ⟨?_, fun s hs => ⟨fun n hn => ?_, fun hnone => ?_⟩⟩⟩
    · intro n hn hrest
      obtain ⟨v, hv, hwrites⟩ := hn.exists_given?
      rw [exists_congr hload, exists_chosen_iff, ← hwrites.exists_verbosity?_iff,
        ← Sink.accepts_iff (c := c)]
      refine ⟨fun haccepts => haccepts _ v hv, fun haccepts k w hw => ?_⟩
      by_cases hk : k = sink.setting
      · subst hk
        exact Option.some.inj (hv.symm.trans hw) ▸ haccepts
      · exact hrest k hk w hw
    · obtain ⟨v, hv, hwrites⟩ := hn.exists_given?
      have hchosen := Sink.chosen_eq_some_iff.mp (((hload s).mp hs).1 sink.setting)
      rw [hv] at hchosen
      exact hwrites.verbosity?_eq_some_iff.mp hchosen
    · have hchosen := Sink.chosen_eq_some_iff.mp (((hload s).mp hs).1 sink.setting)
      rw [hnone] at hchosen
      exact (Option.some.inj hchosen).symm
  · intro c l s hs
    obtain ⟨entries, hentries, hsettings, -⟩ := Loader.load_eq_ok_iff.mp hs
    refine ⟨entries, hentries, fun sink => ⟨(s.verbosity sink).value_le, ?_⟩⟩
    refine (verbosity_of_ofEntries hsettings sink).imp id ?_
    rintro ⟨origin, v, hvalue, hv⟩
    exact ⟨origin, v, hvalue, fun n hn => hn.verbosity?_eq_some_iff.mp hv⟩

/-- A computer on which the variable for the console holds a number that is no byte. -/
def largeComputer : Computer := computerWith "GRR" .console "256"

theorem writesNumber_largeComputer :
    WritesNumber largeComputer [.environment "GRR"] Sink.console.setting 256 := by
  have htext : variableText? largeComputer [.environment "GRR"] .console = some "256" := by
    decide +kernel
  exact .environment rfl htext (by decide)

/-- A number that would be zero as a byte is no verbosity; four in digits is one. -/
theorem load_verbosities_large_variable :
    WritesNumber largeComputer [.environment "GRR"] Sink.console.setting 256 ∧
      (∃ l, Loader.made? [.environment "GRR"] = some l ∧ ¬ ∃ s, l.load largeComputer = .ok s) ∧
      ∃ (l : Loader) (s : Settings) (entries : Entries),
        Loader.made? [.set Setting.console.path (.text "4")] = some l ∧
        l.load largeComputer = .ok s ∧ s.console.value = 4 ∧ s.file = .trace ∧
        l.entries largeComputer = .ok entries := by
  obtain ⟨hcalls, hwhole⟩ := load_verbosities
  have hvariable : GivesOnly largeComputer [.environment "GRR"] .console (guess "256") :=
    givesOnly_variable (onlyVariable_computerWith "GRR" .console "256")
  have hset := givesOnly_set largeComputer .console (.text "4")
  have hfour : WritesNumber largeComputer [.set Setting.console.path (.text "4")]
      Sink.console.setting 4 := .call rfl .digits
  have hothers {calls : List LoaderCall} {v : Scalar}
      (h : GivesOnly largeComputer calls .console v) (k : Setting) (hk : k ≠ .console) (w : Scalar)
      (hw : given? largeComputer calls k = some w) : k.Accepts largeComputer w := by
    rw [h.given, if_neg hk] at hw
    exact nomatch hw
  refine ⟨writesNumber_largeComputer, ?_, ?_⟩
  · obtain ⟨l, hl, hload⟩ := hcalls largeComputer _ hvariable.wellFormed
    refine ⟨l, hl, fun hs => ?_⟩
    have hrange := ((hload .console).1 256 writesNumber_largeComputer (hothers hvariable)).mp hs
    exact absurd hrange.2 (by decide)
  · obtain ⟨l, hl, hload⟩ := hcalls largeComputer _ hset.wellFormed
    obtain ⟨s, hs⟩ := ((hload .console).1 4 hfour (hothers hset)).mpr ⟨by decide, by decide⟩
    obtain ⟨entries, hentries, -⟩ := hwhole largeComputer l s hs
    have hconsole := ((hload .console).2 s hs).1 4 hfour
    have hfile := ((hload .file).2 s hs).2 (hset.given .file)
    exact ⟨l, s, entries, hl, hs, Int.ofNat_inj.mp hconsole, hfile, hentries⟩

/-- A fraction is no number that is a verbosity, but it is rounded to one, and a negative one to
    zero. -/
theorem exists_fraction_loaded :
    (∃ l x, Loader.made? [.environment "GRR"] = some l ∧ guess "2.5" = .float x ∧ x.text = "2.5" ∧
      l.load (computerWith "GRR" .console "2.5") = .ok { console := ⟨3, by decide⟩ }) ∧
    ∃ l x, Loader.made? [.environment "GRR"] = some l ∧ guess "-1.0" = .float x ∧ x.text = "-1" ∧
      l.load (computerWith "GRR" .console "-1.0") = .ok { console := ⟨0, by decide⟩ } := by
  have hload (text : String) (x : Binary64) (w : Verbosity) (hguess : guess text = .float x)
      (hw : Verbosity.ofNat? x.toUnsigned = some w) :
      ∃ l, Loader.made? [.environment "GRR"] = some l ∧
        l.load (computerWith "GRR" .console text) = .ok { console := w } := by
    have hgives := givesOnly_variable (onlyVariable_computerWith "GRR" .console text)
    obtain ⟨l, hl, hload⟩ := hgives.exists_load_eq_ok_iff
    refine ⟨l, hl, (hload _).mpr ⟨?_, fun k hk => ?_, fun _ h => nomatch h⟩⟩
    · rw [hguess]
      exact hw
    · cases k <;> first | rfl | exact (hk rfl).elim
  constructor
  · have hguess : guess "2.5" = .float (.finite false 5629499534213120 (-51)) := by decide +kernel
    obtain ⟨l, hl, h⟩ := hload _ _ ⟨3, by decide⟩ hguess (by decide +kernel)
    exact ⟨l, _, hl, hguess, by decide +kernel, h⟩
  · have hguess : guess "-1.0" = .float (.finite true 4503599627370496 (-52)) := by decide +kernel
    obtain ⟨l, hl, h⟩ := hload _ _ ⟨0, by decide⟩ hguess (by decide +kernel)
    exact ⟨l, _, hl, hguess, by decide +kernel, h⟩

end RebasePlan.Settings
