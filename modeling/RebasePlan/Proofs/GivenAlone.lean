import RebasePlan.Proofs.SettingLayers

/-! # Settings given alone

    A text with one setting, a variable for one setting, and a call that sets one: each
    of them gives this setting a value and leaves all others alone (`GivesOnly`).  So
    what loads is this value, with the defaults around it
    (`GivesOnly.exists_load_eq_ok_iff`). -/

namespace RebasePlan.Settings

variable {c : Computer} {k : Setting} {v : Scalar}

/-- Calls give a value to one setting, and nothing to the others. -/
structure GivesOnly (c : Computer) (calls : List LoaderCall) (k : Setting) (v : Scalar) :
    Prop where
  wellFormed : WellFormed (fun _ _ => True) c calls
  given : ∀ k', given? c calls k' = if k' = k then some v else none

/-- What loads is the value that is read from the one that was given, with the defaults of all other
    settings. -/
theorem GivesOnly.exists_load_eq_ok_iff {calls : List LoaderCall} (h : GivesOnly c calls k v) :
    ∃ l, Loader.made? calls = some l ∧ ∀ s : Settings, l.load c = .ok s ↔
      k.read? v = some (s.get k) ∧ (∀ k', k' ≠ k → s.get k' = k'.default) ∧ s.Usable c := by
  obtain ⟨l, hl, hload⟩ := Settings.exists_load_eq_ok_iff h.wellFormed
  refine ⟨l, hl, fun s => (hload s).trans ?_⟩
  constructor
  · rintro ⟨hchosen, husable⟩
    refine ⟨?_, fun k' hne => ?_, husable⟩
    · have hk := hchosen k
      rwa [h.given, if_pos rfl] at hk
    · have hk' := hchosen k'
      rw [h.given, if_neg hne] at hk'
      exact (Option.some.inj hk').symm
  · rintro ⟨hread, hrest, husable⟩
    refine ⟨fun k' => ?_, husable⟩
    rw [h.given]
    by_cases hk : k' = k
    · subst hk
      rw [if_pos rfl]
      exact hread
    · rw [if_neg hk, hrest k' hk]
      rfl

theorem getLast?_filterMap_singleton {α β : Type} (f : α → Option β) (x : α) :
    ([x].filterMap f).getLast? = f x := by
  rw [List.filterMap_cons]
  cases f x <;> rfl

/-! ## One setting in a text -/

/-- A table with one setting has a value for it, and for no other. -/
theorem tableValue?_singleton (k k' : Setting) (value : Toml.Value) :
    tableValue? [(k.home.name, .table [(k.name, value)])] k'
      = if k' = k then tomlScalar? value else none := by
  by_cases hk : k' = k
  · subst hk
    rw [if_pos rfl, tableValue?, List.lookup_cons_self]
    dsimp only
    rw [List.lookup_cons_self, Option.bind_some]
  · rw [if_neg hk, tableValue?, List.lookup_cons]
    by_cases hhome : k'.home.name = k.home.name
    · have hname : (k'.name == k.name) = false :=
        beq_eq_false_iff_ne.mpr fun hname => hk (Setting.eq_of_place hhome hname)
      rw [beq_iff_eq.mpr hhome]
      dsimp only
      rw [List.lookup_cons, hname]
      rfl
    · rw [beq_eq_false_iff_ne.mpr hhome]
      rfl

/-- A text with one setting gives this setting alone, whatever it is written like. -/
theorem givesOnly_text {content : String} {value : Toml.Value}
    (hread : Toml.read? content = some [(k.home.name, .table [(k.name, value)])])
    (hvalue : tomlScalar? value = some v) : GivesOnly c [.add (.text content)] k v where
  wellFormed := by
    have hholds : HoldsSettings (fun _ _ => True) [(k.home.name, .table [(k.name, value)])] := by
      intro e he
      obtain rfl := List.mem_singleton.mp he
      refine ⟨⟨k, rfl⟩, _, rfl, fun d hd => ?_⟩
      obtain rfl := List.mem_singleton.mp hd
      exact ⟨k, v, rfl, rfl, hvalue, trivial⟩
    refine ⟨fun _ he => (nomatch he), fun _ hb => (nomatch hb), fun s hs => ?_⟩
    obtain rfl := List.mem_singleton.mp hs
    exact ⟨_, hread, hholds⟩
  given k' := by
    show ([Source.text content].filterMap fun s =>
      (s.table? c).bind fun table => tableValue? table k').getLast? = _
    rw [getLast?_filterMap_singleton, Source.table?, hread, Option.bind_some,
      tableValue?_singleton, hvalue]

/-! ## One setting in a call -/

/-- A call that sets one setting gives this setting alone. -/
theorem givesOnly_set (c : Computer) (k : Setting) (v : Scalar) :
    GivesOnly c [.set k.path v] k v where
  wellFormed := by
    refine ⟨fun e he => ?_, fun _ hb => (nomatch hb), fun _ hs => nomatch hs⟩
    obtain rfl := List.mem_singleton.mp he
    exact ⟨k, rfl, trivial⟩
  given k' := by
    have hnone : (fromVariable? c [.set k.path v] k').or (fromSource? c [.set k.path v] k')
        = none := rfl
    rw [given?, hnone, Option.or_none]
    show ([(k.path, v)].filterMap fun e =>
      if e.1 = k'.path then some e.2 else none).getLast? = _
    rw [getLast?_filterMap_singleton]
    by_cases hk : k' = k
    · subst hk
      rw [if_pos rfl, if_pos rfl]
    · rw [if_neg hk, if_neg fun hpath => hk (Setting.path_injective hpath).symm]

/-! ## One setting in a variable -/

/-- The environment holds one variable for settings, and this one is for a setting. -/
def Setting.OnlyVariable (k : Setting) (beginning text : String) (env : Environment) : Prop :=
  ∃ name, k.Names beginning name ∧
    env.filter (fun e => (variableKey? beginning e.1).isSome) = [(name, Text.encode text)]

/-- A variable gives the setting that it names, as the value that its text is taken for. -/
theorem givesOnly_variable {beginning text : String}
    (h : k.OnlyVariable beginning text c.environment) :
    GivesOnly c [.environment beginning] k (guess text) := by
  obtain ⟨name, hnames, hfilter⟩ := h
  have hkey := variableKey?_of_names hnames
  have hstrict : Text.strict (Text.encode text) = some text := Text.strict_eq_some_iff.mpr rfl
  have hmem {e : List UInt8 × List UInt8} (he : e ∈ c.environment)
      (hsome : (variableKey? beginning e.1).isSome) : e = (name, Text.encode text) :=
    List.mem_singleton.mp (hfilter ▸ List.mem_filter.mpr ⟨he, hsome⟩)
  refine ⟨⟨fun _ he => (nomatch he), fun b hb e he key hkey' => ?_, fun _ hs => nomatch hs⟩,
    fun k' => ?_⟩
  · obtain rfl : beginning = b := Option.some.inj hb
    obtain rfl := hmem he (Option.isSome_iff_exists.mpr ⟨key, hkey'⟩)
    exact ⟨k, text, Option.some.inj (hkey'.symm.trans hkey), hstrict, trivial⟩
  · -- variables that are for no setting at all say nothing of this one
    have hvalue : c.environment.filterMap (fun e => if variableKey? beginning e.1 = some k'.path
          then (Text.strict e.2).map guess else none)
        = [(name, Text.encode text)].filterMap fun e =>
          if variableKey? beginning e.1 = some k'.path then (Text.strict e.2).map guess
          else none := by
      rw [← hfilter, List.filterMap_filter]
      refine List.filterMap_congr fun e _ => ?_
      split
      · next hk => rw [hk]; rfl
      · exact (ite_self _).symm
    have hgiven : given? c [.environment beginning] k'
        = ([(name, Text.encode text)].filterMap fun e =>
          if variableKey? beginning e.1 = some k'.path then (Text.strict e.2).map guess
          else none).getLast? := by
      rw [← hvalue]
      exact Option.or_none
    rw [hgiven, getLast?_filterMap_singleton, hkey, hstrict]
    by_cases hk : k' = k
    · subst hk
      rw [if_pos rfl, if_pos rfl]
      rfl
    · rw [if_neg hk, if_neg fun hpath => hk (Setting.path_injective (Option.some.inj hpath)).symm]

/-- A computer with one variable, the one for a setting. -/
def computerWith (beginning : String) (k : Setting) (text : String) : Computer where
  disk := Disk.ofList [([], .directory)]
  directory := []
  environment := [(Text.encode (beginning ++ "_" ++ k.variable.toUpper), Text.encode text)]

theorem onlyVariable_computerWith (beginning : String) (k : Setting) (text : String) :
    k.OnlyVariable beginning text (computerWith beginning k text).environment := by
  refine ⟨_, k.names_capitals beginning, ?_⟩
  show List.filter _ [_] = _
  rw [List.filter_cons, variableKey?_of_names (k.names_capitals beginning)]
  rfl

end RebasePlan.Settings
