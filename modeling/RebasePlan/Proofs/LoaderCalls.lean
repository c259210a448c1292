import RebasePlan.Proofs.MergedValues

/-! # Calls that make a loader

    A loader is made by calls that add a file or a text, name the beginning of the
    variables, or set a value directly.  What it holds of one kind hangs on the calls of
    this kind only, in their order (`Loader.made?_eq`).  Of the values set directly for
    a setting it keeps the last (`Loader.exists_foldlM_assign?`). -/

namespace RebasePlan.Settings

/-! ## The calls -/

/-- A call on a loader. -/
inductive LoaderCall where
  | add (s : Source)
  | environment (beginning : String)
  | set (key : String) (value : Scalar)

namespace LoaderCall

/-- The loader after a call, unless a key is none. -/
def make? (l : Loader) : LoaderCall → Option Loader
  | add s => some (l.add s)
  | environment beginning => some (l.withVariables beginning)
  | set key value => l.set? key value

/-- The file or text that a call adds. -/
def source? : LoaderCall → Option Source
  | add s => some s
  | _ => none

/-- The beginning of variables that a call names. -/
def beginning? : LoaderCall → Option String
  | environment beginning => some beginning
  | _ => none

/-- The key and the value that a call sets. -/
def assignment? : LoaderCall → Option (String × Scalar)
  | set key value => some (key, value)
  | _ => none

end LoaderCall

/-- The files and texts that calls add. -/
def sourcesOf (calls : List LoaderCall) : List Source := calls.filterMap LoaderCall.source?

/-- The beginning of variables that counts: the last that was named. -/
def beginningOf (calls : List LoaderCall) : Option String :=
  (calls.filterMap LoaderCall.beginning?).getLast?

/-- The keys and values that calls set. -/
def assignmentsOf (calls : List LoaderCall) : List (String × Scalar) :=
  calls.filterMap LoaderCall.assignment?

namespace Loader

/-- The loader that calls make, unless a key is none. -/
def made? (calls : List LoaderCall) : Option Loader := calls.foldlM LoaderCall.make? {}

/-- The values set directly, with one more. -/
def assign? (overrides : List (Key × Value)) (e : String × Scalar) : Option (List (Key × Value)) :=
  (Key.read? e.1).map fun key => override key (.scalar none e.2) overrides

/-- By induction on the calls, their loader has the sources that they add, the last beginning that
    they name, and the values that they set on top of its own. -/
theorem foldlM_make? (l : Loader) (calls : List LoaderCall) :
    calls.foldlM LoaderCall.make? l =
      ((assignmentsOf calls).foldlM assign? l.overrides).map fun overrides =>
        ⟨l.sources ++ sourcesOf calls, (beginningOf calls).or l.variableStart, overrides⟩ := by
  induction calls generalizing l with
  | nil =>
      show some l = some (Loader.mk (l.sources ++ []) l.variableStart l.overrides)
      rw [List.append_nil]
  | cons call calls ih =>
      rw [List.foldlM_cons]
      cases call with
      | add s =>
          show calls.foldlM LoaderCall.make? (l.add s) = _
          rw [ih, show (l.add s).sources = l.sources ++ [s] from rfl, List.append_assoc]
          rfl
      | environment beginning =>
          show calls.foldlM LoaderCall.make? (l.withVariables beginning) = _
          have hbeginning : (beginningOf calls).or (some beginning)
              = (beginningOf (.environment beginning :: calls)).or l.variableStart := by
            rw [beginningOf, beginningOf, List.filterMap_cons]
            exact (getLast?_cons_or _ _ _).symm
          rw [ih, ← hbeginning]
          rfl
      | set key value =>
          show (l.set? key value).bind (fun l => calls.foldlM LoaderCall.make? l)
            = ((assign? l.overrides (key, value)).bind fun overrides =>
              (assignmentsOf calls).foldlM assign? overrides).map _
          rw [set?, assign?]
          cases Key.read? key with
          | none => rfl
          | some k => exact ih _

/-- **ONE LAYER DOES NOT ASK FOR ANOTHER**: a loader hangs on the files and texts in their order, on
    the last beginning of variables, and on the values set directly in their order. -/
theorem made?_eq (calls : List LoaderCall) :
    made? calls = ((assignmentsOf calls).foldlM assign? []).map fun overrides =>
      ⟨sourcesOf calls, beginningOf calls, overrides⟩ := by
  rw [made?, foldlM_make?]
  show Option.map (fun overrides => Loader.mk (sourcesOf calls) ((beginningOf calls).or none) _) _
    = _
  rw [Option.or_none]

/-! ## Values set directly -/

/-- A key that is set has the new value, and the other keys have what they had. -/
theorem lookup_override (key key' : Key) (v : Value) (overrides : List (Key × Value)) :
    (override key v overrides).lookup key'
      = if key' = key then some v else overrides.lookup key' := by
  induction overrides with
  | nil =>
      by_cases h : key' = key
      · simp [override, h]
      · simp [override, h, List.lookup_cons, beq_eq_false_iff_ne.mpr h]
  | cons e rest ih =>
      obtain ⟨k, old⟩ := e
      rw [override]
      by_cases hk : k = key
      · subst hk
        by_cases h : key' = k
        · simp [h]
        · simp [h, List.lookup_cons, beq_eq_false_iff_ne.mpr h]
      · by_cases h : key' = k
        · subst h
          simp [hk]
        · simp [hk, List.lookup_cons, beq_eq_false_iff_ne.mpr h, ih]

theorem mem_override {key : Key} {v : Value} {overrides : List (Key × Value)} {e : Key × Value}
    (he : e ∈ override key v overrides) : e = (key, v) ∨ e ∈ overrides := by
  induction overrides with
  | nil => exact .inl (List.mem_singleton.mp he)
  | cons first rest ih =>
      obtain ⟨k, old⟩ := first
      rw [override] at he
      split at he
      · rcases List.mem_cons.mp he with rfl | he
        · exact .inl rfl
        · exact .inr (List.mem_cons_of_mem _ he)
      · rcases List.mem_cons.mp he with rfl | he
        · exact .inr List.mem_cons_self
        · exact (ih he).imp id (List.mem_cons_of_mem _)

/-- Setting a key once more puts the new value in place of the old one, so no key stands there
    twice. -/
theorem nodup_override (key : Key) (v : Value) {overrides : List (Key × Value)}
    (once : (overrides.map Prod.fst).Nodup) :
    ((override key v overrides).map Prod.fst).Nodup := by
  induction overrides with
  | nil => exact List.pairwise_singleton _ _
  | cons first rest ih =>
      obtain ⟨k, old⟩ := first
      rw [List.map_cons, List.nodup_cons] at once
      rw [override]
      split
      · next hk => exact List.nodup_cons.mpr ⟨hk ▸ once.1, once.2⟩
      · next hk =>
        refine List.nodup_cons.mpr ⟨fun hmem => ?_, ih once.2⟩
        obtain ⟨e, he, heq⟩ := List.mem_map.mp hmem
        rcases mem_override he with rfl | he
        · exact hk heq.symm
        · exact once.1 (List.mem_map.mpr ⟨e, he, heq⟩)

/-- Values set directly: each setting at most once, and nothing but settings. -/
structure Direct (overrides : List (Key × Value)) : Prop where
  once : (overrides.map Prod.fst).Nodup
  setting : ∀ e ∈ overrides, ∃ (k : Setting) (s : Scalar), e.1 = k.key ∧ e.2.scalar? = some s

theorem Direct.nil : Direct [] := ⟨List.nodup_nil, fun _ he => nomatch he⟩

/-- A value that is set directly fits the place to which its key leads. -/
theorem Direct.fits {overrides : List (Key × Value)} (h : Direct overrides) :
    ∀ e ∈ overrides, e.1.Fits e.2 := by
  intro e he
  obtain ⟨k, s, hkey, hs⟩ := h.setting e he
  rw [hkey]
  exact .single k hs

/-- What the values set directly give to a setting, one after the other. -/
theorem Direct.getLast?_gives? {overrides : List (Key × Value)} (h : Direct overrides)
    (k : Setting) : (overrides.filterMap fun e => e.1.gives? e.2 k).getLast?
      = (overrides.lookup k.key).bind Value.scalar? := by
  rw [getLast?_filterMap_of_once h.once k.key fun e he hne => ?_]
  · refine congrArg (Option.bind _) (funext fun v => ?_)
    rw [Key.gives?_path, if_pos rfl]
  · obtain ⟨k', -, hkey, -⟩ := h.setting e he
    rw [hkey] at hne ⊢
    exact (Key.gives?_path k' k e.2).trans (if_neg fun heq => hne (congrArg Setting.key heq))

/-- Values are set for settings: the last one for each is kept. -/
theorem exists_foldlM_assign? {es : List (String × Scalar)}
    (hes : ∀ e ∈ es, ∃ k : Setting, e.1 = k.path) {overrides : List (Key × Value)}
    (h : Direct overrides) :
    ∃ overrides', es.foldlM assign? overrides = some overrides' ∧ Direct overrides' ∧
      ∀ k : Setting, (overrides'.lookup k.key).bind Value.scalar?
        = (es.filterMap fun e => if e.1 = k.path then some e.2 else none).getLast?.or
          ((overrides.lookup k.key).bind Value.scalar?) := by
  induction es generalizing overrides with
  | nil => exact ⟨overrides, rfl, h, fun _ => rfl⟩
  | cons e rest ih =>
      obtain ⟨k, hk⟩ := hes e List.mem_cons_self
      have hnext : Direct (override k.key (.scalar none e.2) overrides) := by
        refine ⟨nodup_override _ _ h.once, fun d hd => ?_⟩
        rcases mem_override hd with rfl | hd
        · exact ⟨k, e.2, rfl, rfl⟩
        · exact h.setting d hd
      obtain ⟨overrides', hfold, hdirect, hlast⟩ :=
        ih (fun d hd => hes d (List.mem_cons_of_mem _ hd)) hnext
      refine ⟨overrides', ?_, hdirect, fun k' => ?_⟩
      · rw [List.foldlM_cons, assign?, hk, Setting.read?_path]
        exact hfold
      · rw [hlast, lookup_override, List.filterMap_cons, hk]
        by_cases hkk : k = k'
        · subst hkk
          rw [if_pos rfl, if_pos rfl, Option.bind_some]
          exact (getLast?_cons_or _ _ _).symm
        · rw [if_neg fun heq => hkk (Setting.key_injective heq).symm,
            if_neg fun heq => hkk (Setting.path_injective heq)]

end Loader

end RebasePlan.Settings
