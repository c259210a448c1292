import RebasePlan.Proofs.SingleSettings

/-! # Values on top of values

    Values are put together one after the other: tables are joined name by name, a
    single value takes the place of what was there.  As long as all that is put keeps
    to the places of settings (`Key.Fits`), so does the result, and at the place of a
    setting stands what was put there last (`Entries.putEach_fits`). -/

namespace RebasePlan.Settings

/-! ## Names in a table -/

namespace Entries

variable {entries more : Entries} {name : String} {v : Value}

/-- An assigned name has the new value, and the other names have what they had. -/
theorem lookup_assign (name other : String) (v : Value) (entries : Entries) :
    (assign name v entries).lookup other
      = if other = name then some v else entries.lookup other := by
  induction entries with
  | nil =>
      by_cases h : other = name
      · simp [assign, h]
      · simp [assign, h, List.lookup_cons, beq_eq_false_iff_ne.mpr h]
  | cons e rest ih =>
      obtain ⟨n, old⟩ := e
      rw [assign]
      by_cases hn : n = name
      · subst hn
        by_cases h : other = n
        · simp [h]
        · simp [h, List.lookup_cons, beq_eq_false_iff_ne.mpr h]
      · by_cases h : other = n
        · subst h
          simp [hn]
        · simp [hn, List.lookup_cons, beq_eq_false_iff_ne.mpr h, ih]

theorem mem_assign {e : String × Value} (he : e ∈ assign name v entries) :
    e = (name, v) ∨ e ∈ entries := by
  induction entries with
  | nil => exact .inl (List.mem_singleton.mp he)
  | cons first rest ih =>
      obtain ⟨n, old⟩ := first
      rw [assign] at he
      split at he
      · next hn =>
        rcases List.mem_cons.mp he with rfl | he
        · exact .inl (by rw [hn])
        · exact .inr (List.mem_cons_of_mem _ he)
      · rcases List.mem_cons.mp he with rfl | he
        · exact .inr List.mem_cons_self
        · exact (ih he).imp id (List.mem_cons_of_mem _)

end Entries

theorem Value.over_of_scalar? {v : Value} {s : Scalar} (h : v.scalar? = some s)
    (old : Option Value) : v.over old = v := by
  obtain ⟨origin, rfl⟩ := Value.eq_scalar_of_scalar? h
  simp [Value.over]

/-- Single values of different names take the places of their names. -/
theorem Entries.lookup_over {entries old : Entries} (once : (entries.map Prod.fst).Nodup)
    (single : ∀ e ∈ entries, e.2.scalar?.isSome) (name : String) :
    (Entries.over entries old).lookup name = (entries.lookup name).or (old.lookup name) := by
  induction entries generalizing old with
  | nil => rw [Entries.over, List.lookup_nil, Option.none_or]
  | cons e rest ih =>
      obtain ⟨n, v⟩ := e
      rw [List.map_cons, List.nodup_cons] at once
      obtain ⟨s, hs⟩ := Option.isSome_iff_exists.mp (single _ List.mem_cons_self)
      rw [Entries.over, ih once.2 (fun e he => single e (List.mem_cons_of_mem _ he)),
        Value.over_of_scalar? hs, Entries.lookup_assign, List.lookup_cons]
      by_cases h : name = n
      · subst h
        have hnone : rest.lookup name = none := List.lookup_eq_none_iff.mpr fun e he => by
          simpa using fun heq => once.1 (List.mem_map.mpr ⟨e, he, heq.symm⟩)
        rw [if_pos rfl, hnone, beq_self_eq_true]
        rfl
      · rw [if_neg h, beq_eq_false_iff_ne.mpr h]

theorem Entries.mem_over {entries old : Entries}
    (single : ∀ e ∈ entries, e.2.scalar?.isSome) {e : String × Value}
    (he : e ∈ Entries.over entries old) : e ∈ entries ∨ e ∈ old := by
  induction entries generalizing old with
  | nil => exact .inr (by rwa [Entries.over] at he)
  | cons first rest ih =>
      obtain ⟨n, v⟩ := first
      obtain ⟨s, hs⟩ := Option.isSome_iff_exists.mp (single _ List.mem_cons_self)
      rw [Entries.over, Value.over_of_scalar? hs] at he
      rcases ih (fun e he => single e (List.mem_cons_of_mem _ he)) he with he | he
      · exact .inl (List.mem_cons_of_mem _ he)
      · rcases Entries.mem_assign he with rfl | he
        · exact .inl List.mem_cons_self
        · exact .inr he

/-- A table on top of another is the two joined; on top of anything else it stands alone. -/
theorem Value.entries?_over (origin : Option String) (entries : Entries) (old : Option Value) :
    ((Value.table origin entries).over old).entries?
      = some (Entries.over entries ((old.bind Value.entries?).getD [])) := by
  cases old with
  | none =>
      rw [Value.over]
      · rfl
      · exact fun _ _ h => nomatch h
  | some v =>
      cases v with
      | table origin before =>
          rw [Value.over]
          rfl
      | scalar | list =>
          rw [Value.over]
          · rfl
          · exact fun _ _ h => nomatch Option.some.inj h

/-- A single value put under a name is assigned to this name in the table that is there, or in a new
    one. -/
theorem Value.entries?_put_name {v : Value} {s : Scalar} (h : v.scalar? = some s) (name : String)
    (old : Option Value) :
    (v.put [.name name] old).entries?
      = some (Entries.assign name v ((old.bind Value.entries?).getD [])) := by
  rw [Value.put.eq_def]
  dsimp only
  rw [Value.put, Value.over_of_scalar? h]
  cases old with
  | none => rfl
  | some w => cases w <;> rfl

/-! ## The tables of sections -/

section

variable {home : Section} {entries old : Entries} {name : String} {v : Value}

/-- A single value for a setting of the section leaves a table with settings of this section. -/
theorem Section.Keeps.assign (h : home.Keeps entries) (hname : name ∈ home.settings)
    (hv : v.scalar?.isSome) : home.Keeps (Entries.assign name v entries) where
  known := fun e he => by
    rcases Entries.mem_assign he with rfl | he
    · exact hname
    · exact h.known e he
  single := fun e he => by
    rcases Entries.mem_assign he with rfl | he
    · exact hv
    · exact h.single e he

theorem Section.Keeps.over (h : home.Keeps entries) (hold : home.Keeps old) :
    home.Keeps (Entries.over entries old) where
  known := fun e he => (Entries.mem_over h.single he).elim (h.known e) (hold.known e)
  single := fun e he => (Entries.mem_over h.single he).elim (h.single e) (hold.single e)

/-- A table with settings of a section may be assigned to the name of this section. -/
theorem Entries.Orderly.assign (h : entries.Orderly) {k : Setting} {inner : Entries}
    (hv : v.entries? = some inner) (hinner : k.home.Keeps inner) :
    (Entries.assign k.home.name v entries).Orderly := by
  intro e he
  rcases Entries.mem_assign he with rfl | he
  · exact ⟨k, inner, rfl, hv, hinner⟩
  · exact h e he

/-- Another table at the place of a section changes the settings of this section only. -/
theorem Entries.at?_assign {k : Setting} {inner : Entries} (hv : v.entries? = some inner)
    (k' : Setting) :
    (Entries.assign k.home.name v entries).at? k' = if k'.home.name = k.home.name
      then (inner.lookup k'.name).bind Value.scalar? else entries.at? k' := by
  rw [Entries.at?, Entries.within, Entries.lookup_assign]
  split
  · rw [Option.bind_some, hv, Option.getD_some]
  · rfl

end

/-! ## Putting values where keys lead -/

/-- A key leads to a section, with a table that keeps to it, or to a setting, with a single
    value. -/
inductive Key.Fits : Key → Value → Prop where
  | table (k : Setting) {v : Value} {inner : Entries} (table : v.entries? = some inner)
      (once : (inner.map Prod.fst).Nodup) (keeps : k.home.Keeps inner) :
      Fits ⟨k.home.name, []⟩ v
  | single (k : Setting) {v : Value} {s : Scalar} (single : v.scalar? = some s) : Fits k.key v

/-- The single value that a setting is given by a value where a key leads. -/
def Key.gives? (key : Key) (v : Value) (k : Setting) : Option Scalar :=
  if key.first = k.home.name then
    match key.steps with
    | [] => ((v.entries?.getD []).lookup k.name).bind Value.scalar?
    | step :: _ => if step = .name k.name then v.scalar? else none
  else none

/-- The key of a setting gives its value to this setting and to no other. -/
theorem Key.gives?_path (k k' : Setting) (v : Value) :
    k.key.gives? v k' = if k = k' then v.scalar? else none := by
  by_cases h : k = k'
  · subst h
    rw [if_pos rfl]
    exact (if_pos rfl).trans (if_pos rfl)
  · rw [if_neg h, gives?]
    split
    · next hhome =>
      exact if_neg fun hstep => h (Setting.eq_of_place hhome (Step.name.inj hstep))
    · rfl

/-- **ONE VALUE MORE**: at the place of a setting stands what a new value gives to it, or else what
    stood there before. -/
theorem Entries.put_fits {entries : Entries} (h : entries.Orderly) {key : Key} {v : Value}
    (hfits : key.Fits v) :
    (entries.put key v).Orderly ∧
      ∀ k, (entries.put key v).at? k = (key.gives? v k).or (entries.at? k) := by
  cases hfits with
  -- a table is joined with that of its section, and only names in it are changed
  | @table k v inner table once keeps =>
      obtain ⟨origin, rfl⟩ := Value.eq_table_of_entries? table
      have hover := Value.entries?_over origin inner (entries.lookup k.home.name)
      refine ⟨h.assign hover (keeps.over (h.keeps_within k)), fun k' => ?_⟩
      rw [Entries.put, Value.put, Entries.at?_assign hover, Key.gives?]
      by_cases hhome : k'.home.name = k.home.name
      · rw [if_pos hhome, if_pos hhome.symm, Entries.lookup_over once keeps.single, Entries.at?,
          Setting.home_eq_of_name hhome]
        show _ = ((inner.lookup k'.name).bind Value.scalar?).or _
        cases hname : inner.lookup k'.name with
        | none => rfl
        | some w =>
            obtain ⟨s, hs⟩ := Option.isSome_iff_exists.mp (keeps.single _ (mem_of_lookup hname))
            rw [Option.some_or, Option.bind_some, hs]
            rfl
      · rw [if_neg hhome, if_neg (Ne.symm hhome), Option.none_or]
  -- a single value goes into the table of its section, which is made where it is missing
  | @single k v s single =>
      have hput := Value.entries?_put_name single k.name (entries.lookup k.home.name)
      have hkeeps : k.home.Keeps (Entries.assign k.name v (entries.within k.home)) :=
        (h.keeps_within k).assign k.name_mem (Option.isSome_iff_exists.mpr ⟨s, single⟩)
      refine ⟨h.assign hput hkeeps, fun k' => ?_⟩
      rw [Key.gives?_path]
      show (Entries.assign k.home.name (v.put [.name k.name] (entries.lookup k.home.name))
        entries).at? k' = _
      rw [Entries.at?_assign hput, Entries.lookup_assign]
      by_cases hk : k = k'
      · subst hk
        rw [if_pos rfl, if_pos rfl, if_pos rfl, single]
        exact single
      · rw [if_neg hk, Option.none_or]
        split
        · next hhome =>
          rw [if_neg fun hname => hk (Setting.eq_of_place hhome.symm hname.symm), Entries.at?,
            Entries.within, hhome]
        · rfl

theorem getLast?_cons_or {α : Type} (x : α) (xs : List α) (other : Option α) :
    (x :: xs).getLast?.or other = xs.getLast?.or (some x) := by
  rw [List.getLast?_cons]
  cases xs.getLast? <;> rfl

/-- Where a name stands once, the last thing that is said of it is what is said of its value. -/
theorem getLast?_filterMap_of_once {α β γ : Type} [DecidableEq α] {entries : List (α × β)}
    (once : (entries.map Prod.fst).Nodup) (name : α) {f : α × β → Option γ}
    (hf : ∀ e ∈ entries, e.1 ≠ name → f e = none) :
    (entries.filterMap f).getLast? = (entries.lookup name).bind fun v => f (name, v) := by
  induction entries with
  | nil => rfl
  | cons e rest ih =>
      obtain ⟨n, v⟩ := e
      rw [List.map_cons, List.nodup_cons] at once
      have hrest := ih once.2 fun e he => hf e (List.mem_cons_of_mem _ he)
      rw [List.filterMap_cons, List.lookup_cons]
      by_cases hn : n = name
      · subst hn
        have hnone : rest.lookup n = none := List.lookup_eq_none_iff.mpr fun e he => by
          simpa using fun heq => once.1 (List.mem_map.mpr ⟨e, he, heq.symm⟩)
        rw [hnone, Option.bind_none, List.getLast?_eq_none_iff] at hrest
        rw [hrest, beq_self_eq_true]
        show _ = f (n, v)
        cases f (n, v) <;> rfl
      · rw [hf _ List.mem_cons_self hn, beq_eq_false_iff_ne.mpr (Ne.symm hn)]
        exact hrest

/-- Values that are put one after the other. -/
def Entries.putEach (entries : Entries) (values : List (Key × Value)) : Entries :=
  values.foldl (fun entries e => entries.put e.1 e.2) entries

/-- **VALUES ON TOP OF VALUES**: at the place of a setting stands what it was given last. -/
theorem Entries.putEach_fits {entries : Entries} (h : entries.Orderly) {values : List (Key × Value)}
    (hfits : ∀ e ∈ values, e.1.Fits e.2) :
    (entries.putEach values).Orderly ∧ ∀ k, (entries.putEach values).at? k
      = (values.filterMap fun e => e.1.gives? e.2 k).getLast?.or (entries.at? k) := by
  induction values generalizing entries with
  | nil => exact ⟨h, fun k => rfl⟩
  | cons e rest ih =>
      obtain ⟨hput, hat⟩ := Entries.put_fits h (hfits e List.mem_cons_self)
      obtain ⟨hrest, hlast⟩ := ih hput fun e he => hfits e (List.mem_cons_of_mem _ he)
      refine ⟨hrest, fun k => ?_⟩
      rw [show entries.putEach (e :: rest) = (entries.put e.1 e.2).putEach rest from rfl, hlast,
        hat, List.filterMap_cons]
      cases e.1.gives? e.2 k with
      | none => rw [Option.none_or]
      | some s => rw [Option.some_or, getLast?_cons_or]

/-- The values of a source on top of others. -/
theorem Entries.putAll_fits {entries source : Entries} (h : entries.Orderly)
    (hfits : ∀ e ∈ source, (Key.ofName e.1).Fits e.2) :
    (entries.putAll source).Orderly ∧ ∀ k, (entries.putAll source).at? k
      = (source.filterMap fun e => (Key.ofName e.1).gives? e.2 k).getLast?.or (entries.at? k) := by
  have hput : entries.putAll source
      = entries.putEach (source.map fun e => (Key.ofName e.1, e.2)) := by
    rw [putAll, putEach, List.foldl_map]
  have hmap : ∀ e ∈ source.map fun e => (Key.ofName e.1, e.2), e.1.Fits e.2 := by
    intro e he
    obtain ⟨d, hd, rfl⟩ := List.mem_map.mp he
    exact hfits d hd
  obtain ⟨horderly, hat⟩ := putEach_fits h hmap
  rw [hput]
  refine ⟨horderly, fun k => ?_⟩
  rw [hat, List.filterMap_map]
  rfl

end RebasePlan.Settings
