import RebasePlan.Proofs.MergedValues
import RebasePlan.Proofs.TomlNames

/-! # Settings in files and texts

    A file or text that holds nothing but settings, each in the table of its section,
    can be put on top of other values, and what it then gives to a setting is what its
    table holds for it (`exists_sourceEntries`).  That no name stands twice in a table
    makes this one value. -/

namespace RebasePlan.Settings

/-! ## What a table holds -/

/-- The single value that a TOML value is. -/
def tomlScalar? : Toml.Value → Option Scalar
  | .string s => some (.text s)
  | .integer n => some (.integer n)
  | .float x => some (.float x)
  | .boolean b => some (.boolean b)
  | .moment s => some (.text s)
  | .array _ | .table _ => none

/-- What a table holds for a setting. -/
def tableValue? (table : List (String × Toml.Value)) (k : Setting) : Option Scalar :=
  match table.lookup k.home.name with
  | some (.table inner) => (inner.lookup k.name).bind tomlScalar?
  | _ => none

/-- A table holds nothing but settings with values that they accept, each in the table of its
    section. -/
def HoldsSettings (accepts : Setting → Scalar → Prop) (table : List (String × Toml.Value)) : Prop :=
  ∀ e ∈ table, (∃ k : Setting, e.1 = k.home.name) ∧ ∃ inner, e.2 = .table inner ∧
    ∀ d ∈ inner, ∃ (k : Setting) (v : Scalar), e.1 = k.home.name ∧ d.1 = k.name ∧
      tomlScalar? d.2 = some v ∧ accepts k v

variable {accepts : Setting → Scalar → Prop} {c : Computer}

/-- What a table holds for a setting is accepted by it. -/
theorem HoldsSettings.accepts_of_tableValue? {table : List (String × Toml.Value)}
    (h : HoldsSettings accepts table) {k : Setting} {v : Scalar}
    (hv : tableValue? table k = some v) : accepts k v := by
  rw [tableValue?] at hv
  split at hv
  · next inner hinner =>
    obtain ⟨before, after, rfl, -⟩ := List.lookup_eq_some_iff.mp hinner
    obtain ⟨-, inner', heq, hvalues⟩ := h _ (List.mem_append_right _ List.mem_cons_self)
    obtain rfl := Toml.Value.table.inj heq
    obtain ⟨w, hw, hscalar⟩ := Option.bind_eq_some_iff.mp hv
    obtain ⟨before', after', hsplit, -⟩ := List.lookup_eq_some_iff.mp hw
    obtain ⟨k', v', hhome, hname, hscalar', haccepts⟩ :=
      hvalues (k.name, w) (hsplit ▸ List.mem_append_right _ List.mem_cons_self)
    obtain rfl := Setting.eq_of_place hhome hname
    obtain rfl := Option.some.inj (hscalar.symm.trans hscalar')
    exact haccepts
  · exact nomatch hv

/-! ## From a table to values -/

theorem entriesOfToml_eq_map (origin : Option String) (table : List (String × Toml.Value)) :
    Value.entriesOfToml origin table = table.map fun e => (e.1, Value.ofToml origin e.2) := by
  induction table with
  | nil => rfl
  | cons e rest ih => rw [Value.entriesOfToml, List.map_cons, ih]

theorem scalar?_ofToml (origin : Option String) (v : Toml.Value) :
    (Value.ofToml origin v).scalar? = tomlScalar? v := by
  cases v <;> rfl

/-- What is found under a name is what was written under it. -/
theorem lookup_entriesOfToml (origin : Option String) (table : List (String × Toml.Value))
    (name : String) : (Value.entriesOfToml origin table).lookup name
      = (table.lookup name).map (Value.ofToml origin) := by
  rw [entriesOfToml_eq_map]
  induction table with
  | nil => rfl
  | cons e rest ih =>
      rw [List.map_cons, List.lookup_cons, List.lookup_cons]
      cases name == e.1 with
      | true => rfl
      | false => exact ih

/-- The entries of a table that holds settings can be put where they belong. -/
theorem HoldsSettings.fits {table : List (String × Toml.Value)}
    (h : HoldsSettings accepts table) (tidy : (Toml.Value.table table).Tidy)
    (origin : Option String) :
    ∀ e ∈ Value.entriesOfToml origin table, (Key.ofName e.1).Fits e.2 := by
  intro e he
  rw [entriesOfToml_eq_map] at he
  obtain ⟨d, hd, rfl⟩ := List.mem_map.mp he
  obtain ⟨⟨k, hname⟩, inner, hinner, hvalues⟩ := h d hd
  cases tidy with
  | table once each =>
      have hd_tidy := each d hd
      rw [hinner] at hd_tidy
      cases hd_tidy with
      | table once' each' =>
          show (Key.ofName d.1).Fits (Value.ofToml origin d.2)
          rw [hname, hinner, Setting.ofName_home]
          refine @Key.Fits.table k _ (Value.entriesOfToml origin inner) rfl ?_ ⟨?_, ?_⟩
          · rw [entriesOfToml_eq_map, List.map_map]
            exact once'
          · intro x hx
            rw [entriesOfToml_eq_map] at hx
            obtain ⟨y, hy, rfl⟩ := List.mem_map.mp hx
            obtain ⟨k', v, hhome, hy', -⟩ := hvalues y hy
            show y.1 ∈ k.home.settings
            rw [hy', Setting.home_eq_of_name (hname.symm.trans hhome)]
            exact k'.name_mem
          · intro x hx
            rw [entriesOfToml_eq_map] at hx
            obtain ⟨y, hy, rfl⟩ := List.mem_map.mp hx
            obtain ⟨k', v, -, -, hv, -⟩ := hvalues y hy
            rw [scalar?_ofToml, hv]
            rfl

/-- What the entries of a table give to a setting is what the table holds for it. -/
theorem HoldsSettings.getLast?_gives? {table : List (String × Toml.Value)}
    (h : HoldsSettings accepts table) (tidy : (Toml.Value.table table).Tidy)
    (origin : Option String) (k : Setting) :
    ((Value.entriesOfToml origin table).filterMap fun e => (Key.ofName e.1).gives? e.2 k).getLast?
      = tableValue? table k := by
  have once : ((Value.entriesOfToml origin table).map Prod.fst).Nodup := by
    rw [entriesOfToml_eq_map, List.map_map]
    cases tidy with
    | table once each => exact once
  rw [getLast?_filterMap_of_once once k.home.name, lookup_entriesOfToml, tableValue?]
  · cases hv : table.lookup k.home.name with
    | none => rfl
    | some v =>
        obtain ⟨before, after, htable, -⟩ := List.lookup_eq_some_iff.mp hv
        obtain ⟨-, inner, rfl, -⟩ := h (k.home.name, v)
          (htable ▸ List.mem_append_right _ List.mem_cons_self)
        show (Key.ofName k.home.name).gives? (Value.ofToml origin (.table inner)) k = _
        rw [Setting.ofName_home, Key.gives?, if_pos rfl]
        show ((Value.entriesOfToml origin inner).lookup k.name).bind Value.scalar?
          = (inner.lookup k.name).bind tomlScalar?
        rw [lookup_entriesOfToml]
        cases inner.lookup k.name with
        | none => rfl
        | some w => exact scalar?_ofToml origin w
  · intro e he hne
    rw [entriesOfToml_eq_map] at he
    obtain ⟨d, hd, rfl⟩ := List.mem_map.mp he
    obtain ⟨⟨k', hname⟩, -⟩ := h d hd
    show (Key.ofName d.1).gives? (Value.ofToml origin d.2) k = none
    change d.1 ≠ k.home.name at hne
    rw [hname] at hne ⊢
    rw [Setting.ofName_home, Key.gives?, if_neg hne]

/-! ## One file or text after the other -/

/-- The table in a file or text. A file that is not required counts as empty where there is none. -/
def Source.table? (c : Computer) : Source → Option (List (String × Toml.Value))
  | .text content => Toml.read? content
  | .file p required =>
    match fileOf? c p with
    | some found => (c.disk.read c.directory found).toOption.bind fun bytes =>
      Toml.read? (Text.lossy (withoutMarkBytes bytes))
    | none => if required then none else some []

/-- A source that can be read gives the entries of its table, in which no name stands twice. -/
theorem Source.entries_of_table? {s : Source} {table : List (String × Toml.Value)}
    (h : s.table? c = some table) :
    (Toml.Value.table table).Tidy ∧
      ∃ origin, s.entries c = .ok (Value.entriesOfToml origin table) := by
  have htext {origin : Option String} {content : String} (hread : Toml.read? content = some table) :
      entriesOfText origin content = .ok (Value.entriesOfToml origin table) := by
    rw [entriesOfText, hread]
  cases s with
  | text content => exact ⟨Toml.tidy_of_read? h, none, htext h⟩
  | file p required =>
      rw [Source.table?] at h
      rw [Source.entries]
      cases hfile : fileOf? c p with
      | some found =>
          rw [hfile] at h
          obtain ⟨bytes, hbytes, hread⟩ := Option.bind_eq_some_iff.mp h
          refine ⟨Toml.tidy_of_read? hread, some (found.relative c.directory).text, ?_⟩
          show entriesOfFile c found = _
          rw [entriesOfFile]
          cases hdisk : c.disk.read c.directory found with
          | error e =>
              rw [hdisk] at hbytes
              cases hbytes
          | ok content =>
              rw [hdisk] at hbytes
              obtain rfl := Option.some.inj hbytes
              exact htext hread
      | none =>
          rw [hfile] at h
          cases required with
          | true => cases h
          | false =>
              obtain rfl := Option.some.inj h
              exact ⟨.table List.nodup_nil fun _ he => absurd he List.not_mem_nil, none, rfl⟩

/-- Sources with nothing but settings can be merged, and of each setting the last value counts. -/
theorem exists_sourceEntries {sources : List Source}
    (h : ∀ s ∈ sources, ∃ table, s.table? c = some table ∧ HoldsSettings accepts table)
    {entries : Entries} (hentries : entries.Orderly) :
    ∃ entries', Loader.sourceEntries c sources entries = .ok entries' ∧ entries'.Orderly ∧
      ∀ k, entries'.at? k = (sources.filterMap fun s =>
        (s.table? c).bind fun table => tableValue? table k).getLast?.or (entries.at? k) := by
  induction sources generalizing entries with
  | nil => exact ⟨entries, rfl, hentries, fun _ => rfl⟩
  | cons s rest ih =>
      obtain ⟨table, htable, hholds⟩ := h s List.mem_cons_self
      obtain ⟨tidy, origin, hs⟩ := Source.entries_of_table? htable
      obtain ⟨hnext, hat⟩ := Entries.putAll_fits hentries (hholds.fits tidy origin)
      obtain ⟨entries', hrest, hentries', hlast⟩ :=
        ih (fun s hs => h s (List.mem_cons_of_mem _ hs)) hnext
      refine ⟨entries', ?_, hentries', fun k => ?_⟩
      · rw [Loader.sourceEntries, hs]
        exact hrest
      · rw [hlast, hat, hholds.getLast?_gives? tidy origin k, List.filterMap_cons, htable,
          Option.bind_some]
        cases tableValue? table k with
        | none => rfl
        | some v => exact (getLast?_cons_or _ _ _).symm

end RebasePlan.Settings
