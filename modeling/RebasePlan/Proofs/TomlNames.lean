import RebasePlan.Toml.Reader

/-! # Names in TOML texts

    In a table that is read from a text every name stands once, and so it does in
    all tables within it (`Toml.tidy_of_read?`).  Statements are put together by
    acts that change the entries of one table (`Entries.change`): it is enough that
    each act keeps entries tidy (`Entries.Keeps`), since the way to the table only
    replaces what is there or adds a name that is missing. -/

namespace RebasePlan.Toml

/-- Every name stands once, here and in all tables within. -/
inductive Value.Tidy : Value → Prop where
  | string (s : String) : Tidy (.string s)
  | integer (n : Int) : Tidy (.integer n)
  | float (x : Binary64) : Tidy (.float x)
  | boolean (b : Bool) : Tidy (.boolean b)
  | moment (text : String) : Tidy (.moment text)
  | array {items : List Value} (each : ∀ v ∈ items, Tidy v) : Tidy (.array items)
  | table {entries : List (String × Value)} (once : (entries.map Prod.fst).Nodup)
      (each : ∀ e ∈ entries, Tidy e.2) : Tidy (.table entries)

@[inherit_doc Value.Tidy]
inductive Node.Tidy : Node → Prop where
  | closed {v : Value} (tidy : v.Tidy) : Tidy (.closed v)
  | table {beginning : Beginning} {entries : List (String × Node)}
      (once : (entries.map Prod.fst).Nodup) (each : ∀ e ∈ entries, Tidy e.2) :
      Tidy (.table beginning entries)
  | tables {items : List (List (String × Node))}
      (once : ∀ entries ∈ items, (entries.map Prod.fst).Nodup)
      (each : ∀ entries ∈ items, ∀ e ∈ entries, Tidy e.2) : Tidy (.tables items)

@[inherit_doc Value.Tidy]
structure Entries.Tidy (entries : Entries) : Prop where
  once : (entries.map Prod.fst).Nodup
  each : ∀ e ∈ entries, e.2.Tidy

/-! ## Changing one table -/

namespace Entries

variable {entries entries' : Entries} {key : String} {node : Node}

theorem tidy_nil : Entries.Tidy [] := ⟨List.nodup_nil, fun _ he => nomatch he⟩

theorem map_fst_replace (key : String) (node : Node) (entries : Entries) :
    (replace key node entries).map Prod.fst = entries.map Prod.fst := by
  induction entries with
  | nil => rfl
  | cons e rest ih =>
      rw [replace]
      split
      · rfl
      · rw [List.map_cons, List.map_cons, ih]

theorem mem_replace {e : String × Node} (he : e ∈ replace key node entries) :
    e = (key, node) ∨ e ∈ entries := by
  induction entries with
  | nil => exact absurd he (List.not_mem_nil)
  | cons first rest ih =>
      rw [replace] at he
      split at he
      · next hk =>
        rcases List.mem_cons.mp he with rfl | he
        · exact .inl (by rw [hk])
        · exact .inr (List.mem_cons_of_mem _ he)
      · rcases List.mem_cons.mp he with rfl | he
        · exact .inr List.mem_cons_self
        · exact (ih he).imp id (List.mem_cons_of_mem _)

/-- A tidy value may take the place of another. -/
theorem Tidy.replace (h : entries.Tidy) (hnode : node.Tidy) :
    (Entries.replace key node entries).Tidy where
  once := by
    rw [map_fst_replace]
    exact h.once
  each := fun e he => by
    rcases mem_replace he with rfl | he
    · exact hnode
    · exact h.each e he

/-- A tidy value may be added under a name that is not there. -/
theorem Tidy.concat (h : entries.Tidy) (hkey : entries.lookup key = none) (hnode : node.Tidy) :
    Entries.Tidy (entries ++ [(key, node)]) where
  once := by
    rw [List.map_append, List.map_singleton]
    refine List.nodup_append.mpr ⟨h.once, List.pairwise_singleton _ _, fun n hn m hm heq => ?_⟩
    obtain ⟨e, he, rfl⟩ := List.mem_map.mp hn
    have hne := List.lookup_eq_none_iff.mp hkey e he
    rw [heq, List.mem_singleton.mp hm] at hne
    exact absurd hne (by simp)
  each := fun e he => by
    rcases List.mem_append.mp he with he | he
    · exact h.each e he
    · rw [List.mem_singleton.mp he]
      exact hnode

/-- What is found in tidy entries is tidy. -/
theorem Tidy.of_lookup (h : entries.Tidy) (hkey : entries.lookup key = some node) :
    node.Tidy := by
  obtain ⟨before, after, rfl, -⟩ := List.lookup_eq_some_iff.mp hkey
  exact h.each (key, node) (List.mem_append_right _ List.mem_cons_self)

theorem Tidy.of_table {beginning : Beginning} (h : (Node.table beginning entries).Tidy) :
    entries.Tidy := by
  cases h with
  | table once each => exact ⟨once, each⟩

theorem Tidy.toTable (h : entries.Tidy) (beginning : Beginning) :
    (Node.table beginning entries).Tidy := .table h.once h.each

theorem tidy_tables_iff {items : List Entries} :
    (Node.tables items).Tidy ↔ ∀ entries ∈ items, entries.Tidy := by
  constructor
  · intro h
    cases h with
    | tables once each => exact fun entries he => ⟨once entries he, each entries he⟩
  · exact fun h => .tables (fun entries he => (h entries he).once)
      (fun entries he => (h entries he).each)

/-- What an act makes of tidy entries is tidy. -/
def Keeps (act : Beginning → Entries → Option Entries) : Prop :=
  ∀ ⦃beginning entries entries'⦄, Tidy entries → act beginning entries = some entries' →
    Tidy entries'

variable {act : Beginning → Entries → Option Entries}

/-- **AN ACT FURTHER IN**: an act that keeps entries tidy does so at the end of any path. -/
theorem Keeps.change (hact : Keeps act) (dotted : Bool) (path : Key) :
    Keeps (Entries.change dotted act path) := by
  induction path with
  | nil => exact fun _ _ _ h heq => hact h heq
  | cons key path ih =>
      intro beginning entries entries' h heq
      rw [Entries.change] at heq
      -- on what the first name of the path stands for
      split at heq
      · next hkey =>
        obtain ⟨inner, hinner, heq⟩ := Option.bind_eq_some_iff.mp heq
        obtain rfl := Option.some.inj heq
        exact h.concat hkey ((ih tidy_nil hinner).toTable _)
      · next b inner hkey =>
        split at heq
        · exact absurd heq (by simp)
        · obtain ⟨inner', hinner, heq⟩ := Option.bind_eq_some_iff.mp heq
          obtain rfl := Option.some.inj heq
          exact h.replace ((ih (.of_table (h.of_lookup hkey)) hinner).toTable _)
      · next items hkey =>
        have hitems := tidy_tables_iff.mp (h.of_lookup hkey)
        split at heq
        · exact absurd heq (by simp)
        · next last before hrev =>
          have hmem : ∀ es ∈ last :: before, Tidy es := fun es hes =>
            hitems es (List.mem_reverse.mp (hrev ▸ hes))
          obtain ⟨last', hlast, heq⟩ := Option.bind_eq_some_iff.mp heq
          obtain rfl := Option.some.inj heq
          refine h.replace (tidy_tables_iff.mpr fun es hes => ?_)
          rcases List.mem_cons.mp (List.mem_reverse.mp hes) with rfl | hes
          · exact ih (hmem last List.mem_cons_self) hlast
          · exact hmem es (List.mem_cons_of_mem _ hes)
      · exact absurd heq (by simp)

/-- An entry is added only under a name that is missing, at the end of its dotted key. -/
theorem keeps_add (key : Key) {value : Value} (hvalue : value.Tidy) :
    Keeps (add key value) := by
  intro beginning entries entries' h heq
  rw [add] at heq
  split at heq
  · exact absurd heq (by simp)
  · refine Keeps.change (fun b es es' hes hins => ?_) true _ h heq
    split at hins
    · exact absurd hins (by simp)
    · split at hins
      · exact absurd hins (by simp)
      · next hnone =>
        obtain rfl := Option.some.inj hins
        exact hes.concat (Option.not_isSome_iff_eq_none.mp hnone) (.closed hvalue)

/-- A header begins a table without entries, or goes on with one that is there. -/
theorem keeps_beginTable (last : String) : Keeps (beginTable last) := by
  intro beginning entries entries' h heq
  rw [beginTable] at heq
  split at heq
  · next hkey =>
    obtain rfl := Option.some.inj heq
    exact h.concat hkey (tidy_nil.toTable _)
  · next inner hkey =>
    obtain rfl := Option.some.inj heq
    exact h.replace ((Tidy.of_table (h.of_lookup hkey)).toTable _)
  · exact absurd heq (by simp)

/-- A header of an item puts a table without entries behind those that are there. -/
theorem keeps_beginItem (last : String) : Keeps (beginItem last) := by
  intro beginning entries entries' h heq
  rw [beginItem] at heq
  split at heq
  · next hkey =>
    obtain rfl := Option.some.inj heq
    refine h.concat hkey (tidy_tables_iff.mpr fun es hes => ?_)
    rw [List.mem_singleton.mp hes]
    exact tidy_nil
  · next items hkey =>
    obtain rfl := Option.some.inj heq
    refine h.replace (tidy_tables_iff.mpr fun es hes => ?_)
    rcases List.mem_append.mp hes with hes | hes
    · exact tidy_tables_iff.mp (h.of_lookup hkey) es hes
    · rw [List.mem_singleton.mp hes]
      exact tidy_nil
  · exact absurd heq (by simp)

/-- An act at the end of a header's key keeps entries tidy if it does so in one table. -/
theorem Tidy.changeParent (h : entries.Tidy) {act : String → Beginning → Entries → Option Entries}
    (hact : ∀ last, Keeps (act last)) {key : Key}
    (heq : Entries.changeParent key act entries = some entries') : entries'.Tidy := by
  rw [Entries.changeParent] at heq
  split at heq
  · exact absurd heq (by simp)
  · exact (hact _).change _ _ h heq

end Entries

/-! ## Putting statements together -/

/-- The value of an entry is tidy. -/
def Statement.Tidy : Statement → Prop
  | .entry _ value => value.Tidy
  | .header _ | .itemHeader _ => True

/-- By induction on the statements, each is one of these three acts. -/
theorem Entries.Tidy.addAll {statements : List Statement}
    (hstatements : ∀ statement ∈ statements, statement.Tidy) {place : Key}
    {entries entries' : Entries} (h : entries.Tidy)
    (heq : Entries.addAll place entries statements = some entries') : entries'.Tidy := by
  induction statements generalizing place entries with
  | nil =>
      obtain rfl := Option.some.inj heq
      exact h
  | cons statement rest ih =>
      have hrest : ∀ s ∈ rest, s.Tidy := fun s hs => hstatements s (List.mem_cons_of_mem _ hs)
      have hfirst := hstatements statement List.mem_cons_self
      cases statement with
      | entry key value =>
          obtain ⟨next, hnext, heq⟩ := Option.bind_eq_some_iff.mp heq
          exact ih hrest ((keeps_add key hfirst).change _ _ h hnext) heq
      | header key =>
          obtain ⟨next, hnext, heq⟩ := Option.bind_eq_some_iff.mp heq
          exact ih hrest (h.changeParent keeps_beginTable hnext) heq
      | itemHeader key =>
          obtain ⟨next, hnext, heq⟩ := Option.bind_eq_some_iff.mp heq
          exact ih hrest (h.changeParent keeps_beginItem hnext) heq

theorem Node.entryValues_eq_map (entries : List (String × Node)) :
    Node.entryValues entries = entries.map fun e => (e.1, e.2.value) := by
  induction entries with
  | nil => rfl
  | cons e rest ih => rw [entryValues, List.map_cons, ih]

theorem Node.itemValues_eq_map (items : List (List (String × Node))) :
    Node.itemValues items = items.map fun entries => .table (Node.entryValues entries) := by
  induction items with
  | nil => rfl
  | cons entries rest ih => rw [itemValues, List.map_cons, ih]

/-- Where every name stands once and every value is tidy, so is the table. -/
theorem Node.tidy_table_entryValues {entries : List (String × Node)}
    (once : (entries.map Prod.fst).Nodup) (each : ∀ e ∈ entries, e.2.value.Tidy) :
    (Value.table (Node.entryValues entries)).Tidy := by
  rw [entryValues_eq_map]
  refine .table ?_ fun e he => ?_
  · rw [List.map_map]
    exact once
  · obtain ⟨node, hnode, rfl⟩ := List.mem_map.mp he
    exact each node hnode

/-- What was tidy while it was put together is tidy as a value. -/
theorem Node.Tidy.value {node : Node} (h : node.Tidy) : node.value.Tidy := by
  induction h with
  | closed tidy => exact tidy
  | table once _ ih => exact tidy_table_entryValues once ih
  | tables once _ ih =>
      rw [Node.value, itemValues_eq_map]
      refine .array fun v hv => ?_
      obtain ⟨entries, he, rfl⟩ := List.mem_map.mp hv
      exact tidy_table_entryValues (once entries he) (ih entries he)

/-- A table that is made of statements with tidy values is tidy. -/
theorem tidy_of_tableOf? {statements : List Statement} {table : List (String × Value)}
    (hstatements : ∀ statement ∈ statements, statement.Tidy)
    (heq : tableOf? statements = some table) : (Value.table table).Tidy := by
  obtain ⟨entries, hentries, rfl⟩ := Option.map_eq_some_iff.mp heq
  have h := Entries.tidy_nil.addAll hstatements hentries
  exact Node.tidy_table_entryValues h.once fun e he => (h.each e he).value

/-! ## Reading -/

theorem exists_of_map {α β : Type} {f : α → β} {read : Option (α × List Char)} {y : β}
    {rest : List Char} (h : read.map (fun (x, rest) => (f x, rest)) = some (y, rest)) :
    ∃ x, read = some (x, rest) ∧ f x = y := by
  obtain ⟨⟨x, rest'⟩, hread, hpair⟩ := Option.map_eq_some_iff.mp h
  obtain ⟨hy, rfl⟩ := Prod.mk.inj hpair
  exact ⟨x, hread, hy⟩

/-- A reader gives only tidy values. -/
def ReadsTidy (read : Reads Value) : Prop := ∀ ⦃cs v rest⦄, read cs = some (v, rest) → v.Tidy

/-- What holds of each item that is read holds of all items between brackets. -/
theorem forall_of_items {α : Type} {item : Reads α} {P : α → Prop} {close : Char}
    (hitem : ∀ ⦃cs x rest⦄, item cs = some (x, rest) → P x) :
    ∀ {fuel : Nat} {cs rest : List Char} {xs : List α},
      items item close fuel cs = some (xs, rest) → ∀ x ∈ xs, P x := by
  intro fuel
  induction fuel with
  | zero => intro _ _ _ heq; exact absurd heq (by simp [items])
  | succ fuel ih =>
      intro cs rest xs heq
      rw [items] at heq
      split at heq
      · obtain ⟨rfl, -⟩ := Prod.mk.inj (Option.some.inj heq)
        exact fun _ hx => nomatch hx
      · obtain ⟨⟨first, cs'⟩, hfirst, heq⟩ := Option.bind_eq_some_iff.mp heq
        dsimp only at heq
        split at heq
        · exact absurd heq (by simp)
        · split at heq
          · obtain ⟨⟨others, rest'⟩, hothers, heq⟩ := Option.bind_eq_some_iff.mp heq
            obtain ⟨rfl, -⟩ := Prod.mk.inj (Option.some.inj heq)
            exact List.forall_mem_cons.mpr ⟨hitem hfirst, ih hothers⟩
          · split at heq
            · obtain ⟨rfl, -⟩ := Prod.mk.inj (Option.some.inj heq)
              exact List.forall_mem_singleton.mpr (hitem hfirst)
            · exact absurd heq (by simp)

/-- An entry has a tidy value if its reader gives only such. -/
theorem tidy_of_entry {read : Reads Value} (h : ReadsTidy read) {cs rest : List Char}
    {key : Key} {v : Value} (heq : entry read cs = some ((key, v), rest)) : v.Tidy := by
  obtain ⟨_, _, heq⟩ := Option.bind_eq_some_iff.mp heq
  obtain ⟨_, _, heq⟩ := Option.bind_eq_some_iff.mp heq
  obtain ⟨⟨v', rest'⟩, hv, heq⟩ := Option.bind_eq_some_iff.mp heq
  obtain ⟨hpair, -⟩ := Prod.mk.inj (Option.some.inj heq)
  obtain ⟨-, rfl⟩ := Prod.mk.inj hpair
  exact h hv

/-- A value without quotes or brackets holds no table. -/
theorem tidy_of_plain? {cs : List Char} {v : Value} (heq : plain? cs = some v) : v.Tidy := by
  have hmap {α : Type} {f : α → Value} (hf : ∀ x, (f x).Tidy) {o : Option α}
      (ho : o.map f = some v) : v.Tidy := by
    obtain ⟨x, -, rfl⟩ := Option.map_eq_some_iff.mp ho
    exact hf x
  rw [plain?.eq_def] at heq
  split at heq
  · obtain rfl := Option.some.inj heq
    exact .boolean true
  · split at heq
    · obtain rfl := Option.some.inj heq
      exact .boolean false
    · split at heq
      · exact hmap .integer heq
      · exact hmap .integer heq
      · exact hmap .integer heq
      · rw [Option.orElse_eq_orElse, Option.orElse_eq_or] at heq
        rcases Option.or_eq_some_iff.mp heq with heq | ⟨-, heq⟩
        · exact hmap (fun _ => .moment _) heq
        · rw [Option.orElse_eq_or] at heq
          rcases Option.or_eq_some_iff.mp heq with heq | ⟨-, heq⟩
          · exact hmap .integer heq
          · exact hmap .float heq

/-- So it is where its end has to be found first. -/
theorem readsTidy_plain : ReadsTidy plain := by
  intro cs v rest heq
  have hmap {o : Option Value} {tail : List Char} (ho : ∀ w, o = some w → w.Tidy)
      (h : o.map (fun w => (w, tail)) = some (v, rest)) : v.Tidy := by
    obtain ⟨w, hw, hpair⟩ := Option.map_eq_some_iff.mp h
    obtain ⟨rfl, -⟩ := Prod.mk.inj hpair
    exact ho w hw
  rw [plain] at heq
  dsimp only at heq
  split at heq
  · split at heq
    · exact hmap (fun _ => tidy_of_plain?) heq
    · exact hmap (fun _ => tidy_of_plain?) heq
  · exact hmap (fun _ => tidy_of_plain?) heq

/-- A table between braces is made of its entries as of statements. -/
theorem tidy_of_inlineTable? {entries : List (Key × Value)} {v : Value}
    (hentries : ∀ e ∈ entries, e.2.Tidy) (heq : inlineTable? entries = some v) : v.Tidy := by
  obtain ⟨table, htable, rfl⟩ := Option.map_eq_some_iff.mp heq
  refine tidy_of_tableOf? (fun statement hs => ?_) htable
  obtain ⟨e, he, rfl⟩ := List.mem_map.mp hs
  exact hentries e he

/-- By induction on the depth, a value is a single one, an array of values, or a table of them. -/
theorem readsTidy_value (depth : Nat) : ReadsTidy (value depth) := by
  have hsingle {cs rest : List Char} {v : Value}
      (heq : ((string cs).map (fun read => (Value.string read.1, read.2)) <|> plain cs)
        = some (v, rest)) : v.Tidy := by
    rw [Option.orElse_eq_orElse, Option.orElse_eq_or] at heq
    rcases Option.or_eq_some_iff.mp heq with heq | ⟨-, heq⟩
    · obtain ⟨s, -, rfl⟩ := exists_of_map heq
      exact .string s
    · exact readsTidy_plain heq
  induction depth with
  | zero =>
      intro cs v rest heq
      rw [value.eq_def] at heq
      exact hsingle heq
  | succ depth ih =>
      intro cs v rest heq
      rw [value.eq_def] at heq
      dsimp only at heq
      split at heq
      · next _ hdepth =>
        obtain rfl := Nat.succ.inj hdepth
        obtain ⟨xs, hxs, rfl⟩ := exists_of_map heq
        exact .array (forall_of_items ih hxs)
      · next _ hdepth =>
        obtain rfl := Nat.succ.inj hdepth
        obtain ⟨⟨entries, rest'⟩, hentries, heq⟩ := Option.bind_eq_some_iff.mp heq
        obtain ⟨table, htable, heq⟩ := Option.bind_eq_some_iff.mp heq
        obtain ⟨rfl, -⟩ := Prod.mk.inj (Option.some.inj heq)
        exact tidy_of_inlineTable? (forall_of_items (fun _ _ _ h => tidy_of_entry ih h) hentries)
          htable
      · exact hsingle heq

/-- A statement that is read has a tidy value, if it has one. -/
theorem tidy_of_statement {cs rest : List Char} {s : Statement}
    (heq : statement cs = some (s, rest)) : s.Tidy := by
  rw [statement.eq_def] at heq
  split at heq
  · obtain ⟨_, -, rfl⟩ := exists_of_map heq
    trivial
  · obtain ⟨_, -, rfl⟩ := exists_of_map heq
    trivial
  · obtain ⟨_, hentry, rfl⟩ :=
      exists_of_map (f := fun e : Key × Value => Statement.entry e.1 e.2) heq
    exact tidy_of_entry (readsTidy_value maxDepth) hentry

/-- So have all statements of a text. -/
theorem forall_tidy_of_statements? {fuel : Nat} {cs : List Char} {statements : List Statement}
    (heq : statements? fuel cs = some statements) : ∀ s ∈ statements, s.Tidy := by
  induction fuel generalizing cs statements with
  | zero =>
      rw [statements?] at heq
      split at heq
      · obtain rfl := Option.some.inj heq
        exact fun _ hs => nomatch hs
      · exact absurd heq (by simp)
  | succ fuel ih =>
      rw [statements?] at heq
      split at heq
      · obtain rfl := Option.some.inj heq
        exact fun _ hs => nomatch hs
      · split at heq
        · exact ih heq
        · obtain ⟨⟨first, rest⟩, hfirst, heq⟩ := Option.bind_eq_some_iff.mp heq
          obtain ⟨rest', -, heq⟩ := Option.bind_eq_some_iff.mp heq
          obtain ⟨others, hothers, heq⟩ := Option.bind_eq_some_iff.mp heq
          obtain rfl := Option.some.inj heq
          exact List.forall_mem_cons.mpr ⟨tidy_of_statement hfirst, ih hothers⟩

/-- **EVERY NAME STANDS ONCE** in a table that is read from a text, and in all tables within. -/
theorem tidy_of_read? {text : String} {table : List (String × Value)}
    (heq : read? text = some table) : (Value.table table).Tidy := by
  obtain ⟨statements, hstatements, htable⟩ := Option.bind_eq_some_iff.mp heq
  exact tidy_of_tableOf? (forall_tidy_of_statements? hstatements) htable

end RebasePlan.Toml
