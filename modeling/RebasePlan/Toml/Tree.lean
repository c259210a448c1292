import RebasePlan.Number.Binary64

/-!
# TOML statements and the table that they make up

A TOML text is a sequence of statements. An entry gives a value to a key; a header says where the
entries after it belong.

A name is given a value once. A table can be begun by a header, by a header of one of its tables,
or by a dotted key; what it was begun by decides who may still add to it. A header takes up a table
that was only begun by headers of its own tables; dotted keys add only to tables that they
themselves have begun. Values in brackets or braces are closed.
-/

namespace RebasePlan.Toml

/-! ## Values and statements -/

/-- A value in a TOML text. -/
inductive Value where
  | string (s : String)
  | integer (n : Int)
  | float (x : Binary64)
  | boolean (b : Bool)
  /-- A date, a time, or both, in its written form. -/
  | moment (text : String)
  | array (items : List Value)
  | table (entries : List (String × Value))

/-- A key: the names between its dots. -/
abbrev Key := List String

/-- A line, or several, of a TOML text. -/
inductive Statement where
  /-- A key and its value. -/
  | entry (key : Key) (value : Value)
  /-- The entries that follow belong to this table. -/
  | header (key : Key)
  /-- The entries that follow belong to a new table at the end of this array. -/
  | itemHeader (key : Key)

/-! ## Tables -/

/-- What a table was begun by. -/
inductive Beginning where
  /-- Its own header, or the text itself. -/
  | header
  /-- The header of one of its tables. -/
  | innerHeader
  /-- A dotted key. -/
  | dottedKey
  deriving DecidableEq, Repr

/-- What a name stands for while statements are put together. -/
inductive Node where
  /-- A value that is complete. -/
  | closed (value : Value)
  | table (beginning : Beginning) (entries : List (String × Node))
  /-- An array whose tables are each begun by a header. -/
  | tables (items : List (List (String × Node)))

/-- Names and what they stand for. -/
abbrev Entries := List (String × Node)

namespace Entries

/-- Gives a name that exists another node. -/
def replace (key : String) (node : Node) : Entries → Entries
  | [] => []
  | (k, n) :: rest => if k = key then (k, node) :: rest else (k, n) :: replace key node rest

/-- Goes along names from table to table and changes the entries of the last one. A table that is
    missing is begun; `dotted` says whether the names stand in a dotted key or in a header. -/
def change (dotted : Bool) (act : Beginning → Entries → Option Entries) :
    Key → Beginning → Entries → Option Entries
  | [], beginning, entries => act beginning entries
  | key :: path, _, entries =>
    match entries.lookup key with
    | none => do
      let beginning := if dotted then Beginning.dottedKey else .innerHeader
      let inner ← change dotted act path beginning []
      return entries ++ [(key, .table beginning inner)]
    | some (.table beginning inner) =>
      if dotted && beginning = .header then none
      else do
        let inner ← change dotted act path beginning inner
        return replace key (.table beginning inner) entries
    | some (.tables items) =>
      match items.reverse with
      | [] => none
      | last :: before => do
        let last ← change dotted act path .header last
        return replace key (.tables (last :: before).reverse) entries
    | some (.closed _) => none

/-- Adds a value under a key. A dotted key must end in a table that dotted keys have begun, any
    other in a table that they have not. -/
def add (key : Key) (value : Value) (beginning : Beginning) (entries : Entries) :
    Option Entries :=
  match key.reverse with
  | [] => none
  | last :: before =>
    let insert (b : Beginning) (entries : Entries) : Option Entries :=
      if (b == .dottedKey) == before.isEmpty then none
      else if (entries.lookup last).isSome then none
      else some (entries ++ [(last, .closed value)])
    change true insert before.reverse beginning entries

/-- Begins the table of a header. -/
def beginTable (last : String) (_ : Beginning) (entries : Entries) : Option Entries :=
  match entries.lookup last with
  | none => some (entries ++ [(last, .table .header [])])
  | some (.table .innerHeader inner) => some (replace last (.table .header inner) entries)
  | some _ => none

/-- Begins a new table at the end of an array. -/
def beginItem (last : String) (_ : Beginning) (entries : Entries) : Option Entries :=
  match entries.lookup last with
  | none => some (entries ++ [(last, .tables [[]])])
  | some (.tables items) => some (replace last (.tables (items ++ [[]])) entries)
  | some _ => none

/-- Changes the entries where the last name of a key belongs. -/
def changeParent (key : Key) (act : String → Beginning → Entries → Option Entries)
    (entries : Entries) : Option Entries :=
  match key.reverse with
  | [] => none
  | last :: before => change false (act last) before.reverse .header entries

/-- Puts statements together; entries belong to the table at `place`. -/
def addAll : Key → Entries → List Statement → Option Entries
  | _, entries, [] => some entries
  | place, entries, .entry key value :: rest => do
    let entries ← change false (add key value) place .header entries
    addAll place entries rest
  | _, entries, .header key :: rest => do
    let entries ← changeParent key beginTable entries
    addAll key entries rest
  | _, entries, .itemHeader key :: rest => do
    let entries ← changeParent key beginItem entries
    addAll key entries rest

end Entries

mutual

/-- The value that a node has in the end. -/
def Node.value : Node → Value
  | .closed value => value
  | .table _ entries => .table (Node.entryValues entries)
  | .tables items => .array (Node.itemValues items)

@[inherit_doc Node.value]
def Node.entryValues : List (String × Node) → List (String × Value)
  | [] => []
  | (key, node) :: rest => (key, node.value) :: Node.entryValues rest

@[inherit_doc Node.value]
def Node.itemValues : List (List (String × Node)) → List Value
  | [] => []
  | entries :: rest => .table (Node.entryValues entries) :: Node.itemValues rest

end

/-- The table that statements come to, unless one contradicts another. -/
def tableOf? (statements : List Statement) : Option (List (String × Value)) :=
  (Entries.addAll [] [] statements).map Node.entryValues

end RebasePlan.Toml
