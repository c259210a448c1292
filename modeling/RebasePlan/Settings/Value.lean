import RebasePlan.Toml.Tree

/-!
# Values before they become settings, and keys

A source of settings gives values of several kinds, and what a setting takes may be of another kind.
A value remembers where it was written, for messages.

A key leads to a value through tables by names and through lists by positions, as in `a.b[0]`. What
stands on the way is made if it is missing, and replaced if it is of another kind. Tables that meet
are joined name by name; any other value takes the place of what was there.
-/

namespace RebasePlan.Settings

/-! ## Values -/

/-- A value without parts. -/
inductive Scalar where
  | nothing
  | boolean (b : Bool)
  | integer (n : Int)
  | unsigned (n : Nat)
  | float (x : Binary64)
  | text (s : String)
  deriving DecidableEq, Repr

/-- A value of a source, with the place where it was written. -/
inductive Value where
  | scalar (origin : Option String) (s : Scalar)
  | list (origin : Option String) (items : List Value)
  | table (origin : Option String) (entries : List (String × Value))

/-- Names and their values. -/
abbrev Entries := List (String × Value)

mutual

/-- A value of a TOML text that was read from `origin`. -/
def Value.ofToml (origin : Option String) : Toml.Value → Value
  | .string s => .scalar origin (.text s)
  | .integer n => .scalar origin (.integer n)
  | .float x => .scalar origin (.float x)
  | .boolean b => .scalar origin (.boolean b)
  | .moment s => .scalar origin (.text s)
  | .array items => .list origin (Value.itemsOfToml origin items)
  | .table entries => .table origin (Value.entriesOfToml origin entries)

@[inherit_doc Value.ofToml]
def Value.itemsOfToml (origin : Option String) : List Toml.Value → List Value
  | [] => []
  | v :: rest => Value.ofToml origin v :: Value.itemsOfToml origin rest

@[inherit_doc Value.ofToml]
def Value.entriesOfToml (origin : Option String) : List (String × Toml.Value) → Entries
  | [] => []
  | (name, v) :: rest => (name, Value.ofToml origin v) :: Value.entriesOfToml origin rest

end

/-! ## Keys -/

/-- One step of a key. -/
inductive Step where
  | name (name : String)
  /-- A position in a list; a negative one counts from the end. -/
  | position (n : Int)
  deriving DecidableEq, Repr

/-- A key: the first name, and the steps behind it. -/
structure Key where
  first : String
  steps : List Step
  deriving DecidableEq, Repr

namespace Key

/-- The characters of a name in a key. -/
def isNameChar (c : Char) : Bool := c.isAlphanum || c == '_' || c == '-'

/-- Reads a name. -/
def name? (cs : List Char) : Option (String × List Char) :=
  let name := cs.takeWhile isNameChar
  if name.isEmpty then none else some (String.ofList name, cs.dropWhile isNameChar)

/-- The rest of a text behind spaces and tabs. -/
def skipSpace (cs : List Char) : List Char := cs.dropWhile fun c => c == ' ' || c == '\t'

/-- Reads a position and the bracket behind it. -/
def position? (cs : List Char) : Option (Int × List Char) := do
  let cs := skipSpace cs
  let minus := if cs.head? = some '-' then ['-'] else []
  let rest := cs.drop minus.length
  let n ← Number.signed? (minus ++ rest.takeWhile Number.isDigit)
  match skipSpace (rest.dropWhile Number.isDigit) with
  | ']' :: rest => return (n, rest)
  | _ => none

/-- Reads the steps of a key, at most `fuel` of them. -/
def steps? : Nat → List Char → Option (List Step)
  | _, [] => some []
  | 0, _ => none
  | fuel + 1, c :: rest =>
    if c = '.' then do
      let (name, rest) ← name? rest
      return .name name :: (← steps? fuel rest)
    else if c = '[' then do
      let (n, rest) ← position? rest
      return .position n :: (← steps? fuel rest)
    else none

/-- Reads a key. -/
def read? (text : String) : Option Key := do
  let (first, rest) ← name? text.toList
  return ⟨first, ← steps? rest.length rest⟩

/-- The key that a source means by a name: a text that is no key is a name as a whole. -/
def ofName (name : String) : Key := (read? name).getD ⟨name, []⟩

end Key

/-- Gives a name a value, at its place if it has one and at the end otherwise. -/
def Entries.assign (name : String) (v : Value) : Entries → Entries
  | [] => [(name, v)]
  | (n, old) :: rest => if n = name then (n, v) :: rest else (n, old) :: Entries.assign name v rest

mutual

/-- The value that stands where there was another one before. -/
def Value.over : Value → Option Value → Value
  | .table _ entries, some (.table origin old) => .table origin (Entries.over entries old)
  | .table _ entries, _ => .table none (Entries.over entries [])
  | v, _ => v

/-- Tables are joined name by name. -/
def Entries.over : Entries → Entries → Entries
  | [], old => old
  | (name, v) :: rest, old => Entries.over rest (Entries.assign name (v.over (old.lookup name)) old)

end

/-- A value that stands for nothing. -/
def Value.nothing : Value := .scalar none .nothing

/-- The list in which a position is sure to exist, and that position. -/
def makeRoom (items : List Value) (n : Int) : List Value × Nat :=
  let fill (count : Nat) := List.replicate count Value.nothing
  if 0 ≤ n then (items ++ fill (n.toNat + 1 - items.length), n.toNat)
  else
    let back := (-n).toNat
    if back ≤ items.length then (items, items.length - back)
    else (fill (back - items.length) ++ items, 0)

/-- Follows steps from a value and puts another one at their end. -/
def Value.put (v : Value) : List Step → Option Value → Value
  | [], old => v.over old
  | .name name :: steps, old =>
    let (origin, entries) := match old with
      | some (.table origin entries) => (origin, entries)
      | _ => (none, [])
    .table origin (Entries.assign name (v.put steps (entries.lookup name)) entries)
  | .position n :: steps, old =>
    let (origin, items) := match old with
      | some (.list origin items) => (origin, items)
      | _ => (none, [])
    let (items, place) := makeRoom items n
    .list origin (items.set place (v.put steps items[place]?))

/-- Puts a value where a key leads. -/
def Entries.put (entries : Entries) (key : Key) (v : Value) : Entries :=
  Entries.assign key.first (v.put key.steps (entries.lookup key.first)) entries

/-- Puts the values of a source where their names lead. -/
def Entries.putAll (entries : Entries) (source : Entries) : Entries :=
  source.foldl (fun entries (name, v) => entries.put (Key.ofName name) v) entries

end RebasePlan.Settings
