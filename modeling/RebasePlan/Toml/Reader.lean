import RebasePlan.Text.Parts
import RebasePlan.Toml.Scalar
import RebasePlan.Toml.Tree

/-!
# Reading TOML

A text is read statement by statement, and the statements are put together to a table. A text that
breaks a rule of the language has no table; where and why it does is not kept.
-/

namespace RebasePlan.Toml

/-- Arrays and tables in braces may stand this deep within each other. -/
def maxDepth : Nat := 80

/-- Reads items with commas between them, up to a closing character. A comma may also stand behind
    the last item, and gaps between any two parts. -/
def items {α : Type} (item : Reads α) (close : Char) : Nat → Reads (List α)
  | 0, _ => none
  | fuel + 1, cs =>
    let cs := skipGap false cs
    if cs.head? = some close then some ([], cs.tail)
    else do
      let (x, cs) ← item cs
      match skipGap false cs with
      | [] => none
      | c :: rest =>
        if c = ',' then
          let (xs, rest) ← items item close fuel rest
          return (x :: xs, rest)
        else if c = close then return ([x], rest)
        else none

/-- Reads a key and its value. -/
def entry (value : Reads Value) : Reads (Key × Value) := fun cs => do
  let (key, cs) ← key cs
  let (_, cs) ← mark '=' (skipSpace cs)
  let (v, cs) ← value (skipSpace cs)
  return ((key, v), cs)

/-- The table in braces that some entries come to. -/
def inlineTable? (entries : List (Key × Value)) : Option Value :=
  (tableOf? (entries.map fun (key, value) => .entry key value)).map .table

/-- Reads a value with at most `depth` arrays and tables within each other. -/
def value : Nat → Reads Value
  | depth, cs =>
    match depth, cs with
    | depth + 1, '[' :: rest =>
      (items (value depth) ']' (rest.length + 1) rest).map fun (xs, rest) => (.array xs, rest)
    | depth + 1, '\x7b' :: rest => do
      let (entries, rest) ← items (entry (value depth)) '\x7d' (rest.length + 1) rest
      let table ← inlineTable? entries
      return (table, rest)
    | _, cs => (string cs).map (fun (s, rest) => (.string s, rest)) <|> plain cs

/-- Reads what stands between the brackets of a header, and the closing ones. -/
def headerKey (closing : List Char) : Reads Key := fun cs => do
  let (key, cs) ← key (skipSpace cs)
  let cs := skipSpace cs
  if closing.isPrefixOf cs then return (key, cs.drop closing.length) else none

/-- Reads a statement. -/
def statement : Reads Statement
  | '[' :: '[' :: rest => (headerKey [']', ']'] rest).map fun (key, rest) => (.itemHeader key, rest)
  | '[' :: rest => (headerKey [']'] rest).map fun (key, rest) => (.header key, rest)
  | cs => (entry (value maxDepth) cs).map fun ((key, v), rest) => (.entry key v, rest)

/-- Reads a whole text of at most `fuel` lines. -/
def statements? : Nat → List Char → Option (List Statement)
  | 0, cs => if cs.isEmpty then some [] else none
  | fuel + 1, cs =>
    if cs.isEmpty then some []
    else
      match lineEnd? cs with
      | some rest => statements? fuel rest
      | none => do
        let (first, rest) ← statement (skipSpace cs)
        let rest ← lineEnd? rest
        let others ← statements? fuel rest
        return first :: others

/-- The table that a text describes. -/
def read? (text : String) : Option (List (String × Value)) :=
  let cs := Text.withoutMark text.toList
  (statements? cs.length cs).bind tableOf?

end RebasePlan.Toml
