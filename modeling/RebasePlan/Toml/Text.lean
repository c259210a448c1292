import RebasePlan.Toml.Tree

/-!
# Blanks, comments, strings and keys of TOML

Control characters other than the tab stand nowhere in a TOML text, not even in a comment, and a
carriage return only in front of a line feed. A string stands between single or double quotes, one
or three of them; three let it run over several lines. In double quotes a backslash begins an
escape.
-/

namespace RebasePlan.Toml

/-- A reader takes what it reads from the beginning of a text and leaves the rest. -/
abbrev Reads (α : Type) := List Char → Option (α × List Char)

/-- The characters that may stand in strings and comments. -/
def isTextChar (c : Char) : Bool := c == '\t' || (0x20 ≤ c.toNat && c.toNat ≠ 0x7F)

/-- The characters between the parts of a line. -/
def isSpace (c : Char) : Bool := c == ' ' || c == '\t'

/-- The rest of a text behind spaces and tabs. -/
def skipSpace (cs : List Char) : List Char := cs.dropWhile isSpace

/-- The rest of a text behind a line end. -/
def newline? : List Char → Option (List Char)
  | '\n' :: rest => some rest
  | '\r' :: '\n' :: rest => some rest
  | _ => none

/-- The rest of a text behind what may end a line: blanks, a comment, a line end. -/
def lineEnd? (cs : List Char) : Option (List Char) :=
  let rest := match skipSpace cs with
    | '#' :: rest => rest.dropWhile isTextChar
    | rest => rest
  if rest.isEmpty then some [] else newline? rest

/-- The rest of a text behind blanks, line ends and comments. -/
def skipGap (inComment : Bool) : List Char → List Char
  | [] => []
  | '\n' :: rest => skipGap false rest
  | '\r' :: '\n' :: rest => skipGap false rest
  | c :: rest =>
    if inComment then if isTextChar c then skipGap true rest else c :: rest
    else if isSpace c then skipGap false rest
    else if c = '#' then skipGap true rest
    else c :: rest

/-- The rest of a text behind blanks and line ends. -/
def skipFill : List Char → List Char
  | [] => []
  | '\n' :: rest => skipFill rest
  | '\r' :: '\n' :: rest => skipFill rest
  | c :: rest => if isSpace c then skipFill rest else c :: rest

/-! ## Strings -/

/-- The character of a number, if there is one. -/
def charOf? (n : Nat) : Option Char :=
  if h : n.isValidChar then some (Char.ofNatAux n h) else none

/-- The character that `count` hexadecimal digits stand for. -/
def hexEscape (count : Nat) : Reads Char := fun cs =>
  let digits := cs.take count
  if digits.length = count && digits.all (Number.isDigitOf 16) then
    (charOf? (Number.ofDigits 16 digits)).map fun c => (c, cs.drop count)
  else none

/-- The character that is written behind a backslash. -/
def escape : Reads Char
  | 'b' :: rest => some ('\x08', rest)
  | 't' :: rest => some ('\t', rest)
  | 'n' :: rest => some ('\n', rest)
  | 'f' :: rest => some ('\x0c', rest)
  | 'r' :: rest => some ('\r', rest)
  | 'e' :: rest => some ('\x1b', rest)
  | '"' :: rest => some ('"', rest)
  | '\\' :: rest => some ('\\', rest)
  | 'x' :: rest => hexEscape 2 rest
  | 'u' :: rest => hexEscape 4 rest
  | 'U' :: rest => hexEscape 8 rest
  | _ => none

/-- How a string is written. -/
structure Quoting where
  quote : Char
  /-- Whether three quotes stand at either end. -/
  multiline : Bool
  /-- Whether a backslash begins an escape. -/
  escapes : Bool

/-- What a string of a quoting holds, up to the quotes that end it. Up to two more quotes in front
    of those belong to the string. The text is gone through in at most `fuel` steps. -/
def Quoting.body (q : Quoting) : Nat → Reads (List Char)
  | 0, _ => none
  | _, [] => none
  | fuel + 1, c :: rest =>
    if c = q.quote then
      if !q.multiline then some ([], rest)
      else
        let run := ((c :: rest).takeWhile (· == q.quote)).length
        if run < 3 then
          (q.body fuel rest).map fun (text, rest) => (c :: text, rest)
        else
          let extra := min (run - 3) 2
          some (List.replicate extra c, (c :: rest).drop (extra + 3))
    else if c = '\\' && q.escapes then
      match (if q.multiline then newline? (skipSpace rest) else none) with
      | some rest => q.body fuel (skipFill rest)
      | none => do
        let (e, rest) ← escape rest
        let (text, rest) ← q.body fuel rest
        return (e :: text, rest)
    else if isTextChar c || (q.multiline && c == '\n') then
      (q.body fuel rest).map fun (text, rest) => (c :: text, rest)
    else if q.multiline && c == '\r' && rest.head? == some '\n' then
      (q.body fuel rest).map fun (text, rest) => (c :: text, rest)
    else none

/-- Reads what a string holds. A line end directly behind three quotes does not belong to it. -/
def Quoting.read (q : Quoting) : Reads String := fun cs =>
  let cs := if q.multiline then (newline? cs).getD cs else cs
  (q.body cs.length cs).map fun (text, rest) => (String.ofList text, rest)

/-- Reads a string on one line. -/
def lineString : Reads String
  | '"' :: rest => Quoting.read ⟨'"', false, true⟩ rest
  | '\'' :: rest => Quoting.read ⟨'\'', false, false⟩ rest
  | _ => none

/-- Reads a string. -/
def string : Reads String
  | '"' :: '"' :: '"' :: rest => Quoting.read ⟨'"', true, true⟩ rest
  | '\'' :: '\'' :: '\'' :: rest => Quoting.read ⟨'\'', true, false⟩ rest
  | cs => lineString cs

/-! ## Keys -/

/-- The characters of a name without quotes. -/
def isBareChar (c : Char) : Bool := c.isAlphanum || c == '_' || c == '-'

/-- Reads one name of a key. -/
def name : Reads String := fun cs =>
  match cs with
  | '"' :: _ => lineString cs
  | '\'' :: _ => lineString cs
  | _ =>
    let bare := cs.takeWhile isBareChar
    if bare.isEmpty then none else some (String.ofList bare, cs.dropWhile isBareChar)

/-- Reads names with dots between them, at most `fuel` of them. -/
def names : Nat → Reads Key
  | 0, _ => none
  | fuel + 1, cs => do
    let (first, rest) ← name cs
    match skipSpace rest with
    | '.' :: more =>
      let (others, rest) ← names fuel (skipSpace more)
      return (first :: others, rest)
    | _ => return ([first], rest)

/-- Reads a key. -/
def key : Reads Key := fun cs => names (cs.length + 1) cs

end RebasePlan.Toml
