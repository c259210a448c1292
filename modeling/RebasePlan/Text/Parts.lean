/-!
# The parts of a text

A text has blanks at its ends, words between blanks, and lines; and it can be cut where a pattern
begins.

Blank is what Unicode's `White_Space` property says. A line ends at a line feed; a carriage return
directly before that line feed belongs to the line end. Nothing after the last line feed is no line,
and a carriage return elsewhere is an ordinary character. A byte order mark in front of a text is no
part of it.
-/

namespace RebasePlan.Text

/-! ## Blanks and words -/

/-- The twenty-five characters that Unicode calls white space. -/
def isBlank (c : Char) : Bool :=
  let n := c.toNat
  (0x09 ≤ n && n ≤ 0x0D) || n == 0x20 || n == 0x85 || n == 0xA0 || n == 0x1680 ||
    (0x2000 ≤ n && n ≤ 0x200A) || n == 0x2028 || n == 0x2029 || n == 0x202F || n == 0x205F ||
    n == 0x3000

/-- A text without the blanks it begins with. -/
def trimStart (cs : List Char) : List Char := cs.dropWhile isBlank

/-- A text without the blanks it ends with. -/
def trimEnd (cs : List Char) : List Char := (cs.reverse.dropWhile isBlank).reverse

/-- A text without the blanks at either end. -/
def trim (cs : List Char) : List Char := trimEnd (trimStart cs)

/-- Cuts a list at every element that satisfies `p`, and drops those elements. -/
def split {α : Type} (p : α → Bool) : List α → List (List α)
  | [] => [[]]
  | x :: xs =>
    if p x then [] :: split p xs
    else match split p xs with
      | [] => [[x]]
      | piece :: pieces => (x :: piece) :: pieces

/-- The maximal runs of characters that are not blank. -/
def words (cs : List Char) : List (List Char) :=
  (split isBlank cs).filter fun piece => !piece.isEmpty

/-! ## Lines -/

/-- The lines of a text, without their line ends. -/
def lines : List Char → List (List Char)
  | [] => []
  | '\n' :: cs => [] :: lines cs
  | '\r' :: '\n' :: cs => [] :: lines cs
  | c :: cs => match lines cs with
    | [] => [[c]]
    | line :: rest => (c :: line) :: rest

/-- The first line of a text, empty if there is none. -/
def firstLine (s : String) : String :=
  match lines s.toList with
  | [] => ""
  | line :: _ => String.ofList line

/-- The mark that some editors put in front of a text. -/
def byteOrderMark : Char := '\uFEFF'

/-- A text without the byte order mark in front of it. -/
def withoutMark : List Char → List Char
  | [] => []
  | c :: cs => if c = byteOrderMark then cs else c :: cs

/-! ## Cuts -/

/-- The text before and after the first place where one of the patterns begins; the pattern itself
    belongs to neither. -/
def cut (patterns : List (List Char)) : List Char → Option (List Char × List Char)
  | [] => none
  | c :: cs =>
    match patterns.find? (·.isPrefixOf (c :: cs)) with
    | some pattern => some ([], (c :: cs).drop pattern.length)
    | none => (cut patterns cs).map fun (before, after) => (c :: before, after)

/-- Every occurrence of a pair of equal characters, taken from the left, becomes one character. -/
def replacePair (pair replacement : Char) : List Char → List Char
  | a :: b :: cs =>
    if a = pair && b = pair then replacement :: replacePair pair replacement cs
    else a :: replacePair pair replacement (b :: cs)
  | cs => cs

end RebasePlan.Text

namespace RebasePlan

/-- The text without the blanks at either end. -/
def trimmed (s : String) : String := String.ofList (Text.trim s.toList)

end RebasePlan
