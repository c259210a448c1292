import RebasePlan.Text.Parts

/-!
# Where a repository stands

The status header `## branch...tracked` names the branch that is checked out; the one-line
description of the head commit begins with its full name. Both readers take what git prints and
answer nothing if it is not there.
-/

namespace RebasePlan.Head

/-- The characters of a name in a status header. -/
def isNameChar (c : Char) : Bool := c != ' ' && c != '\t' && c != '\r' && c != '\n'

/-- What stands before the name of a branch without commits. -/
def unbornWordings : List (List Char) := ["No commits yet on ".toList, "Initial commit on ".toList]

/-- The name at the beginning of a text. -/
def name? (cs : List Char) : Option (List Char) :=
  match cs.takeWhile isNameChar with
  | [] => none
  | name => some name

/-- The name after one of the wordings for a branch without commits. -/
def unbornName? (cs : List Char) : Option (List Char) :=
  unbornWordings.findSome? fun wording =>
    if wording.isPrefixOf cs then name? (cs.drop wording.length) else none

/-- The name in a header line, which begins with two number signs and a space. The wording for a
    branch without commits counts only if a name follows it. -/
def headerName? : List Char → Option (List Char)
  | '#' :: '#' :: ' ' :: rest => (unbornName? rest).or (name? rest)
  | _ => none

/-- The lines of a text, each cut off at its line feed alone. -/
def rawLines (cs : List Char) : List (List Char) := Text.split (· == '\n') cs

/-- The name of a branch in a header's first word: up to the dots that lead to the branch it
    tracks. The word `HEAD` is no branch. -/
def branchOfName (name : List Char) : Option (List Char) :=
  if name = "HEAD".toList then none
  else
    match Text.cut ["...".toList] name with
    | some ([], _) => none
    | some (branch, _) => some branch
    | none => some name

/-- The branch that a short status names in its first header line. -/
def branch? (status : String) : Option String :=
  (((rawLines status.toList).findSome? headerName?).bind branchOfName).map String.ofList

/-- The length of a commit's full name. -/
def commitLength : Nat := 40

/-- The digits of a commit's name. -/
def isHexDigit (c : Char) : Bool :=
  ('0' ≤ c && c ≤ '9') || ('a' ≤ c && c ≤ 'f') || ('A' ≤ c && c ≤ 'F')

/-- Whether a word is a commit's full name. -/
def isCommit (word : List Char) : Bool := word.length == commitLength && word.all isHexDigit

/-- The first full commit name among the words of a text. -/
def commit? (shown : String) : Option String :=
  ((Text.words shown.toList).find? isCommit).map String.ofList

end RebasePlan.Head
