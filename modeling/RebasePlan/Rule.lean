import RebasePlan.Error
import RebasePlan.Text.Parts
import RebasePlan.Text.Utf8

/-!
# Rules and plans

A rule names a branch and its new base. A plan is a list of rules, carried out from the first to
the last.

A plan file holds one rule a line, `branch -> base` or `branch => base`. Blank lines and lines that
begin with `#` do not count. A base that is just `^` stands for the branch of the rule above. The
first line that is wrong ends the reading.

The two sides of a line are found by one scan over its characters, `sides`. `sidesByOffset` finds
them by the bytes of the line: it searches for each separator by itself and slices the line at the
smaller offset.
-/

namespace RebasePlan

/-- Check out `branch`, then rebase it onto `base`. -/
structure Rule where
  /-- The branch or commit that is checked out and rebased. -/
  branch : String
  /-- Where it is rebased to. -/
  base : String
  deriving DecidableEq, Repr

/-- The printed form of a rule. -/
def Rule.text (r : Rule) : String := r.branch ++ " -> " ++ r.base

/-- Rules in the order in which they are carried out. -/
abbrev Plan := List Rule

/-- The printed form of a plan, one rule a line. -/
def Plan.text (plan : Plan) : String := "\n".intercalate (plan.map Rule.text)

/-! ## Reading a plan -/

namespace Rule

/-- What may stand between a branch and its base. -/
def separators : List (List Char) := [['-', '>'], ['=', '>']]

/-- A base that stands for the branch of the rule above. -/
def chainMark : List Char := ['^']

/-- What a line of a plan file says, before its chain mark is resolved. -/
inductive Line where
  /-- A blank line or a comment. -/
  | insignificant
  /-- Two sides around a separator, neither of them blank. -/
  | rule (branch base : List Char)
  /-- Anything else. -/
  | malformed
  deriving DecidableEq, Repr

/-- The two sides of a line, cut at the first separator and trimmed; none of them may be empty. -/
def sides (line : List Char) : Option (List Char × List Char) :=
  match Text.cut separators line with
  | none => none
  | some (left, right) =>
    let branch := Text.trim left
    let base := Text.trim right
    if branch.isEmpty || base.isEmpty then none else some (branch, base)

/-- Where each separator begins for the first time, in bytes, each of them searched for by itself.
    -/
def separatorOffsets (line : String) : List (Nat × List Char) :=
  separators.filterMap fun s => (Text.offset? (Text.bytesOf s) (Text.encode line)).map (·, s)

/-- The smallest of these offsets, with its separator. -/
def firstOffset? (line : String) : Option (Nat × List Char) :=
  (separatorOffsets line).minOn? Prod.fst

/-- The two parts of a line, trimmed; none of them may be empty. -/
def trimmedSides (left right : String) : Option (String × String) :=
  if (trimmed left).isEmpty || (trimmed right).isEmpty then none
  else some (trimmed left, trimmed right)

/-- The two sides of a line as text, sliced at the smallest offset and behind the separator. -/
def sidesByOffset (line : String) : Except Text.SliceError (Option (String × String)) :=
  match firstOffset? line with
  | none => .ok none
  | some (start, separator) => do
    let left ← Text.sliceTo line start
    let right ← Text.sliceFrom line (start + (Text.bytesOf separator).length)
    return trimmedSides left right

/-- Reads one line. -/
def Line.read (raw : List Char) : Line :=
  match Text.trim raw with
  | [] => .insignificant
  | '#' :: _ => .insignificant
  | line => match sides line with
    | some (branch, base) => .rule branch base
    | none => .malformed

end Rule

/-- A rule with the number of the line that it stands on. -/
structure NumberedRule where
  line : Nat
  rule : Rule
  deriving DecidableEq, Repr

/-- How far a plan file could be read: the rules up to the first wrong line, and what is wrong with
    that line. -/
structure Reading where
  accepted : List NumberedRule
  stop : Option InputError
  deriving DecidableEq, Repr

namespace Reading

/-- The plan, if the file could be read to its end. -/
def plan (r : Reading) : Except InputError Plan :=
  match r.stop with
  | none => .ok (r.accepted.map NumberedRule.rule)
  | some e => .error e

/-- A reading with one more rule in front. -/
def prepend (r : NumberedRule) (rest : Reading) : Reading :=
  { rest with accepted := r :: rest.accepted }

/-- Reads lines from number `n` on; `above` is the branch of the rule above, if there is one. -/
def ofLines (n : Nat) (above : Option String) : List (List Char) → Reading
  | [] => ⟨[], none⟩
  | raw :: rest =>
    match Rule.Line.read raw with
    | .insignificant => ofLines (n + 1) above rest
    | .malformed => ⟨[], some (.malformedRule n (String.ofList raw))⟩
    | .rule branch base =>
      let branch := String.ofList branch
      if base = Rule.chainMark then
        match above with
        | none => ⟨[], some (.danglingMark n (String.ofList raw))⟩
        | some previous => prepend ⟨n, ⟨branch, previous⟩⟩ (ofLines (n + 1) (some branch) rest)
      else prepend ⟨n, ⟨branch, String.ofList base⟩⟩ (ofLines (n + 1) (some branch) rest)

end Reading

/-- Reads the text of a plan file. -/
def Plan.read (content : String) : Reading :=
  Reading.ofLines 1 none (Text.lines (Text.withoutMark content.toList))

end RebasePlan
