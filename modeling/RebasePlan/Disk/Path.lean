import RebasePlan.Text.Parts
import RebasePlan.Text.Utf8

/-!
# Paths as they are written

A path is a sequence of bytes with slashes between its pieces. Everything here looks at the writing
alone: which names a path holds, how two paths are joined, what its parent is. Empty pieces and
single points count for nothing, except a point that the path begins with.
-/

namespace RebasePlan

/-- The bytes of one name on a disk. -/
abbrev Name := List UInt8

/-- A path as it is written. -/
structure Path where
  bytes : List UInt8
  deriving DecidableEq, Repr

namespace Path

/-- The byte between the pieces of a path. -/
def slash : UInt8 := 47
/-- The byte in front of a file name's extension. -/
def point : UInt8 := 46

/-- The piece that stays where it is. -/
def here : Name := [point]
/-- The piece that goes up. -/
def up : Name := [point, point]

/-- A text as a path. -/
def ofString (s : String) : Path := ⟨Text.encode s⟩

/-- The printed form of a path. -/
def text (p : Path) : String := Text.lossy p.bytes

/-- Whether a path begins at the root. -/
def isAbsolute (p : Path) : Bool := p.bytes.head? == some slash

/-- Whether a path holds a NUL. -/
def holdsNul (p : Path) : Bool := p.bytes.contains 0

/-- How many bytes stand in front of a path's names: the slash of the root, or a point that the path
    begins with. -/
def leadLength (p : Path) : Nat :=
  match p.bytes with
  | [] => 0
  | [a] => if a == slash || a == point then 1 else 0
  | a :: b :: _ => if a == slash || (a == point && b == slash) then 1 else 0

/-- What stands in front of a path's names. -/
def lead (p : Path) : List UInt8 := p.bytes.take p.leadLength

/-- Whether a piece counts for nothing. -/
def isFiller (piece : Name) : Bool := piece.isEmpty || piece == here

/-- What stands between the slashes behind the lead. -/
def pieces (p : Path) : List Name := Text.split (· == slash) (p.bytes.drop p.leadLength)

/-- The names of a path, among them `..`. -/
def names (p : Path) : List Name := p.pieces.filter fun piece => !isFiller piece

/-- A piece behind a path. -/
def push (p : Path) (piece : Name) : Path :=
  if p.bytes.isEmpty || p.bytes.getLast? == some slash then ⟨p.bytes ++ piece⟩
  else ⟨p.bytes ++ slash :: piece⟩

/-- The path `q` as seen from the directory `p`. -/
def join (p q : Path) : Path := if q.isAbsolute then q else p.push q.bytes

/-- A path seen from the directory `base`; where it is relative, it is reduced to its names. -/
def under (p base : Path) : Path := if p.isAbsolute then p else p.names.foldl push base

/-- The path from the root along some names. -/
def ofNames (names : List Name) : Path := ⟨slash :: [slash].intercalate names⟩

/-- Whether a path has more than one part, a lead counting as one. -/
def isCompound (p : Path) : Bool :=
  (if p.leadLength = 0 then 0 else 1) + p.names.length > 1

/-- The path of the directory in which a path's last part lies. -/
def parent? (p : Path) : Option Path :=
  match p.pieces.reverse.dropWhile isFiller with
  | _ :: before => some ⟨p.lead ++ [slash].intercalate (before.dropWhile isFiller).reverse⟩
  | [] => if p.isAbsolute || p.bytes.isEmpty then none else some ⟨[]⟩

/-- The parents of a path, the nearest first, at most `fuel` of them. -/
def parentsUpTo : Nat → Path → List Path
  | 0, _ => []
  | fuel + 1, p => match p.parent? with
    | none => []
    | some q => q :: parentsUpTo fuel q

/-- The parents of a path, the nearest first; each is shorter than the one before. -/
def parents (p : Path) : List Path := parentsUpTo p.bytes.length p

/-- The last name of a path, unless that goes up. -/
def fileName? (p : Path) : Option Name :=
  match p.names.getLast? with
  | none => none
  | some name => if name = up then none else some name

/-- A file name up to its last point. A point that it begins with is not counted. -/
def stem (name : Name) : Name :=
  match name.reverse.dropWhile (· != point) with
  | _ :: before => if before.isEmpty then name else before.reverse
  | [] => name

/-- The last name of a path without its extension. -/
def fileStem? (p : Path) : Option Name := p.fileName?.map stem

/-- A path whose last name is extended by some bytes; a path that names no file stays as it is. -/
def extend (p : Path) (bytes : List UInt8) : Path :=
  match p.pieces.reverse.dropWhile isFiller with
  | [] => p
  | last :: before =>
    if last = up then p
    else ⟨p.lead ++ [slash].intercalate ((last ++ bytes) :: before).reverse⟩

/-- The names that lead from one directory to a place, both given by the names from the root. -/
def between : List Name → List Name → List Name
  | base :: bases, name :: names =>
    if base = name then between bases names
    else (base :: bases).map (fun _ => up) ++ name :: names
  | bases, names => bases.map (fun _ => up) ++ names

/-- A path as seen from the directory with the given names from the root. -/
def relative (p : Path) (base : List Name) : Path :=
  ⟨[slash].intercalate (between base p.names)⟩

end Path

end RebasePlan
