import RebasePlan.Disk.Path
import RebasePlan.IoError

/-!
# A disk

A disk knows what lies at each place; a place is the list of names that lead to it from the root.
A path is followed name by name from a directory: each step needs a directory to stand in. Reading
and writing follow a path first and then look at what is there.

There are no links on a disk, and everything on it may be read and written: the only right that
counts is that a file may be executed.
-/

namespace RebasePlan

/-- The names that lead from the root to a place. -/
abbrev Place := List Name

/-- What a file can be used for besides reading. -/
inductive FileUse where
  /-- It must not be executed. -/
  | data
  /-- It may be executed, but holds no program. -/
  | brokenProgram
  /-- It may be executed and holds a program. -/
  | program
  deriving DecidableEq, Repr

/-- What lies at a place. -/
inductive Entry where
  | directory
  | file (content : List UInt8) (use : FileUse)
  deriving DecidableEq, Repr

/-- What lies at each place. -/
structure Disk where
  lookup : Place → Option Entry

namespace Disk

/-- The disk on which each place holds the last of the entries given for it. -/
def ofList (entries : List (Place × Entry)) : Disk where
  lookup place := entries.reverse.lookup place

/-- A disk with another entry at one place. -/
def put (d : Disk) (place : Place) (entry : Entry) : Disk where
  lookup p := if p = place then some entry else d.lookup p

/-- The longest name that a place can have. -/
def maxName : Nat := 255
/-- The longest path that can be followed is one byte shorter. -/
def maxPath : Nat := 4096

/-- Follows one piece of a path. -/
def follow (d : Disk) (place : Place) (piece : Name) : Except IoError Place :=
  match d.lookup place with
  | none => .error .missing
  | some (.file ..) => .error .notADirectory
  | some .directory =>
    if piece = Path.here then .ok place
    else if piece = Path.up then .ok place.dropLast
    else if piece.length > maxName then .error .nameTooLong
    else
      let next := place ++ [piece]
      if (d.lookup next).isSome then .ok next else .error .missing

/-- The pieces of a path that are not empty. -/
def pieces (p : Path) : List Name :=
  (Text.split (· == Path.slash) p.bytes).filter fun piece => !piece.isEmpty

/-- Whether a path ends with a slash, which asks for a directory. -/
def asksDirectory (p : Path) : Bool := p.bytes.getLast? == some Path.slash

/-- The pieces that are followed for a path. -/
def steps (p : Path) : List Name :=
  if asksDirectory p then pieces p ++ [Path.here] else pieces p

/-- The place at which a path begins, seen from a directory. -/
def origin (directory : Place) (p : Path) : Place := if p.isAbsolute then [] else directory

/-- Whether a path can be followed at all. -/
def checkPath (p : Path) : Except IoError Unit :=
  if p.holdsNul then .error .nulInName
  else if p.bytes.isEmpty then .error .missing
  else if p.bytes.length ≥ maxPath then .error .nameTooLong
  else .ok ()

/-- Follows a path from a directory to the place that it names. -/
def locate (d : Disk) (directory : Place) (p : Path) : Except IoError Place := do
  checkPath p
  (steps p).foldlM d.follow (origin directory p)

/-- What lies where a path leads. -/
def look (d : Disk) (directory : Place) (p : Path) : Except IoError Entry := do
  let place ← d.locate directory p
  match d.lookup place with
  | some entry => .ok entry
  | none => .error .missing

/-- Whether a path leads anywhere. -/
def holds (d : Disk) (directory : Place) (p : Path) : Bool := (d.look directory p).toBool

/-- Whether a path leads to a directory. -/
def holdsDirectory (d : Disk) (directory : Place) (p : Path) : Bool :=
  match d.look directory p with
  | .ok .directory => true
  | _ => false

/-- Whether a path leads to a file. -/
def holdsFile (d : Disk) (directory : Place) (p : Path) : Bool :=
  match d.look directory p with
  | .ok (.file ..) => true
  | _ => false

/-- Whether a path leads to a file that may be executed. -/
def holdsExecutable (d : Disk) (directory : Place) (p : Path) : Bool :=
  match d.look directory p with
  | .ok (.file _ .data) => false
  | .ok (.file ..) => true
  | _ => false

/-- The content of the file where a path leads. -/
def read (d : Disk) (directory : Place) (p : Path) : Except IoError (List UInt8) := do
  match ← d.look directory p with
  | .directory => .error .isADirectory
  | .file content _ => .ok content

/-- Where a new entry would be made: the directory and the last piece of the path. -/
def site (d : Disk) (directory : Place) (p : Path) : Except IoError (Place × Name) := do
  checkPath p
  match (pieces p).reverse with
  | [] => .error .taken
  | last :: before =>
    let place ← before.reverse.foldlM d.follow (origin directory p)
    match d.lookup place with
    | some .directory =>
      if last = Path.here || last = Path.up then .error .taken
      else if last.length > maxName then .error .nameTooLong
      else .ok (place, last)
    | some (.file ..) => .error .notADirectory
    | none => .error .missing

/-- Writes a file: an existing one gets a new content, a missing one is made. -/
def write (d : Disk) (directory : Place) (p : Path) (content : List UInt8) :
    Except IoError Disk :=
  match d.locate directory p with
  | .ok place => match d.lookup place with
    | some (.file _ use) => .ok (d.put place (.file content use))
    | _ => .error .isADirectory
  | .error .missing =>
    if asksDirectory p then .error .isADirectory
    else match d.site directory p with
      | .ok (place, name) => .ok (d.put (place ++ [name]) (.file content .data))
      | .error e => .error e
  | .error e => .error e

/-- Makes a directory whose parent exists. -/
def makeDirectory (d : Disk) (directory : Place) (p : Path) : Except IoError Disk := do
  let (place, name) ← d.site directory p
  if (d.lookup (place ++ [name])).isSome then .error .taken
  else .ok (d.put (place ++ [name]) .directory)

/-- Makes the first of some directories. The directories after it are its parents; they are made
    first where they are missing. A directory that exists is left as it is. -/
def makeAll (d : Disk) (directory : Place) : List Path → Except IoError Disk
  | [] => .ok d
  | p :: parents =>
    let make (d : Disk) : Except IoError Disk :=
      match d.makeDirectory directory p with
      | .error .taken => if d.holdsDirectory directory p then .ok d else .error .taken
      | result => result
    match make d with
    | .error .missing => (makeAll d directory parents).bind make
    | result => result

/-- Makes a directory and all its parents. -/
def makeDirectories (d : Disk) (directory : Place) (p : Path) : Except IoError Disk :=
  d.makeAll directory ((p :: p.parents).filter fun q => q.parent?.isSome)

end Disk

end RebasePlan
