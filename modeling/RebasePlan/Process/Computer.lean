import RebasePlan.Disk
import RebasePlan.Error
import RebasePlan.Process.Command

/-!
# Where programs run

A computer, as far as a program sees it: a disk, the current directory, and the variables. It
settles which file a program's name stands for, and whether a command can be started.
-/

namespace RebasePlan

/-- What a program finds around it. -/
structure Computer where
  disk : Disk
  /-- The current directory. -/
  directory : Place
  environment : Environment

/-- The start of a program: all that the program is given. -/
structure Launch where
  /-- The file with the program. -/
  program : Place
  arguments : List String
  directory : Place
  environment : Environment

namespace Computer

/-- The byte between the directories of a search path. -/
def colon : UInt8 := 58

/-- The directories of a search path. An empty one is the current directory. -/
def searchDirectories (value : List UInt8) : List Path :=
  (Text.split (· == colon) value).map Path.mk

/-- The search path of a process that is given none. -/
def defaultSearchPath : List UInt8 := Text.encode "/bin:/usr/bin"

/-! ## Finding a program -/

/-- The path of the current directory. -/
def directoryPath (c : Computer) : Path := Path.ofNames c.directory

/-- The places where a program is looked for: only one if its name has several parts. -/
def candidates (c : Computer) (program : Path) : List Path :=
  if program.isCompound then [program]
  else
    match c.environment.value? "PATH" with
    | none => []
    | some value => (searchDirectories value).map fun directory => directory.join program

/-- The path of the executable file that a program's name stands for. -/
def find? (c : Computer) (program : Path) : Option Path :=
  ((c.candidates program).map fun p => p.under c.directoryPath).find?
    (c.disk.holdsExecutable c.directory)

/-- The path of the executable file, or the error that names it. -/
def which (c : Computer) (program : String) : Except LaunchError Path :=
  match c.find? (Path.ofString program) with
  | some path => .ok path
  | none => .error (.unknownProgram program)

/-! ## Starting a program -/

/-- One argument or variable may have this many bytes. -/
def maxArgument : Nat := 131071

/-- Whether the system takes each of the arguments and variables of a program. The limit on all of
    them together is left out: it depends on the size that the system allows the stack. -/
def fits (arguments : List String) (environment : Environment) : Bool :=
  arguments.all (fun argument => argument.utf8ByteSize ≤ maxArgument) &&
    environment.all fun entry => (Environment.entryText entry).length ≤ maxArgument

/-- Goes to the directory in which a command runs. -/
def enter (c : Computer) (p : Path) : Except IoError Place := do
  let place ← c.disk.locate c.directory p
  match c.disk.lookup place with
  | some .directory => .ok place
  | _ => .error .notADirectory

/-- The program in a file, if it can be executed with arguments that fit or do not fit. -/
def execute (disk : Disk) (directory : Place) (fit : Bool) (p : Path) : Except IoError Place := do
  let place ← disk.locate directory p
  match disk.lookup place with
  | some (.file _ use) =>
    if use = .data then .error .denied
    else if !fit then .error .argumentsTooLong
    else if use = .brokenProgram then .error .notAProgram
    else .ok place
  | _ => .error .denied

/-- Tries files one after the other. A file that is missing leads on to the next, also one that must
    not be executed; but that is what is reported in the end. -/
def executeFirst (attempt : Path → Except IoError Place) (denied : Bool) (last : IoError) :
    List Path → Except IoError Place
  | [] => .error (if denied then .denied else last)
  | p :: rest =>
    match attempt p with
    | .ok place => .ok place
    | .error e =>
      if e = .denied then executeFirst attempt true e rest
      else if e = .missing || e = .notADirectory then executeFirst attempt denied e rest
      else .error e

/-- Where a command runs. -/
def directoryFor (c : Computer) (command : Command) : Except IoError Place :=
  match command.directory with
  | none => .ok c.directory
  | some p => c.enter p

/-- The file with the program of a command, if it can be executed with arguments that fit or do not
    fit. A program whose name holds a slash is followed from the directory in which it runs; any
    other is looked for in the directories of its own search path. -/
def programFor (c : Computer) (program : Path) (directory : Place) (environment : Environment)
    (fit : Bool) : Except IoError Place :=
  let attempt := execute c.disk directory fit
  if program.bytes.isEmpty then .error .missing
  else if program.bytes.contains Path.slash then attempt program
  else
    let path := (environment.value? "PATH").getD defaultSearchPath
    executeFirst attempt false .missing
      ((searchDirectories path).map fun dir => dir.push program.bytes)

/-- Starts a command, or says why it cannot be started. -/
def start (c : Computer) (command : Command) : Except IoError Launch := do
  if command.holdsNul then throw .nulInCommand
  let directory ← c.directoryFor command
  let environment := c.environment.extend command.assignments
  let fit := fits command.arguments environment
  let program ← c.programFor command.program directory environment fit
  return ⟨program, command.arguments, directory, environment⟩

end Computer

end RebasePlan
