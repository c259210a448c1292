import RebasePlan.Disk.Path

/-!
# Commands and variables

A command is a program with its arguments and the circumstances in which it is to run. In messages
it is shown as a line of text; an argument that is empty or holds a space stands between quotes.

A process is given its variables as texts `name=value`. A name is looked up among those texts, so
the first text that begins with the name and an equals sign decides.
-/

namespace RebasePlan

/-! ## Commands -/

/-- A program to be run, and how. -/
structure Command where
  program : Path
  arguments : List String := []
  /-- Where the program runs; the current directory if there is none. -/
  directory : Option Path := none
  /-- The variables that the program is given besides the inherited ones. -/
  assignments : List (String × String) := []
  /-- Whether an exit code other than 0 counts as a result. -/
  mayFail : Bool := false
  /-- The name under which the command is shown. -/
  name : Option String := none
  deriving DecidableEq, Repr

/-- A call that gives a command arguments, as bytes: one, or several at once. -/
inductive ArgumentCall where
  | one (argument : List UInt8)
  | several (arguments : List (List UInt8))

/-- The arguments of a call, as text. -/
def ArgumentCall.arguments : ArgumentCall → List String
  | one argument => [Text.lossy argument]
  | several arguments => arguments.map Text.lossy

namespace Command

/-- A command with one more argument. -/
def give (c : Command) (argument : List UInt8) : Command :=
  { c with arguments := c.arguments ++ [Text.lossy argument] }

/-- A command after a call. -/
def take (c : Command) : ArgumentCall → Command
  | .one argument => c.give argument
  | .several arguments => arguments.foldl give c

/-- A command after calls. -/
def takeAll (c : Command) (calls : List ArgumentCall) : Command := calls.foldl take c

/-- The name of a command in messages: the one that it was given, or that of its program. -/
def shownName (c : Command) : String :=
  match c.name with
  | some name => name
  | none => (c.program.fileStem?.map Text.lossy).getD "process"

/-- An argument as a command's line shows it. -/
def shownArgument (argument : String) : String :=
  if argument.isEmpty || argument.toList.contains ' ' then "\"" ++ argument ++ "\"" else argument

/-- The line that shows a command. -/
def text (c : Command) : String := " ".intercalate (c.shownName :: c.arguments.map shownArgument)

/-- Whether a text holds a NUL. -/
def nulIn (s : String) : Bool := s.toList.contains '\x00'

/-- Whether anything that the system is given for a command holds a NUL. -/
def holdsNul (c : Command) : Bool :=
  c.program.holdsNul || c.arguments.any nulIn || c.directory.any Path.holdsNul ||
    c.assignments.any fun (name, value) => nulIn name || nulIn value

end Command

/-! ## Variables -/

/-- The variables of a process: names and values, both as bytes. -/
abbrev Environment := List (List UInt8 × List UInt8)

namespace Environment

/-- The byte between a name and its value. -/
def equalsSign : UInt8 := 61

/-- A variable as a process is given it. -/
def entryText (entry : List UInt8 × List UInt8) : List UInt8 :=
  entry.1 ++ equalsSign :: entry.2

/-- The value of a variable. -/
def get? (env : Environment) (name : List UInt8) : Option (List UInt8) :=
  let wanted := name ++ [equalsSign]
  ((env.map entryText).find? fun text => wanted.isPrefixOf text).map (·.drop wanted.length)

/-- The value of a variable whose name is given as text. -/
def value? (env : Environment) (name : String) : Option (List UInt8) := env.get? (Text.encode name)

/-- Puts a variable where its name belongs in the order of bytes, in place of one of the same
    name. -/
def insert (name value : List UInt8) : Environment → Environment
  | [] => [(name, value)]
  | (n, v) :: rest =>
    if name = n then (name, value) :: rest
    else if name < n then (name, value) :: (n, v) :: rest
    else (n, v) :: insert name value rest

/-- The variables of a child that is given some of its own; of two of one name the later counts. -/
def extend (env : Environment) (own : List (String × String)) : Environment :=
  if own.isEmpty then env
  else
    (env ++ own.map fun (name, value) => (Text.encode name, Text.encode value)).foldl
      (fun env (name, value) => insert name value env) []

end Environment

end RebasePlan
