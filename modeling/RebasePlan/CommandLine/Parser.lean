import RebasePlan.CommandLine.Switch
import RebasePlan.Number.Decimal

/-!
# Reading a command line

Arguments are read from left to right. A value that stands as an argument of its own is judged only
when the next switch is read, or at the end; an argument that nobody expects is reported before
that. A value that is attached to its switch is judged at once.
-/

namespace RebasePlan

/-- Why a text is no number. -/
inductive NumberFault where
  | empty
  | badDigit
  | tooLarge
  | tooSmall
  deriving DecidableEq, Repr

/-- The text of a fault. -/
def NumberFault.message : NumberFault → String
  | empty => "cannot parse integer from empty string"
  | badDigit => "invalid digit found in string"
  | tooLarge => "number too large to fit in target type"
  | tooSmall => "number too small to fit in target type"

/-- Why a command line cannot be used. -/
inductive UsageError where
  /-- A switch lacks its value. -/
  | valueMissing (s : Switch)
  /-- A switch stands there twice. -/
  | repeated (s : Switch)
  /-- Nobody expects an argument. -/
  | unexpected (argument : String)
  /-- A switch that takes no value has one. -/
  | needlessValue (s : Switch) (value : String)
  /-- The value of a switch is no number. -/
  | badNumber (s : Switch) (value : String) (fault : NumberFault)
  /-- The value of a switch is no verbosity. -/
  | outOfRange (s : Switch) (value : String) (n : Int)
  /-- The value of a switch is no text. -/
  | notText
  /-- There is no plan. -/
  | planMissing
  deriving DecidableEq, Repr

/-- The first line of a usage error. -/
def UsageError.message : UsageError → String
  | valueMissing s => s!"error: a value is required for '{s.text}' but none was supplied"
  | repeated s => s!"error: the argument '{s.text}' cannot be used multiple times"
  | unexpected argument => s!"error: unexpected argument '{argument}' found"
  | needlessValue s value =>
    s!"error: unexpected value '{value}' for '{s.text}' found; no more were expected"
  | badNumber s value fault => s!"error: invalid value '{value}' for '{s.text}': {fault.message}"
  | outOfRange s value n =>
    s!"error: invalid value '{value}' for '{s.text}': {n} is not in 0..=5"
  | notText => "error: invalid UTF-8 was detected in one or more arguments"
  | planMissing => "error: the following required arguments were not provided:"

/-- Why the reading of a command line ends early. -/
inductive Stop where
  /-- Help is asked for, the short one or the long one. -/
  | help (long : Bool)
  | error (e : UsageError)
  deriving DecidableEq, Repr

namespace CommandLine

/-! ## Values -/

/-- The digits of a number with sign, from the left, up to the first fault. -/
def readDigits (negative : Bool) (n : Nat) : List Char → Except NumberFault Int
  | [] => .ok (Number.signed negative n)
  | c :: rest =>
    if !Number.isDigit c then .error .badDigit
    else
      let m := n * 10 + (Number.digitValue? c).getD 0
      match Number.fitSigned? (Number.signed negative m) with
      | some _ => readDigits negative m rest
      | none => .error (if negative then .tooSmall else .tooLarge)

/-- A number of 64 bits with sign. -/
def readNumber (cs : List Char) : Except NumberFault Int :=
  if cs.isEmpty then .error .empty
  else
    let (negative, digits) := Number.sign cs
    if digits.isEmpty then .error .badDigit else readDigits negative 0 digits

/-- The verbosity that is the value of a switch. -/
def readVerbosity (s : Switch) (value : List UInt8) : Except Stop Verbosity :=
  match Text.strict value with
  | none => .error (.error .notText)
  | some text => match readNumber text.toList with
    | .error fault => .error (.error (.badNumber s text fault))
    | .ok n => match (if n < 0 then none else Verbosity.ofNat? n.toNat) with
      | some v => .ok v
      | none => .error (.error (.outOfRange s text n))

/-- The path that is the value of a switch. -/
def readPath (s : Switch) (value : List UInt8) : Except Stop Path :=
  if value.isEmpty then .error (.error (.valueMissing s)) else .ok ⟨value⟩

/-- Fills a place that may be filled once. -/
def once {α : Type} (s : Switch) (old : Option α) (read : Except Stop α) :
    Except Stop (Option α) :=
  match old with
  | some _ => .error (.error (.repeated s))
  | none => read.map some

/-- Turns on what may be turned on once. -/
def turnOn (s : Switch) (old : Bool) : Except Stop Bool :=
  if old then .error (.error (.repeated s)) else .ok true

/-- What a switch with its value adds to the options. -/
def take (s : Switch) (value : List UInt8) (o : Options) : Except Stop Options :=
  match s with
  | .settings => (readPath s value).map fun p => { o with settingsFiles := o.settingsFiles ++ [p] }
  | .git => (once s o.program (readPath s value)).map fun p => { o with program := p }
  | .repo => (once s o.repository (readPath s value)).map fun p => { o with repository := p }
  | .logLevel => (once s o.console (readVerbosity s value)).map fun v => { o with console := v }
  | .fileLogLevel => (once s o.file (readVerbosity s value)).map fun v => { o with file := v }
  | .logFile => (once s o.logFile (readPath s value)).map fun p => { o with logFile := p }
  | .conf => (once s o.plan (readPath s value)).map fun p => { o with plan := p }
  | .doit => (turnOn s o.confirmed).map fun b => { o with confirmed := b }
  | .version => (turnOn s o.version).map fun b => { o with version := b }
  | .help => .ok o

/-! ## Arguments -/

/-- How far a command line has been read. -/
structure Progress where
  options : Options := {}
  /-- The last switch whose value stands, or is to stand, as an argument of its own. -/
  pending : Option (Switch × Option (List UInt8)) := none

namespace Progress

/-- Judges the value that has not been judged yet. -/
def settle (p : Progress) : Except Stop Progress :=
  match p.pending with
  | none => .ok p
  | some (s, none) => .error (.error (.valueMissing s))
  | some (s, some value) => (take s value p.options).map fun o => ⟨o, none⟩

/-- Reads a switch that is complete. -/
def apply (p : Progress) (s : Switch) (value : List UInt8) : Except Stop Progress := do
  let p ← p.settle
  let o ← take s value p.options
  return ⟨o, none⟩

/-- Reads a switch whose value is still to come. -/
def await (p : Progress) (s : Switch) : Except Stop Progress := do
  let p ← p.settle
  return ⟨p.options, some (s, none)⟩

/-- Reads a switch that asks for help. -/
def askHelp (p : Progress) (long : Bool) : Except Stop Progress := do
  let _ ← p.settle
  throw (.help long)

/-- Reads an argument that is no switch. -/
def plain (p : Progress) (argument : List UInt8) : Except Stop Progress :=
  match p.pending with
  | some (s, none) => .ok { p with pending := some (s, some argument) }
  | _ => .error (.error (.unexpected (Text.lossy argument)))

end Progress

/-- The byte that begins a switch. -/
def dash : UInt8 := 45
/-- The byte between a switch and its value. -/
def equalsSign : UInt8 := 61

/-- The bytes of pieces of a text. -/
def bytesOf (pieces : List Text.Piece) : List UInt8 :=
  pieces.flatMap fun
    | .character c => Text.encode (String.ofList [c])
    | .broken bytes => bytes

/-- Reads the letters behind a dash. What follows the letter of a switch that takes a value is that
    value, an equals sign in front of it apart. -/
def letters (p : Progress) : List Text.Piece → Except Stop Progress
  | [] => .ok p
  | .broken bytes :: rest =>
    .error (.error (.unexpected ("-" ++ Text.lossy (bytes ++ bytesOf rest))))
  | .character c :: rest =>
    match Switch.ofLetter? c with
    | none => .error (.error (.unexpected ("-" ++ c.toString)))
    | some s =>
      if s.takesValue then
        match bytesOf rest with
        | [] => p.await s
        | b :: value => if b == equalsSign then p.apply s value else p.apply s (b :: value)
      else if s = .help then p.askHelp false
      else do
        let p ← p.apply s []
        letters p rest

/-- Reads what stands behind two dashes. -/
def longName (p : Progress) (argument : List UInt8) : Except Stop Progress :=
  let name := argument.takeWhile (· != equalsSign)
  let value := argument.dropWhile (· != equalsSign)
  match (Text.strict name).bind Switch.ofLong? with
  | none => .error (.error (.unexpected ("--" ++ Text.lossy name)))
  | some s =>
    match s.takesValue, value with
    | true, [] => p.await s
    | true, _ :: value => p.apply s value
    | false, [] => if s = .help then p.askHelp true else p.apply s []
    | false, _ :: value => .error (.error (.needlessValue s (Text.lossy value)))

/-- Reads one argument. -/
def argument (p : Progress) : List UInt8 → Except Stop Progress
  | [] => p.plain []
  | a :: rest =>
    if a != dash then p.plain (a :: rest)
    else
      match rest with
      | [] => p.plain [a]
      | b :: more => if b == dash then longName p more else letters p (Text.decode rest)

/-- The argument behind which nothing is a switch. -/
def separator : List UInt8 := [dash, dash]

/-- Reads arguments. Behind the separator nothing is expected. -/
def arguments (p : Progress) : List (List UInt8) → Except Stop Progress
  | [] => .ok p
  | a :: rest =>
    if a = separator then
      match rest with
      | [] => .ok p
      | b :: _ => .error (.error (.unexpected (Text.lossy b)))
    else do
      let p ← argument p a
      arguments p rest

/-- Reads a command line, which names a plan unless it asks for the version. -/
def parse (args : List (List UInt8)) : Except Stop Options := do
  let p ← arguments {} args
  let p ← p.settle
  if p.options.plan.isNone && !p.options.version then throw (.error .planMissing)
  return p.options

end CommandLine

end RebasePlan
