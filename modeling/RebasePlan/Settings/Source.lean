import RebasePlan.Process.Computer
import RebasePlan.Settings.Error
import RebasePlan.Settings.Value
import RebasePlan.Text.Lowercase
import RebasePlan.Text.Parts
import RebasePlan.Toml.Reader

/-!
# Sources of settings

Files, texts, and variables of the environment. A file may be named without its ending. The names of
variables count without regard to case; two underscores in them stand for the dot of a key, and a
value that looks like a truth value or a number is taken for one.
-/

namespace RebasePlan.Settings

/-- A file or a text with settings. -/
inductive Source where
  /-- A file; one that is not required counts for nothing if it is missing. -/
  | file (path : Path) (required : Bool)
  | text (content : String)
  deriving DecidableEq, Repr

/-- The ending that the name of a settings file may lack. -/
def ending : List UInt8 := Text.encode ".toml"

/-- The file that a path stands for: itself, or the file whose name has an ending more. -/
def fileOf? (c : Computer) (p : Path) : Option Path :=
  let full := c.directoryPath.join p
  if c.disk.holdsFile c.directory full then some full
  else
    let longer := full.extend ending
    if c.disk.holdsFile c.directory longer then some longer else none

/-- The marks in front of a text that is stored as UTF-8. -/
def withoutMarkBytes : List UInt8 → List UInt8
  | 0xEF :: 0xBB :: 0xBF :: rest => rest
  | bytes => bytes

/-- The values in a TOML text that was read from `origin`. -/
def entriesOfText (origin : Option String) (content : String) : Except LoadError Entries :=
  match Toml.read? content with
  | some entries => .ok (Value.entriesOfToml origin entries)
  | none => .error (.malformed origin)

/-- The values in a file. -/
def entriesOfFile (c : Computer) (p : Path) : Except LoadError Entries :=
  match c.disk.read c.directory p with
  | .error e => .error (.fileUnreadable e)
  | .ok bytes =>
    entriesOfText (some (p.relative c.directory).text) (Text.lossy (withoutMarkBytes bytes))

/-- The values that a source gives. -/
def Source.entries (c : Computer) : Source → Except LoadError Entries
  | .text content => entriesOfText none content
  | .file p required =>
    match fileOf? c p with
    | some found => entriesOfFile c found
    | none => if required then .error (.fileMissing p.text) else .ok []

/-- A source in the list of those that are used; a file that is not required is listed only if its
    path leads somewhere. -/
def Source.listed (c : Computer) : Source → Option String
  | .text _ => some "[string] <string>"
  | .file p true => some s!"[file] {p.text}"
  | .file p false => if c.disk.holds c.directory p then some s!"[optional] {p.text}" else none

/-! ## Variables -/

/-- Where a variable's value was written, for messages. -/
def environmentOrigin : String := "the environment"

/-- A text in small letters. -/
def lowered (s : String) : String := String.ofList (Text.lower s.toList)

/-- What a variable's text is taken for. -/
def guess (text : String) : Scalar :=
  let word := lowered text
  if word = "true" then .boolean true
  else if word = "false" then .boolean false
  else match Number.signed? text.toList with
    | some n => .integer n
    | none => match Binary64.read? text.toList with
      | some x => .float x
      | none => .text text

/-- What a variable's name says behind the beginning that all variables for settings share. -/
def variableName? (beginning : String) (name : List UInt8) : Option String := do
  let name ← Text.strict name
  let start := (lowered (beginning ++ "_")).toList
  let small := (lowered name).toList
  if start.isPrefixOf small then return String.ofList (small.drop start.length) else none

/-- The value that a variable gives, if it is one for settings. -/
def variableValue? (beginning : String) (entry : List UInt8 × List UInt8) :
    Except LoadError (Option (String × Value)) :=
  match variableName? beginning entry.1 with
  | none => .ok none
  | some name => match Text.strict entry.2 with
    | none => .error (.variableNotText name entry.2)
    | some text =>
      .ok (some (String.ofList (Text.replacePair '_' '.' name.toList),
        .scalar (some environmentOrigin) (guess text)))

/-- The values that variables give. -/
def entriesOfEnvironment (beginning : String) (env : Environment) : Except LoadError Entries := do
  return (← env.mapM (variableValue? beginning)).filterMap id

end RebasePlan.Settings
