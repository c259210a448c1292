import RebasePlan.IoError

/-!
# What can go wrong

Each error is a cause with its circumstances; the wording is in one `message` per type. A
`Failure` is an error of the whole run: it names the area and carries the cause beneath it.
-/

namespace RebasePlan

/-- Why the rule file or the settings cannot be used. -/
inductive InputError where
  /-- There is no rule file at the path. -/
  | planMissing (path : String)
  /-- The rule file exists and cannot be read. -/
  | planUnreadable (path : String) (cause : IoError)
  /-- The line is no rule. -/
  | malformedRule (line : Nat) (text : String)
  /-- The line refers to a rule above it, and there is none. -/
  | danglingMark (line : Nat) (text : String)
  /-- A setting has a value that cannot work. -/
  | invalidSetting (area key text : String)
  deriving DecidableEq, Repr

/-- The text of an input error. -/
def InputError.message : InputError → String
  | planMissing path => s!"rule file not found: {path}"
  | planUnreadable path cause => s!"failed to read rule file '{path}': {cause.message}"
  | malformedRule line text => s!"malformed rule on line {line}: '{text}'"
  | danglingMark line text =>
    s!"'^' on line {line} has no previous rule to refer to: '{text}'"
  | invalidSetting area key text =>
    s!"invalid value for '{key}' in section '[{area}]': {text}"

/-- The cause beneath an input error. -/
def InputError.cause : InputError → Option IoError
  | planUnreadable _ cause => some cause
  | _ => none

/-- Why a command has no result. -/
inductive LaunchError where
  /-- No program of this name is on the search path. -/
  | unknownProgram (name : String)
  /-- The command could not be started. -/
  | notStarted (command : String) (cause : IoError)
  /-- The command ended with a code that counts as a failure. -/
  | badExit (command : String) (code : Int)
  /-- The command's error output could not be collected. -/
  | notCaptured (command : String) (cause : IoError)
  deriving DecidableEq, Repr

/-- The text of a launch error. -/
def LaunchError.message : LaunchError → String
  | unknownProgram name => s!"executable not found: '{name}' (not in PATH)"
  | notStarted command cause => s!"failed to spawn process '{command}': {cause.message}"
  | badExit command code => s!"process '{command}' exited with code {code}"
  | notCaptured command cause => s!"failed to capture stderr of '{command}': {cause.message}"

/-- The cause beneath a launch error. -/
def LaunchError.cause : LaunchError → Option IoError
  | notStarted _ cause => some cause
  | notCaptured _ cause => some cause
  | _ => none

/-- An error of the whole run. -/
inductive Failure where
  | input (cause : InputError)
  /-- Neither a branch nor a commit is known to return to. -/
  | headUnknown
  | launch (cause : LaunchError)
  | io (cause : IoError)
  deriving DecidableEq, Repr

/-- Why the starting point is unknown. -/
def headUnknownText : String := "could not determine the current branch or commit"

/-- The text of a failure. -/
def Failure.message : Failure → String
  | input cause => s!"config error: {cause.message}"
  | headUnknown => s!"git error: {headUnknownText}"
  | launch cause => s!"process error: {cause.message}"
  | io cause => s!"io error: {cause.message}"

/-- The texts of an input error and of the cause beneath it. -/
def InputError.chain (e : InputError) : List String :=
  e.message :: e.cause.toList.map IoError.message

/-- The texts of a failure and of the causes beneath it, outermost first. An input or output error
    is told by the failure itself. -/
def Failure.chain (f : Failure) : List String :=
  f.message :: match f with
    | input e => e.chain
    | headUnknown => [headUnknownText]
    | launch e => e.message :: e.cause.toList.map IoError.message
    | io _ => []

/-- A chain of texts on one line. -/
def chainText (texts : List String) : String := ": ".intercalate texts

end RebasePlan
