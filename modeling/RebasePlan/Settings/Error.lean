import RebasePlan.Error
import RebasePlan.Settings.Value
import RebasePlan.Text.Quoted

/-!
# What can be wrong with settings

Each error is a cause with the place of the setting, where there is one.
-/

namespace RebasePlan.Settings

/-- A value of a kind that does not fit. -/
inductive Found where
  | nothing
  | boolean (b : Bool)
  | signed (n : Int)
  | unsigned (n : Nat)
  | float (x : Binary64)
  | text (s : String)
  | list
  | table
  deriving DecidableEq, Repr

/-- What a value is. -/
def Found.ofValue : Value → Found
  | .scalar _ .nothing => .nothing
  | .scalar _ (.boolean b) => .boolean b
  | .scalar _ (.integer n) => .signed n
  | .scalar _ (.unsigned n) => .unsigned n
  | .scalar _ (.float x) => .float x
  | .scalar _ (.text s) => .text s
  | .list .. => .list
  | .table .. => .table

/-- What a setting takes. -/
inductive Wanted where
  | text
  | number
  | number64
  | number8
  deriving DecidableEq, Repr

/-- The words for what a setting takes. -/
def Wanted.message : Wanted → String
  | text => "a string"
  | number => "an integer"
  | number64 => "an unsigned 64 bit or less integer"
  | number8 => "an unsigned 8 bit integer"

/-- The words for a value that does not fit where a single value belongs. -/
def Found.message : Found → String
  | nothing => "unit value"
  | boolean b => s!"boolean `{b}`"
  | signed n => s!"64-bit integer `{n}`"
  | unsigned n => s!"64-bit unsigned integer `{n}`"
  | float x => s!"floating point `{x.text}`"
  | text s => s!"string {Text.quoted s}"
  | list => "sequence"
  | table => "map"

/-- The words for a value that does not fit where a section belongs. -/
def Found.inPlaceOfSection : Found → String
  | signed n => s!"integer `{n}`"
  | unsigned n => s!"integer `{n}`"
  | float x =>
    let written := x.text
    let finite := match x with
      | .finite .. => true
      | _ => false
    if finite && !written.toList.contains '.' then s!"floating point `{written}.0`"
    else s!"floating point `{written}`"
  | f => f.message

/-- Names in the words for what was expected. -/
def alternatives (names : List String) : String :=
  let quoted := names.map fun name => s!"`{name}`"
  match quoted with
  | [one] => s!"expected {one}"
  | [one, two] => s!"expected {one} or {two}"
  | _ => "expected one of " ++ ", ".intercalate quoted

/-- Why there are no settings. -/
inductive LoadError where
  /-- A value cannot be turned into what a setting takes. -/
  | wrongKind (found : Found) (wanted : Wanted) (place : String) (origin : Option String)
  /-- There is no section of this name. -/
  | unknownSection (name : String) (known : List String)
  /-- There is no setting of this name in a section. -/
  | unknownSetting (name : String) (known : List String) (place : String)
  /-- A section is given a single value. -/
  | notASection (found : Found) (shape place : String)
  /-- A setting is given a value that it cannot have. -/
  | badValue (cause : InputError) (place : String)
  /-- A variable for a setting is no text. -/
  | variableNotText (name : String) (bytes : List UInt8)
  /-- A file that must exist does not. -/
  | fileMissing (name : String)
  /-- A file cannot be read. -/
  | fileUnreadable (cause : IoError)
  /-- A file or a text is not well formed. -/
  | malformed (origin : Option String)
  /-- The settings are understood, but cannot work. -/
  | unusable (cause : InputError)
  deriving DecidableEq, Repr

/-- The text of an error. -/
def LoadError.message : LoadError → String
  | wrongKind found wanted place origin =>
    let source := match origin with
      | some name => s!" in {name}"
      | none => ""
    s!"invalid type: {found.message}, expected {wanted.message} for key `{place}`{source}"
  | unknownSection name known => s!"unknown field `{name}`, {alternatives known}"
  | unknownSetting name known place =>
    s!"unknown field `{name}`, {alternatives known} for key `{place}`"
  | notASection found shape place =>
    s!"invalid type: {found.inPlaceOfSection}, expected struct {shape} for key `{place}`"
  | badValue cause place => s!"{cause.message} for key `{place}`"
  | variableNotText name bytes =>
    s!"env variable {Text.quoted name} contains non-Unicode data: {Text.quotedBytes bytes}"
  | fileMissing name => s!"configuration file \"{name}\" not found"
  | fileUnreadable cause => cause.message
  | malformed _ => "malformed settings"
  | unusable cause => cause.message

end RebasePlan.Settings
