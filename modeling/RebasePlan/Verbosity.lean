import RebasePlan.Error

/-!
# Severity and verbosity

An event has one of five severities. A verbosity from 0 to 5 says how many of them are shown: the
severities rank from 1, for errors, to 5, and a verbosity shows those whose rank it reaches.
-/

namespace RebasePlan

/-- How serious an event is. -/
inductive Severity where
  | error
  | warn
  | info
  | debug
  | trace
  deriving DecidableEq, Repr

/-- The rank of a severity: the more serious, the lower. -/
def Severity.rank : Severity → Nat
  | error => 1
  | warn => 2
  | info => 3
  | debug => 4
  | trace => 5

/-- The name of a severity in a log line. -/
def Severity.name : Severity → String
  | error => "ERROR"
  | warn => "WARN"
  | info => "INFO"
  | debug => "DEBUG"
  | trace => "TRACE"

/-- How much of a run is shown. -/
structure Verbosity where
  value : Nat
  value_le : value ≤ 5
  deriving DecidableEq, Repr

namespace Verbosity

/-- Nothing is shown. -/
def silent : Verbosity := ⟨0, by decide⟩
/-- Everything down to the progress of a run is shown. -/
def info : Verbosity := ⟨3, by decide⟩
/-- Everything is shown. -/
def trace : Verbosity := ⟨5, by decide⟩

/-- The verbosity of a number from 0 to 5. -/
def ofNat? (n : Nat) : Option Verbosity := if h : n ≤ 5 then some ⟨n, h⟩ else none

/-- Why a number is no verbosity. -/
def outOfRange (n : Nat) : InputError :=
  .invalidSetting "global" "log_level" s!"log level must be 0-5, got {n}"

/-- The verbosity of a number, or why there is none. -/
def check (n : Nat) : Except InputError Verbosity :=
  match ofNat? n with
  | some v => .ok v
  | none => .error (outOfRange n)

/-- Whether events of a severity are shown. -/
def shows (v : Verbosity) (s : Severity) : Bool := s.rank ≤ v.value

/-- The name of the filter that a verbosity sets: its least serious severity. -/
def filterName (v : Verbosity) : String :=
  match v.value with
  | 0 => "off"
  | 1 => "error"
  | 2 => "warn"
  | 3 => "info"
  | 4 => "debug"
  | _ => "trace"

end Verbosity

end RebasePlan
