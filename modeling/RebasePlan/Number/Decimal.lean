/-!
# Numbers as text

Digits in several bases, and the numbers of 64 bits that a text can stand for. A number that does
not fit is refused, never cut off.

A decimal number is a whole number of units, each a power of ten. It is written positionally,
without an exponent, and read with or without one.
-/

namespace RebasePlan.Number

/-- The largest number of 64 bits without sign. -/
def maxUnsigned : Nat := 0xFFFFFFFFFFFFFFFF
/-- The largest number of 64 bits with sign; the smallest is one further from zero. -/
def maxSigned : Nat := 0x7FFFFFFFFFFFFFFF

/-- The value of a digit in bases up to sixteen. -/
def digitValue? (c : Char) : Option Nat :=
  if '0' ≤ c && c ≤ '9' then some (c.toNat - '0'.toNat)
  else if 'a' ≤ c && c ≤ 'f' then some (c.toNat - 'a'.toNat + 10)
  else if 'A' ≤ c && c ≤ 'F' then some (c.toNat - 'A'.toNat + 10)
  else none

/-- Whether a character is a digit of a base. -/
def isDigitOf (base : Nat) (c : Char) : Bool :=
  match digitValue? c with
  | some n => n < base
  | none => false

/-- Whether a character is a decimal digit. -/
def isDigit (c : Char) : Bool := isDigitOf 10 c

/-- The number that digits of a base stand for; the first digit weighs most. -/
def ofDigits (base : Nat) (digits : List Char) : Nat :=
  digits.foldl (fun n c => n * base + (digitValue? c).getD 0) 0

/-- The number that a text of one or more digits stands for. -/
def digits? (cs : List Char) : Option Nat :=
  if cs.isEmpty || !cs.all isDigit then none else some (ofDigits 10 cs)

/-- A sign in front of a text, true for a minus, and what follows it. -/
def sign (cs : List Char) : Bool × List Char :=
  match cs with
  | '-' :: rest => (true, rest)
  | '+' :: rest => (false, rest)
  | rest => (false, rest)

/-- The number with a sign. -/
def signed (negative : Bool) (n : Nat) : Int := if negative then -n else n

/-- A number, if it is one of 64 bits with sign. -/
def fitSigned? (n : Int) : Option Int :=
  if -(maxSigned : Int) - 1 ≤ n && n ≤ maxSigned then some n else none

/-- The number of 64 bits with sign that a text stands for: digits, maybe with a sign in front. -/
def signed? (cs : List Char) : Option Int :=
  let (negative, rest) := sign cs
  (digits? rest).bind fun n => fitSigned? (signed negative n)

/-- The number of 64 bits without sign that a text stands for: digits, maybe with a plus in
    front. -/
def unsigned? (cs : List Char) : Option Nat :=
  let rest := match cs with
    | '+' :: rest => rest
    | rest => rest
  (digits? rest).bind fun n => if n ≤ maxUnsigned then some n else none

end RebasePlan.Number

namespace RebasePlan

/-- The number `units * 10 ^ exponent` with a sign. -/
structure Decimal where
  negative : Bool
  units : Nat
  exponent : Int
  deriving DecidableEq, Repr

namespace Decimal

/-- The digits of a whole number. -/
def digitsOf (n : Nat) : List Char := Nat.toDigits 10 n

/-- The digits of a magnitude with a point where it belongs. -/
def positional (units : Nat) (exponent : Int) : List Char :=
  let digits := digitsOf units
  let zeros (n : Nat) := List.replicate n '0'
  if 0 ≤ exponent then digits ++ zeros exponent.toNat
  else
    let places := (-exponent).toNat
    if places < digits.length then
      digits.take (digits.length - places) ++ '.' :: digits.drop (digits.length - places)
    else '0' :: '.' :: zeros (places - digits.length) ++ digits

/-- The written form of a decimal number. -/
def text (d : Decimal) : String :=
  String.ofList ((if d.negative then ['-'] else []) ++ positional d.units d.exponent)

/-- Digits, then maybe a point and more digits. At least one digit is needed. -/
def mantissa? (cs : List Char) : Option (Nat × Nat × List Char) :=
  let whole := cs.takeWhile Number.isDigit
  let rest := cs.dropWhile Number.isDigit
  let (fraction, rest) := match rest with
    | '.' :: more => (more.takeWhile Number.isDigit, more.dropWhile Number.isDigit)
    | rest => ([], rest)
  if whole.isEmpty && fraction.isEmpty then none
  else some (Number.ofDigits 10 (whole ++ fraction), fraction.length, rest)

/-- An exponent behind the digits, zero if there is none. -/
def exponent? (cs : List Char) : Option Int :=
  match cs with
  | [] => some 0
  | c :: rest =>
    if c = 'e' || c = 'E' then
      let (negative, rest) := Number.sign rest
      (Number.digits? rest).map fun n => Number.signed negative n
    else none

/-- Reads a decimal number. -/
def read? (cs : List Char) : Option Decimal := do
  let (negative, rest) := Number.sign cs
  let (units, places, rest) ← mantissa? rest
  let exponent ← exponent? rest
  return ⟨negative, units, exponent - places⟩

end Decimal

end RebasePlan
