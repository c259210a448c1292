import RebasePlan.Number.Decimal

/-!
# Binary numbers of 64 bits

A finite binary number is a whole number of at most 53 bits times a power of two. Everything is
computed in exact arithmetic on whole numbers: a decimal number becomes the nearest binary one, the
even one of two equally near; and a binary number is written with the fewest digits that still read
back as the same number.
-/

namespace RebasePlan

/-- A binary number of 64 bits. -/
inductive Binary64 where
  /-- The number `significand * 2 ^ exponent` with a sign. -/
  | finite (negative : Bool) (significand : Nat) (exponent : Int)
  | infinite (negative : Bool)
  | notANumber
  deriving DecidableEq, Repr

namespace Binary64

/-- A significand has at most this many bits. -/
def precision : Nat := 53
/-- The exponent of the finest numbers. -/
def minExponent : Int := -1074
/-- The exponent of the coarsest numbers. -/
def maxExponent : Int := 971

/-- A positive fraction scaled by a power of `base`: numerator and denominator. -/
def scale (base num den : Nat) (exponent : Int) : Nat × Nat :=
  if 0 ≤ exponent then (num * base.pow exponent.toNat, den)
  else (num, den * base.pow (-exponent).toNat)

/-- The whole number nearest to a fraction, of two equally near ones the even one. -/
def nearestEven (num den : Nat) : Nat :=
  let low := num / den
  let twice := 2 * (num % den)
  if twice < den || (twice == den && low % 2 == 0) then low else low + 1

/-- The exponent at which a positive fraction has a significand of full precision, or that of the
    finest numbers if it is too small for that. -/
def exponentOf (num den : Nat) : Int :=
  let guess : Int := (num.log2 : Int) - den.log2 - precision
  let (n, d) := scale 2 num den (-guess)
  let exponent := if n / d < Nat.pow 2 precision then guess else guess + 1
  max exponent minExponent

/-- The binary number nearest to a positive fraction. -/
def ofFraction (negative : Bool) (num den : Nat) : Binary64 :=
  let exponent := exponentOf num den
  let (n, d) := scale 2 num den (-exponent)
  let significand := nearestEven n d
  let (significand, exponent) :=
    if significand < Nat.pow 2 precision then (significand, exponent)
    else (significand / 2, exponent + 1)
  if exponent ≤ maxExponent then finite negative significand exponent else infinite negative

/-- No binary number has a decimal order of magnitude beyond this. -/
def maxMagnitude : Int := 400

/-- The binary number nearest to a decimal one. -/
def ofDecimal (d : Decimal) : Binary64 :=
  let magnitude := (Decimal.digitsOf d.units).length + d.exponent
  if d.units = 0 || magnitude < -maxMagnitude then finite d.negative 0 minExponent
  else if magnitude > maxMagnitude then infinite d.negative
  else
    let (num, den) := scale 10 d.units 1 d.exponent
    ofFraction d.negative num den

/-- Reads a number: a decimal one, or one of the words for infinity and for what is no number. -/
def read? (cs : List Char) : Option Binary64 :=
  let (negative, rest) := Number.sign cs
  let word := rest.map Char.toLower
  if word = "inf".toList || word = "infinity".toList then some (infinite negative)
  else if word = "nan".toList then some notANumber
  else (Decimal.read? cs).map ofDecimal

/-! ## The shortest decimal form -/

/-- The greatest exponent with `10 ^ exponent` at most a positive fraction. The guess from the
    binary length is off by one at most. -/
def decimalExponent (num den : Nat) : Int :=
  let reaches (e : Int) : Bool :=
    let (n, d) := scale 10 num den (-e)
    d ≤ n
  let guess : Int := ((num.log2 : Int) - den.log2) * 30103 / 100000
  if reaches (guess + 1) then guess + 1 else if reaches guess then guess else guess - 1

/-- The fractions, over one denominator, that read back as `significand * 2 ^ exponent`: from the
    first number to the third, around the second. -/
structure Span where
  low : Nat
  value : Nat
  high : Nat
  den : Nat
  /-- Whether the two ends belong to it. -/
  closed : Bool

/-- The span of a positive binary number. Below a power of two the next number is half as far. -/
def spanOf (significand : Nat) (exponent : Int) : Span :=
  let below := if significand = Nat.pow 2 (precision - 1) && exponent > minExponent then 1 else 2
  let (unit, den) := scale 2 1 4 exponent
  ⟨(4 * significand - below) * unit, 4 * significand * unit, (4 * significand + 2) * unit, den,
    significand % 2 == 0⟩

/-- Whether `n * 10 ^ exponent` lies in a span. -/
def Span.holds (s : Span) (n : Nat) (exponent : Int) : Bool :=
  let (num, den) := scale 10 n 1 exponent
  let x := num * s.den
  let (low, high) := (s.low * den, s.high * den)
  if s.closed then low ≤ x && x ≤ high else low < x && x < high

/-- The number of units of `10 ^ exponent` in a span that is nearest to its value. -/
def Span.onGrid? (s : Span) (exponent : Int) : Option Nat :=
  let (num, den) := scale 10 s.value s.den (-exponent)
  let low := num / den
  let nearest := if 2 * (num % den) < den then low else low + 1
  let other := if nearest = low then low + 1 else low
  if s.holds nearest exponent then some nearest
  else if s.holds other exponent then some other
  else none

/-- The coarsest grid with a number in the span other than zero; grids are tried from `exponent`
    down, each ten times finer, `fuel` of them before the last. -/
def Span.shortest (s : Span) : Nat → Int → Nat × Int
  | 0, exponent => ((s.onGrid? exponent).getD 0, exponent)
  | fuel + 1, exponent =>
    match s.onGrid? exponent with
    | some n => if n = 0 then shortest s fuel (exponent - 1) else (n, exponent)
    | none => shortest s fuel (exponent - 1)

/-- Seventeen digits tell any two binary numbers apart. -/
def maxDigits : Nat := 17

/-- The decimal number of fewest digits that reads back as `significand * 2 ^ exponent`. -/
def shortest (negative : Bool) (significand : Nat) (exponent : Int) : Decimal :=
  if significand = 0 then ⟨negative, 0, 0⟩
  else
    let s := spanOf significand exponent
    let (units, exponent) := s.shortest maxDigits (decimalExponent s.value s.den + 1)
    ⟨negative, units, exponent⟩

/-- The written form of a binary number. -/
def text : Binary64 → String
  | finite negative significand exponent => (shortest negative significand exponent).text
  | infinite negative => if negative then "-inf" else "inf"
  | notANumber => "NaN"

/-- The whole number of 64 bits nearest to a binary number; a half goes up, what is below zero
    becomes zero, and what is too large the largest. -/
def toUnsigned : Binary64 → Nat
  | finite negative significand exponent =>
    if negative then 0
    else
      let (num, den) := scale 2 significand 1 exponent
      min Number.maxUnsigned ((2 * num + den) / (2 * den))
  | infinite negative => if negative then 0 else Number.maxUnsigned
  | notANumber => 0

end Binary64

end RebasePlan
