import RebasePlan.Toml.Text

/-!
# Plain values of TOML

Numbers, truth values, and moments: values that are written without quotes or brackets. An
underscore may stand between two digits of a number. A whole number has 64 bits with sign; a number
that is too large is refused.

A moment is a date, a time, or both, maybe with a distance from universal time. The written form is
brought to a common shape: a `T` between date and time, a fraction of a second without closing
zeros.
-/

namespace RebasePlan.Toml

/-! ## Dates and times -/

/-- Reads a number of exactly `count` digits. -/
def fixedDigits (count : Nat) : Reads Nat := fun cs =>
  let digits := cs.take count
  if digits.length = count && digits.all Number.isDigit then
    some (Number.ofDigits 10 digits, cs.drop count)
  else none

/-- Reads one given character. -/
def mark (c : Char) : Reads Unit
  | d :: rest => if d = c then some ((), rest) else none
  | [] => none

/-- A number with zeros in front, up to a number of digits. -/
def padded (count n : Nat) : List Char :=
  let digits := Nat.toDigits 10 n
  List.replicate (count - digits.length) '0' ++ digits

/-- Whether a year has a leap day. -/
def isLeapYear (year : Nat) : Bool := year % 4 == 0 && (year % 100 != 0 || year % 400 == 0)

/-- The number of days in a month. -/
def daysIn (year month : Nat) : Nat :=
  if month = 2 then if isLeapYear year then 29 else 28
  else if [4, 6, 9, 11].contains month then 30
  else 31

/-- Reads a date. -/
def date : Reads (List Char) := fun cs => do
  let (year, cs) ← fixedDigits 4 cs
  let (_, cs) ← mark '-' cs
  let (month, cs) ← fixedDigits 2 cs
  let (_, cs) ← mark '-' cs
  let (day, cs) ← fixedDigits 2 cs
  if 1 ≤ month && month ≤ 12 && 1 ≤ day && day ≤ daysIn year month then
    return (padded 4 year ++ '-' :: padded 2 month ++ '-' :: padded 2 day, cs)
  else none

/-- A fraction of a second to nine places, without closing zeros, but with one digit at least. -/
def fraction (digits : List Char) : List Char :=
  match ((digits.take 9).reverse.dropWhile (· == '0')).reverse with
  | [] => ['0']
  | kept => kept

/-- Reads the seconds of a time, if it has any. -/
def seconds : Reads (List Char)
  | ':' :: rest => do
    let (second, rest) ← fixedDigits 2 rest
    if second > 60 then none
    else
      match rest with
      | '.' :: more =>
        let digits := more.takeWhile Number.isDigit
        if digits.isEmpty then none
        else
          return (':' :: padded 2 second ++ '.' :: fraction digits,
            more.dropWhile Number.isDigit)
      | _ => return (':' :: padded 2 second, rest)
  | cs => some ([], cs)

/-- Reads hours and minutes. -/
def clock : Reads (List Char) := fun cs => do
  let (hour, cs) ← fixedDigits 2 cs
  let (_, cs) ← mark ':' cs
  let (minute, cs) ← fixedDigits 2 cs
  if hour ≤ 23 && minute ≤ 59 then return (padded 2 hour ++ ':' :: padded 2 minute, cs)
  else none

/-- Reads a time. -/
def time : Reads (List Char) := fun cs => do
  let (clock, cs) ← clock cs
  let (seconds, cs) ← seconds cs
  return (clock ++ seconds, cs)

/-- Reads a distance from universal time, if there is one. -/
def distance : Reads (List Char)
  | 'Z' :: rest => some (['Z'], rest)
  | 'z' :: rest => some (['Z'], rest)
  | '+' :: rest => (clock rest).map fun (text, rest) => ('+' :: text, rest)
  | '-' :: rest => (clock rest).map fun (text, rest) =>
    ((if text = "00:00".toList then '+' else '-') :: text, rest)
  | cs => some ([], cs)

/-- What may stand between a date and a time. -/
def isTimeMark (c : Char) : Bool := c == 'T' || c == 't' || c == ' '

/-- The written form of a moment that takes up a whole text. -/
def moment? (cs : List Char) : Option (List Char) :=
  match date cs with
  | some (text, []) => some text
  | some (text, c :: rest) => do
    if isTimeMark c then
      let (clock, rest) ← time rest
      let (distance, rest) ← distance rest
      if rest.isEmpty then return text ++ 'T' :: clock ++ distance else none
    else none
  | none => match time cs with
    | some (text, []) => some text
    | _ => none

/-! ## Numbers and truth values -/

/-- The characters of a plain value. -/
def isPlainChar (c : Char) : Bool :=
  c.isAlphanum || c == '_' || c == '+' || c == '-' || c == '.' || c == ':'

/-- The digits of a number without its underscores, each of which must stand between two digits. -/
def digitsOf? (base : Nat) : List Char → Option (List Char)
  | [] => none
  | [c] => if Number.isDigitOf base c then some [c] else none
  | c :: '_' :: rest =>
    if Number.isDigitOf base c then (digitsOf? base rest).map (c :: ·) else none
  | c :: d :: rest =>
    if Number.isDigitOf base c then (digitsOf? base (d :: rest)).map (c :: ·) else none

/-- The digits of a whole number in base ten: no zero in front of other digits. -/
def wholeDigits? (cs : List Char) : Option (List Char) := do
  let digits ← digitsOf? 10 cs
  if digits.length > 1 && digits.head? == some '0' then none else return digits

/-- The sign of a number, as written, and what follows it. -/
def signText (cs : List Char) : List Char × List Char :=
  match cs with
  | '+' :: rest => (['+'], rest)
  | '-' :: rest => (['-'], rest)
  | rest => ([], rest)

/-- A whole number in base ten. -/
def integer? (cs : List Char) : Option Int := do
  let (sign, rest) := signText cs
  let digits ← wholeDigits? rest
  Number.signed? (sign ++ digits)

/-- A whole number in another base. -/
def basedInteger? (base : Nat) (cs : List Char) : Option Int := do
  let digits ← digitsOf? base cs
  Number.fitSigned? (Number.ofDigits base digits)

/-- The part of a number behind its point. -/
def fractionDigits? (cs : List Char) : Option (List Char) := (digitsOf? 10 cs).map ('.' :: ·)

/-- The exponent of a number. -/
def exponentDigits? (cs : List Char) : Option (List Char) := do
  let (sign, rest) := signText cs
  let digits ← digitsOf? 10 rest
  return 'e' :: (sign ++ digits)

/-- Cuts a text in front of the first character that satisfies `p`. -/
def cutBefore (p : Char → Bool) (cs : List Char) : List Char × List Char :=
  (cs.takeWhile fun c => !p c, cs.dropWhile fun c => !p c)

/-- A number with a point or an exponent, in its plainest written form. -/
def floatText? (cs : List Char) : Option (List Char) := do
  let (sign, rest) := signText cs
  let (front, back) := cutBefore (fun c => c == 'e' || c == 'E') rest
  let (whole, point) := cutBefore (· == '.') front
  let digits ← wholeDigits? whole
  if point.isEmpty && back.isEmpty then none
  let fraction ← match point with
    | [] => some []
    | _ :: more => fractionDigits? more
  let exponent ← match back with
    | [] => some []
    | _ :: more => exponentDigits? more
  return sign ++ digits ++ fraction ++ exponent

/-- A number with a point or an exponent, or one of the words that stand for such a number. -/
def float? (cs : List Char) : Option Binary64 :=
  let (sign, rest) := signText cs
  if rest = "inf".toList then some (.infinite (sign == ['-']))
  else if rest = "nan".toList then some .notANumber
  else do
    let text ← floatText? cs
    match ← Binary64.read? text with
    | .infinite _ => none
    | x => return x

/-- The plain value that a text stands for. -/
def plain? (cs : List Char) : Option Value :=
  if cs = "true".toList then some (.boolean true)
  else if cs = "false".toList then some (.boolean false)
  else
    match cs with
    | '0' :: 'x' :: digits => (basedInteger? 16 digits).map .integer
    | '0' :: 'o' :: digits => (basedInteger? 8 digits).map .integer
    | '0' :: 'b' :: digits => (basedInteger? 2 digits).map .integer
    | _ => (moment? cs).map (fun text => .moment (String.ofList text)) <|>
      (integer? cs).map .integer <|> (float? cs).map .float

/-- Reads a plain value. A space may stand between a date and a time. -/
def plain : Reads Value := fun cs =>
  let word := cs.takeWhile isPlainChar
  let rest := cs.dropWhile isPlainChar
  match date word, rest with
  | some (_, []), ' ' :: d :: more =>
    if Number.isDigit d then
      let time := (d :: more).takeWhile isPlainChar
      (plain? (word ++ ' ' :: time)).map fun v => (v, (d :: more).dropWhile isPlainChar)
    else (plain? word).map fun v => (v, rest)
  | _, _ => (plain? word).map fun v => (v, rest)

end RebasePlan.Toml
