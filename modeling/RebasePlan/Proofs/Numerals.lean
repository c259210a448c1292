import RebasePlan.Number.Decimal

/-! # Numerals

    The decimal digits of a number stand for this number again.  With a minus in front
    they stand for a number with sign, as far as 64 bits hold it
    (`Number.signed?_toString`); a number without sign has no minus
    (`Number.unsigned?_toString_natCast`, `Number.unsigned?_toString_negSucc`). -/

namespace RebasePlan.Number

/-- A decimal digit is worth its distance from zero. -/
theorem digitValue?_of_isDigit {c : Char} (h : c.isDigit = true) :
    digitValue? c = some (c.toNat - '0'.toNat) := by
  rw [Char.isDigit, Bool.and_eq_true, decide_eq_true_iff, decide_eq_true_iff] at h
  have hlow : '0' ≤ c := h.1
  have hhigh : c ≤ '9' := h.2
  rw [digitValue?, decide_eq_true hlow, decide_eq_true hhigh]
  rfl

theorem isDigit_of_isDigit {c : Char} (h : c.isDigit = true) : isDigit c = true := by
  have hhigh : c.toNat ≤ 57 := by
    rw [Char.isDigit, Bool.and_eq_true, decide_eq_true_iff, decide_eq_true_iff] at h
    exact h.2
  rw [isDigit, isDigitOf, digitValue?_of_isDigit h]
  refine decide_eq_true ?_
  show c.toNat - 48 < 10
  omega

/-- Decimal digits are worth what the library says. -/
theorem ofDigits_eq_ofDigitChars {digits : List Char} (h : ∀ c ∈ digits, c.isDigit = true) :
    ofDigits 10 digits = Nat.ofDigitChars 10 digits 0 := by
  rw [ofDigits, Nat.ofDigitChars_eq_foldl]
  suffices hfold : ∀ start : Nat,
      digits.foldl (fun n c => n * 10 + (digitValue? c).getD 0) start
        = digits.foldl (fun n c => 10 * n + (c.toNat - '0'.toNat)) start from hfold 0
  induction digits with
  | nil => exact fun _ => rfl
  | cons c rest ih =>
      intro start
      rw [List.foldl_cons, List.foldl_cons, digitValue?_of_isDigit (h c List.mem_cons_self),
        Option.getD_some, Nat.mul_comm]
      exact ih (fun d hd => h d (List.mem_cons_of_mem _ hd)) _

/-- The digits of a number stand for it. -/
theorem digits?_toDigits (n : Nat) : digits? (Nat.toDigits 10 n) = some n := by
  have hdigits : ∀ c ∈ Nat.toDigits 10 n, c.isDigit = true := fun c hc =>
    Nat.isDigit_of_mem_toDigits (by decide) (by decide) hc
  have hall : (Nat.toDigits 10 n).all isDigit = true :=
    List.all_eq_true.mpr fun c hc => isDigit_of_isDigit (hdigits c hc)
  have hne : (Nat.toDigits 10 n).isEmpty = false := by
    rw [List.isEmpty_eq_false_iff]
    exact Nat.toDigits_ne_nil
  rw [digits?, hall, hne, ofDigits_eq_ofDigitChars hdigits, Nat.ofDigitChars_ten_toDigits]
  rfl

/-! ## Signs -/

theorem sign_of_isDigit {c : Char} (h : c.isDigit = true) (rest : List Char) :
    sign (c :: rest) = (false, c :: rest) := by
  have hminus : c ≠ '-' := fun heq => absurd h (heq ▸ by decide)
  have hplus : c ≠ '+' := fun heq => absurd h (heq ▸ by decide)
  rw [sign]
  · exact fun _ heq => hminus (List.cons.inj heq).1
  · exact fun _ heq => hplus (List.cons.inj heq).1

theorem sign_toDigits (n : Nat) : sign (Nat.toDigits 10 n) = (false, Nat.toDigits 10 n) := by
  cases hdigits : Nat.toDigits 10 n with
  | nil => exact absurd hdigits Nat.toDigits_ne_nil
  | cons c rest =>
      refine sign_of_isDigit (Nat.isDigit_of_mem_toDigits (b := 10) (n := n) ?_ ?_ ?_) rest
      · decide
      · decide
      · rw [hdigits]
        exact List.mem_cons_self

/-- An integer that is not negative is written in its digits. -/
theorem toList_toString_natCast (n : Nat) : (toString (n : Int)).toList = Nat.toDigits 10 n :=
  Nat.toList_repr

/-- A negative one is written in those of its distance from zero, behind a minus sign. -/
theorem toList_toString_negSucc (n : Nat) :
    (toString (Int.negSucc n)).toList = '-' :: Nat.toDigits 10 (n + 1) := by
  show ("-" ++ (n + 1).repr).toList = _
  rw [String.toList_append, Nat.toList_repr]
  rfl

theorem mem_toString {n : Int} {c : Char} (hc : c ∈ (toString n).toList) :
    c = '-' ∨ c.isDigit = true := by
  have hdigit {k : Nat} (h : c ∈ Nat.toDigits 10 k) : c.isDigit = true :=
    Nat.isDigit_of_mem_toDigits (by decide) (by decide) h
  cases n with
  | ofNat k =>
      rw [Int.ofNat_eq_natCast, toList_toString_natCast] at hc
      exact .inr (hdigit hc)
  | negSucc k =>
      rw [toList_toString_negSucc] at hc
      exact (List.mem_cons.mp hc).imp id hdigit

/-- **A NUMERAL STANDS FOR ITS NUMBER**, if this is one of 64 bits with sign. -/
theorem signed?_toString (n : Int) : signed? (toString n).toList = fitSigned? n := by
  cases n with
  | ofNat k =>
      rw [Int.ofNat_eq_natCast, toList_toString_natCast, signed?, sign_toDigits]
      dsimp only
      rw [digits?_toDigits]
      rfl
  | negSucc k =>
      rw [toList_toString_negSucc, signed?]
      show (digits? (Nat.toDigits 10 (k + 1))).bind (fun n => fitSigned? (signed true n)) = _
      rw [digits?_toDigits, Option.bind_some, show signed true (k + 1) = Int.negSucc k from rfl]

/-- An integer that is not negative is read as it was written, if there is room for it. -/
theorem unsigned?_toString_natCast (n : Nat) :
    unsigned? (toString (n : Int)).toList = if n ≤ maxUnsigned then some n else none := by
  rw [toList_toString_natCast, unsigned?, digits?_toDigits]
  · rfl
  · intro rest heq
    have hsign := sign_toDigits n
    rw [heq] at hsign
    exact absurd (Prod.mk.inj hsign).2 (by simp)

/-- A negative integer is not read where none is allowed. -/
theorem unsigned?_toString_negSucc (n : Nat) :
    unsigned? (toString (Int.negSucc n)).toList = none := by
  rw [toList_toString_negSucc]
  rfl

end RebasePlan.Number
