import Mathlib.Algebra.Ring.Nat
import RebasePlan.Toml.Reader

/-! # Strings in TOML texts

    Every string can be written between double quotes: a character that cannot stand
    there for itself is written by its number.  What is written so is read back
    (`Toml.string_quoted`), and a line with a dotted key of bare names and a string
    behind it is the table that holds this string (`Toml.read?_line`). -/

namespace RebasePlan.Toml

/-! ## Characters by their numbers -/

/-- The last `count` digits of a number in base sixteen. -/
def hexDigits : Nat → Nat → List Char
  | 0, _ => []
  | count + 1, n => hexDigits count (n / 16) ++ [Nat.digitChar (n % 16)]

/-- A hexadecimal digit is worth the number that it was written for. -/
theorem digitValue?_digitChar {n : Nat} (h : n < 16) :
    Number.digitValue? (Nat.digitChar n) = some n := by
  have hall : ∀ d : Fin 16, Number.digitValue? (Nat.digitChar d) = some d.val := by decide
  exact hall ⟨n, h⟩

theorem length_hexDigits (count n : Nat) : (hexDigits count n).length = count := by
  induction count generalizing n with
  | zero => rfl
  | succ count ih => rw [hexDigits, List.length_append, ih, List.length_singleton]

theorem all_hexDigits (count n : Nat) : (hexDigits count n).all (Number.isDigitOf 16) = true := by
  induction count generalizing n with
  | zero => rfl
  | succ count ih =>
      have hlt : n % 16 < 16 := Nat.mod_lt _ (by decide)
      rw [hexDigits, List.all_append, ih, Bool.true_and, List.all_cons, List.all_nil, Bool.and_true,
        Number.isDigitOf, digitValue?_digitChar hlt]
      exact decide_eq_true hlt

/-- A number that fits into its digits is what they are worth. -/
theorem ofDigits_hexDigits {count n : Nat} (h : n < 16 ^ count) :
    Number.ofDigits 16 (hexDigits count n) = n := by
  induction count generalizing n with
  | zero =>
      rw [Nat.pow_zero] at h
      rw [Nat.lt_one_iff.mp h]
      rfl
  | succ count ih =>
      have hlt : n % 16 < 16 := Nat.mod_lt _ (by decide)
      have hdiv : n / 16 < 16 ^ count := by
        rw [Nat.pow_succ] at h
        exact Nat.div_lt_of_lt_mul (by rwa [Nat.mul_comm])
      have hfront := ih hdiv
      rw [Number.ofDigits] at hfront
      rw [Number.ofDigits, hexDigits, List.foldl_append, hfront, List.foldl_cons, List.foldl_nil,
        digitValue?_digitChar hlt, Option.getD_some]
      omega

theorem charOf?_toNat (c : Char) : charOf? c.toNat = some c := by
  have hvalid : c.toNat.isValidChar := c.valid
  rw [charOf?, dif_pos hvalid]
  rfl

/-- Eight digits are read back as the character that they were written for. -/
theorem hexEscape_hexDigits (c : Char) (rest : List Char) :
    hexEscape 8 (hexDigits 8 c.toNat ++ rest) = some (c, rest) := by
  have hlength : (hexDigits 8 c.toNat).length = 8 := length_hexDigits 8 _
  have hlt : c.toNat < 16 ^ 8 := by
    have hvalid : c.toNat < 0xD800 ∨ 0xDFFF < c.toNat ∧ c.toNat < 0x110000 := c.valid
    omega
  rw [hexEscape, List.take_left' hlength, List.drop_left' hlength, hlength, all_hexDigits,
    ofDigits_hexDigits hlt, charOf?_toNat]
  rfl

/-! ## Strings between double quotes -/

/-- A character between double quotes. -/
def quotedChar (c : Char) : List Char :=
  if isTextChar c && c != '"' && c != '\\' then [c] else '\\' :: 'U' :: hexDigits 8 c.toNat

/-- A string between double quotes. -/
def quoted (s : String) : List Char := '"' :: (s.toList.flatMap quotedChar ++ ['"'])

/-- How strings stand between double quotes on one line. -/
def doubleQuotes : Quoting := ⟨'"', false, true⟩

/-- A written character is read back first, and the rest after it. -/
theorem body_quotedChar (c : Char) (fuel : Nat) (rest : List Char) :
    doubleQuotes.body (fuel + 1) (quotedChar c ++ rest)
      = (doubleQuotes.body fuel rest).map fun (text, rest) => (c :: text, rest) := by
  rw [quotedChar]
  split
  · next hplain =>
    rw [Bool.and_eq_true, Bool.and_eq_true, bne_iff_ne, bne_iff_ne] at hplain
    obtain ⟨⟨htext, hquote⟩, hbackslash⟩ := hplain
    have hnoquote : ¬ c = doubleQuotes.quote := hquote
    have hnoescape : ¬ (decide (c = '\\') && doubleQuotes.escapes) = true := by
      rw [decide_eq_false hbackslash]
      exact Bool.false_ne_true
    rw [List.singleton_append, Quoting.body, if_neg hnoquote, if_neg hnoescape, htext,
      Bool.true_or, if_pos rfl]
  · have hescape : (decide ('\\' = '\\') && doubleQuotes.escapes) = true := rfl
    rw [List.cons_append, Quoting.body, if_neg (by decide), if_pos hescape]
    show ((escape ('U' :: (hexDigits 8 c.toNat ++ rest))).bind _) = _
    rw [escape, hexEscape_hexDigits, Option.bind_some]
    show (doubleQuotes.body fuel rest).bind _ = _
    rw [Option.map_eq_bind]
    rfl

/-- By induction on the characters, a written text is read back up to the closing quote. -/
theorem body_quoted (cs rest : List Char) {fuel : Nat} (h : cs.length < fuel) :
    doubleQuotes.body fuel (cs.flatMap quotedChar ++ '"' :: rest) = some (cs, rest) := by
  induction cs generalizing fuel with
  | nil =>
      obtain ⟨fuel, rfl⟩ := Nat.exists_eq_add_one_of_ne_zero (Nat.ne_of_gt h)
      have hquote : '"' = doubleQuotes.quote := rfl
      rw [List.flatMap_nil, List.nil_append, Quoting.body, if_pos hquote]
      rfl
  | cons c cs ih =>
      obtain ⟨fuel, rfl⟩ := Nat.exists_eq_add_one_of_ne_zero (Nat.ne_zero_of_lt h)
      rw [List.flatMap_cons, List.append_assoc, body_quotedChar,
        ih (Nat.lt_of_succ_lt_succ h)]
      rfl

theorem length_le_flatMap_quotedChar (cs : List Char) :
    cs.length ≤ (cs.flatMap quotedChar).length := by
  induction cs with
  | nil => exact Nat.le_refl 0
  | cons c cs ih =>
      have hpos : 1 ≤ (quotedChar c).length := by
        rw [quotedChar]
        split
        · exact Nat.le_refl 1
        · exact Nat.succ_le_succ (Nat.zero_le _)
      rw [List.flatMap_cons, List.length_append, List.length_cons]
      omega

/-- A text between quotes is read back. -/
theorem read_doubleQuotes (cs rest : List Char) :
    doubleQuotes.read (cs.flatMap quotedChar ++ '"' :: rest) = some (String.ofList cs, rest) := by
  have hle := length_le_flatMap_quotedChar cs
  have hlt : cs.length < (cs.flatMap quotedChar ++ '"' :: rest).length := by
    rw [List.length_append, List.length_cons]
    omega
  have hread (text : List Char) : doubleQuotes.read text = (doubleQuotes.body text.length text).map
      fun (cs, rest) => (String.ofList cs, rest) := rfl
  rw [hread, body_quoted cs rest hlt]
  rfl

/-- Behind the opening quote, two more never follow: what looks like three quotes is longer. -/
theorem flatMap_quotedChar_ne (cs tail : List Char) :
    cs.flatMap quotedChar ++ ['"'] ≠ '"' :: '"' :: tail := by
  cases cs with
  | nil => exact fun h => nomatch (List.cons.inj h).2
  | cons c cs =>
      rw [List.flatMap_cons, quotedChar]
      split
      · next hplain =>
        rw [Bool.and_eq_true, Bool.and_eq_true, bne_iff_ne] at hplain
        exact fun h => hplain.1.2 (List.cons.inj h).1
      · exact fun h => absurd (List.cons.inj h).1 (by decide)

/-- **EVERY STRING CAN BE WRITTEN**: a string between double quotes is read back. -/
theorem string_quoted (s : String) : string (quoted s) = some (s, []) := by
  have hline : lineString (quoted s) = some (s, []) := by
    show doubleQuotes.read _ = _
    rw [read_doubleQuotes, String.ofList_toList]
  rw [← hline, quoted, string]
  · exact fun tail h => flatMap_quotedChar_ne _ tail (List.cons.inj h).2
  · exact fun tail h => absurd (List.cons.inj h).1 (by decide)

/-! ## A line with a string -/

/-- A name that can stand in a key without quotes. -/
def IsBare (name : String) : Prop := name ≠ "" ∧ ∀ c ∈ name.toList, isBareChar c = true

/-- A line that gives a string to a name in a table. -/
def line (table name value : String) : String :=
  table ++ "." ++ name ++ "=" ++ String.ofList (quoted value)

theorem IsBare.exists_cons {name : String} (h : IsBare name) :
    ∃ c cs, name.toList = c :: cs ∧ isBareChar c = true := by
  cases hlist : name.toList with
  | nil => exact absurd (String.toList_eq_nil_iff.mp hlist) h.1
  | cons c cs => exact ⟨c, cs, rfl, h.2 c (hlist ▸ List.mem_cons_self)⟩

/-- A character of a bare name is none of those that the readers look for. -/
theorem ne_of_isBareChar {c d : Char} (h : isBareChar c = true) (hd : isBareChar d = false) :
    c ≠ d := by
  rintro rfl
  rw [hd] at h
  exact nomatch h

theorem isSpace_of_isBareChar {c : Char} (h : isBareChar c = true) : isSpace c = false := by
  rw [isSpace, Bool.or_eq_false_iff, beq_eq_false_iff_ne, beq_eq_false_iff_ne]
  exact ⟨ne_of_isBareChar h (by decide), ne_of_isBareChar h (by decide)⟩

/-- A bare name is read up to the first character that is not bare. -/
theorem name_bare {n : String} (h : IsBare n) {c : Char} (hc : isBareChar c = false)
    (rest : List Char) : name (n.toList ++ c :: rest) = some (n, c :: rest) := by
  obtain ⟨d, ds, hlist, hd⟩ := h.exists_cons
  have htake : (n.toList ++ c :: rest).takeWhile isBareChar = n.toList := by
    rw [List.takeWhile_append_of_pos h.2, List.takeWhile_cons, hc]
    exact List.append_nil _
  have hdrop : (n.toList ++ c :: rest).dropWhile isBareChar = c :: rest := by
    rw [List.dropWhile_append_of_pos h.2, List.dropWhile_cons, hc]
    rfl
  rw [name]
  · rw [htake, hdrop, String.ofList_toList, hlist]
    rfl
  · rw [hlist]
    exact fun _ heq => ne_of_isBareChar hd (by decide) (List.cons.inj heq).1
  · rw [hlist]
    exact fun _ heq => ne_of_isBareChar hd (by decide) (List.cons.inj heq).1

theorem skipSpace_of_not_isSpace {c : Char} (h : isSpace c = false) (rest : List Char) :
    skipSpace (c :: rest) = c :: rest := by
  rw [skipSpace, List.dropWhile_cons, h]
  rfl

section

variable {t n : String} (ht : IsBare t) (hn : IsBare n)

include hn in
/-- The name in front of an equals sign is the last of a key. -/
theorem names_last (fuel : Nat) (rest : List Char) :
    names (fuel + 1) (n.toList ++ '=' :: rest) = some ([n], '=' :: rest) := by
  have hrest := skipSpace_of_not_isSpace (c := '=') (by decide) rest
  simp only [names, name_bare hn (show isBareChar '=' = false by decide), Option.bind_eq_bind,
    Option.bind_some, hrest]
  rfl

include ht hn in
/-- A key of two bare names is read as these two. -/
theorem key_dotted (rest : List Char) :
    key (t.toList ++ '.' :: (n.toList ++ '=' :: rest)) = some ([t, n], '=' :: rest) := by
  obtain ⟨c, cs, hlist, hc⟩ := hn.exists_cons
  have hspace := isSpace_of_isBareChar hc
  have hmore : skipSpace (n.toList ++ '=' :: rest) = n.toList ++ '=' :: rest := by
    rw [hlist]
    exact skipSpace_of_not_isSpace hspace _
  have hlength : ∃ fuel,
      (t.toList ++ '.' :: (n.toList ++ '=' :: rest)).length + 1 = fuel + 1 + 1 :=
    ⟨t.toList.length + (n.toList ++ '=' :: rest).length, by
      rw [List.length_append, List.length_cons]; omega⟩
  obtain ⟨fuel, hfuel⟩ := hlength
  have hdot := skipSpace_of_not_isSpace (c := '.') (by decide) (n.toList ++ '=' :: rest)
  rw [key, hfuel, names]
  simp only [name_bare ht (show isBareChar '.' = false by decide), Option.bind_eq_bind,
    Option.bind_some, hdot, hmore, names_last hn]
  rfl

/-- A written text is read back as a value. -/
theorem value_quoted (s : String) (depth : Nat) :
    value depth (quoted s) = some (.string s, []) := by
  have hstring := string_quoted s
  rw [quoted] at hstring ⊢
  rw [value, hstring]
  · rfl
  · exact fun _ _ _ h => absurd (List.cons.inj h).1 (by decide)
  · exact fun _ _ _ h => absurd (List.cons.inj h).1 (by decide)

include ht hn in
/-- A line with a dotted key and a written text is an entry. -/
theorem statement_line (v : String) :
    statement (t.toList ++ '.' :: (n.toList ++ '=' :: quoted v))
      = some (.entry [t, n] (.string v), []) := by
  have hentry : entry (value maxDepth) (t.toList ++ '.' :: (n.toList ++ '=' :: quoted v))
      = some (([t, n], .string v), []) := by
    have hequals := skipSpace_of_not_isSpace (c := '=') (by decide) (quoted v)
    have hquote : skipSpace (quoted v) = quoted v :=
      skipSpace_of_not_isSpace (c := '"') (by decide) _
    rw [entry, key_dotted ht hn]
    simp only [Option.bind_eq_bind, Option.bind_some, hequals, mark, if_pos, hquote,
      value_quoted]
    rfl
  obtain ⟨c, cs, hlist, hc⟩ := ht.exists_cons
  have hbracket : c ≠ '[' := ne_of_isBareChar hc (by decide)
  rw [hlist] at hentry ⊢
  rw [List.cons_append] at hentry ⊢
  rw [statement, hentry]
  · rfl
  · exact fun _ h => hbracket (List.cons.inj h).1
  · exact fun _ h => hbracket (List.cons.inj h).1

/-- A line does not end where a name begins. -/
theorem lineEnd?_bare {c : Char} (hc : isBareChar c = true) (rest : List Char) :
    lineEnd? (c :: rest) = none := by
  have hne {d : Char} (hd : isBareChar d = false) : c ≠ d := ne_of_isBareChar hc hd
  have hnewline : newline? (c :: rest) = none := by
    rw [newline?]
    · exact fun _ h => hne (by decide) (List.cons.inj h).1
    · exact fun _ h => hne (by decide) (List.cons.inj h).1
  rw [lineEnd?, skipSpace_of_not_isSpace (isSpace_of_isBareChar hc)]
  split
  · next heq => exact absurd (List.cons.inj heq).1 (hne (by decide))
  · rw [List.isEmpty_cons, if_neg Bool.false_ne_true, hnewline]

theorem statements?_nil (fuel : Nat) : statements? fuel [] = some [] := by
  cases fuel <;> rfl

include ht hn in
/-- **A LINE WITH A STRING** is the table that holds this string under its key. -/
theorem read?_line (v : String) :
    read? (line t n v) = some [(t, .table [(n, .string v)])] := by
  obtain ⟨c, cs, hlist, hc⟩ := ht.exists_cons
  have hchars : (line t n v).toList = c :: (cs ++ '.' :: (n.toList ++ '=' :: quoted v)) := by
    rw [line, String.toList_append, String.toList_append, String.toList_append,
      String.toList_append, String.toList_ofList, hlist]
    simp
  have hmark : Text.withoutMark (line t n v).toList = (line t n v).toList := by
    rw [hchars, Text.withoutMark, if_neg (ne_of_isBareChar hc (by decide))]
  have hspace := isSpace_of_isBareChar hc
  have hstatement := statement_line ht hn v
  rw [hlist, List.cons_append] at hstatement
  have hstatements : statements? (line t n v).toList.length (line t n v).toList
      = some [.entry [t, n] (.string v)] := by
    rw [hchars, List.length_cons, statements?]
    simp only [List.isEmpty_cons, Bool.false_eq_true, if_false, lineEnd?_bare hc,
      skipSpace_of_not_isSpace hspace, hstatement, Option.bind_eq_bind, Option.bind_some,
      show lineEnd? [] = some [] from rfl, statements?_nil]
    rfl
  rw [read?, hmark, hstatements]
  rfl

end

end RebasePlan.Toml
