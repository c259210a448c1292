import Mathlib.Tactic.SplitIfs
import RebasePlan.Text.Utf8

/-! # Bytes are read as what was written

    The reader takes a character off the front of the bytes, byte class by byte
    class.  `Encodes` lists the forms that it accepts; they are just the written
    forms of characters (`encodes_iff`), so bytes can be read as a text just if
    they are that text as it is written (`strict_eq_some_iff`). -/

namespace RebasePlan.Text

/-- Bytes that the reader takes for one character. -/
inductive Encodes : Char → List UInt8 → Prop where
  | one {a : UInt8} : a < 0x80 → Encodes (Char.ofNat a.toNat) [a]
  | two {a b : UInt8} : leadsTwo a = true → mayFollow a b = true →
      Encodes (Char.ofNat (a.toNat % 32 * 64 + low6 b)) [a, b]
  | three {a b c : UInt8} : leadsThree a = true → mayFollow a b = true →
      isContinuation c = true →
      Encodes (Char.ofNat ((a.toNat % 16 * 64 + low6 b) * 64 + low6 c)) [a, b, c]
  | four {a b c d : UInt8} : leadsFour a = true → mayFollow a b = true →
      isContinuation c = true → isContinuation d = true →
      Encodes (Char.ofNat (((a.toNat % 8 * 64 + low6 b) * 64 + low6 c) * 64 + low6 d)) [a, b, c, d]

/-! ## Byte classes as numbers -/

/-- To compare bytes is to compare their numbers. -/
theorem byte_mem_range_iff {low high b : UInt8} :
    (decide (low ≤ b) && decide (b ≤ high)) = true ↔
      low.toNat ≤ b.toNat ∧ b.toNat ≤ high.toNat := by
  rw [Bool.and_eq_true, decide_eq_true_eq, decide_eq_true_eq, UInt8.le_iff_toNat_le,
    UInt8.le_iff_toNat_le]

/-- The bytes that continue a character, by number. -/
theorem isContinuation_iff {b : UInt8} :
    isContinuation b = true ↔ 0x80 ≤ b.toNat ∧ b.toNat ≤ 0xBF := byte_mem_range_iff

/-- The lead bytes of characters of two bytes, by number. -/
theorem leadsTwo_iff {a : UInt8} : leadsTwo a = true ↔ 0xC2 ≤ a.toNat ∧ a.toNat ≤ 0xDF :=
  byte_mem_range_iff

theorem leadsThree_iff {a : UInt8} : leadsThree a = true ↔ 0xE0 ≤ a.toNat ∧ a.toNat ≤ 0xEF :=
  byte_mem_range_iff

theorem leadsFour_iff {a : UInt8} : leadsFour a = true ↔ 0xF0 ≤ a.toNat ∧ a.toNat ≤ 0xF4 :=
  byte_mem_range_iff

/-- The second byte continues the character, and after some lead bytes not every continuation will
    do. -/
theorem mayFollow_iff {a b : UInt8} :
    mayFollow a b = true ↔ (0x80 ≤ b.toNat ∧ b.toNat ≤ 0xBF) ∧
      (a.toNat = 0xE0 → 0xA0 ≤ b.toNat) ∧ (a.toNat = 0xED → b.toNat ≤ 0x9F) ∧
      (a.toNat = 0xF0 → 0x90 ≤ b.toNat) ∧ (a.toNat = 0xF4 → b.toNat ≤ 0x8F) := by
  have hval : ∀ n : UInt8, (a == n) = true ↔ a.toNat = n.toNat := by
    intro n
    rw [beq_iff_eq, UInt8.toNat_inj]
  rw [mayFollow]
  split_ifs with hE0 hED hF0 hF4
  · have ha : a.toNat = 0xE0 := (hval _).mp hE0
    rw [byte_mem_range_iff]
    show 0xA0 ≤ b.toNat ∧ b.toNat ≤ 0xBF ↔ _
    omega
  · have ha : a.toNat = 0xED := (hval _).mp hED
    rw [byte_mem_range_iff]
    show 0x80 ≤ b.toNat ∧ b.toNat ≤ 0x9F ↔ _
    omega
  · have ha : a.toNat = 0xF0 := (hval _).mp hF0
    rw [byte_mem_range_iff]
    show 0x90 ≤ b.toNat ∧ b.toNat ≤ 0xBF ↔ _
    omega
  · have ha : a.toNat = 0xF4 := (hval _).mp hF4
    rw [byte_mem_range_iff]
    show 0x80 ≤ b.toNat ∧ b.toNat ≤ 0x8F ↔ _
    omega
  · have h₁ : a.toNat ≠ 0xE0 := fun h => hE0 ((hval _).mpr h)
    have h₂ : a.toNat ≠ 0xED := fun h => hED ((hval _).mpr h)
    have h₃ : a.toNat ≠ 0xF0 := fun h => hF0 ((hval _).mpr h)
    have h₄ : a.toNat ≠ 0xF4 := fun h => hF4 ((hval _).mpr h)
    rw [isContinuation_iff]
    omega

/-! ## The forms are the written characters -/

/-- The written form of a character whose number is known. -/
theorem utf8EncodeChar_ofNat {n : Nat} (h : n.isValidChar) :
    String.utf8EncodeChar (Char.ofNat n) =
      if n ≤ 127 then [UInt8.ofNat n]
      else if n ≤ 2047 then [UInt8.ofNat (n / 64 % 32 + 192), UInt8.ofNat (n % 64 + 128)]
      else if n ≤ 65535 then
        [UInt8.ofNat (n / 4096 % 16 + 224), UInt8.ofNat (n / 64 % 64 + 128),
          UInt8.ofNat (n % 64 + 128)]
      else
        [UInt8.ofNat (n / 262144 % 8 + 240), UInt8.ofNat (n / 4096 % 64 + 128),
          UInt8.ofNat (n / 64 % 64 + 128), UInt8.ofNat (n % 64 + 128)] := by
  have hval : (Char.ofNat n).val.toNat = n := by
    rw [Char.ofNat, dif_pos h]
    rfl
  rw [String.utf8EncodeChar, hval]

theorem byte_eq {a : UInt8} {n : Nat} (h : a.toNat = n) : UInt8.ofNat n = a := by
  rw [← h, UInt8.ofNat_toNat]

/-- What the reader takes for a character is its written form. -/
theorem Encodes.eq_utf8EncodeChar {c : Char} {bytes : List UInt8} (h : Encodes c bytes) :
    bytes = String.utf8EncodeChar c := by
  cases h with
  | @one a ha =>
      have hlt : a.toNat < 0x80 := UInt8.lt_iff_toNat_lt.mp ha
      rw [utf8EncodeChar_ofNat (Or.inl (by omega)), if_pos (by omega), UInt8.ofNat_toNat]
  | @two a b ha hb =>
      rw [leadsTwo_iff] at ha
      rw [mayFollow_iff] at hb
      rw [low6, utf8EncodeChar_ofNat (Or.inl (by omega)), if_neg (by omega), if_pos (by omega),
        byte_eq (a := a) (by omega), byte_eq (a := b) (by omega)]
  | @three a b c ha hb hc =>
      rw [leadsThree_iff] at ha
      rw [mayFollow_iff] at hb
      rw [isContinuation_iff] at hc
      rw [low6, low6, utf8EncodeChar_ofNat (by rw [Nat.isValidChar]; omega), if_neg (by omega),
        if_neg (by omega), if_pos (by omega), byte_eq (a := a) (by omega),
        byte_eq (a := b) (by omega), byte_eq (a := c) (by omega)]
  | @four a b c d ha hb hc hd =>
      rw [leadsFour_iff] at ha
      rw [mayFollow_iff] at hb
      rw [isContinuation_iff] at hc hd
      rw [low6, low6, low6, utf8EncodeChar_ofNat (by rw [Nat.isValidChar]; omega),
        if_neg (by omega), if_neg (by omega), if_neg (by omega), byte_eq (a := a) (by omega),
        byte_eq (a := b) (by omega), byte_eq (a := c) (by omega), byte_eq (a := d) (by omega)]

/-- A number below 256 as a byte. -/
theorem exists_byte {n : Nat} (h : n < 256) : ∃ a : UInt8, UInt8.ofNat n = a ∧ a.toNat = n := by
  refine ⟨UInt8.ofNat n, rfl, ?_⟩
  rw [UInt8.toNat_ofNat']
  exact Nat.mod_eq_of_lt h

/-- The written form of a character is taken for it. -/
theorem encodes_utf8EncodeChar (c : Char) : Encodes c (String.utf8EncodeChar c) := by
  obtain ⟨n, hn, hc⟩ : ∃ n, n.isValidChar ∧ c = Char.ofNat n :=
    ⟨c.toNat, c.valid, (Char.ofNat_toNat c).symm⟩
  rw [hc, utf8EncodeChar_ofNat hn]
  rw [Nat.isValidChar] at hn
  -- one case for each length of the written form
  split_ifs with h₁ h₂ h₃
  · obtain ⟨a, hbyte, ha⟩ := exists_byte (n := n) (by omega)
    have hlow : a < 0x80 := UInt8.lt_iff_toNat_lt.mpr (show a.toNat < 0x80 by omega)
    rw [hbyte, ← ha]
    exact .one hlow
  · obtain ⟨a, hbyte₁, ha⟩ := exists_byte (n := n / 64 % 32 + 192) (by omega)
    obtain ⟨b, hbyte₂, hb⟩ := exists_byte (n := n % 64 + 128) (by omega)
    have hnumber : a.toNat % 32 * 64 + low6 b = n := by
      rw [low6]
      omega
    rw [hbyte₁, hbyte₂, ← hnumber]
    exact .two (leadsTwo_iff.mpr (by omega)) (mayFollow_iff.mpr (by omega))
  · obtain ⟨a, hbyte₁, ha⟩ := exists_byte (n := n / 4096 % 16 + 224) (by omega)
    obtain ⟨b, hbyte₂, hb⟩ := exists_byte (n := n / 64 % 64 + 128) (by omega)
    obtain ⟨c, hbyte₃, hc⟩ := exists_byte (n := n % 64 + 128) (by omega)
    have hnumber : (a.toNat % 16 * 64 + low6 b) * 64 + low6 c = n := by
      rw [low6, low6]
      omega
    rw [hbyte₁, hbyte₂, hbyte₃, ← hnumber]
    exact .three (leadsThree_iff.mpr (by omega)) (mayFollow_iff.mpr (by omega))
      (isContinuation_iff.mpr (by omega))
  · obtain ⟨a, hbyte₁, ha⟩ := exists_byte (n := n / 262144 % 8 + 240) (by omega)
    obtain ⟨b, hbyte₂, hb⟩ := exists_byte (n := n / 4096 % 64 + 128) (by omega)
    obtain ⟨c, hbyte₃, hc⟩ := exists_byte (n := n / 64 % 64 + 128) (by omega)
    obtain ⟨d, hbyte₄, hd⟩ := exists_byte (n := n % 64 + 128) (by omega)
    have hnumber : ((a.toNat % 8 * 64 + low6 b) * 64 + low6 c) * 64 + low6 d = n := by
      rw [low6, low6, low6]
      omega
    rw [hbyte₁, hbyte₂, hbyte₃, hbyte₄, ← hnumber]
    exact .four (leadsFour_iff.mpr (by omega)) (mayFollow_iff.mpr (by omega))
      (isContinuation_iff.mpr (by omega)) (isContinuation_iff.mpr (by omega))

/-- **THE FORMS ARE THE WRITTEN CHARACTERS.** -/
theorem encodes_iff {c : Char} {bytes : List UInt8} :
    Encodes c bytes ↔ bytes = String.utf8EncodeChar c := by
  constructor
  · exact Encodes.eq_utf8EncodeChar
  · rintro rfl
    exact encodes_utf8EncodeChar c

/-! ## The front of the bytes -/

theorem not_lt_of_lead {a : UInt8} (h : 0x80 ≤ a.toNat) : ¬ a < 0x80 := by
  intro hlow
  have hlt : a.toNat < 0x80 := UInt8.lt_iff_toNat_lt.mp hlow
  omega

/-- A form at the front is taken off as its character. -/
theorem decode_encodes_append {c : Char} {bytes : List UInt8} (h : Encodes c bytes)
    (rest : List UInt8) : decode (bytes ++ rest) = .character c :: decode rest := by
  cases h with
  | @one a ha =>
      show decode (a :: rest) = _
      rw [decode.eq_def]
      exact if_pos ha
  | @two a b ha hb =>
      have hnum := leadsTwo_iff.mp ha
      have hhigh := not_lt_of_lead (a := a) (by omega)
      show decode (a :: b :: rest) = _
      rw [decode.eq_def]
      simp [hhigh, ha, hb]
  | @three a b c ha hb hc =>
      have hnum := leadsThree_iff.mp ha
      have hhigh := not_lt_of_lead (a := a) (by omega)
      have hnot : leadsTwo a = false := by
        rw [Bool.eq_false_iff, ne_eq, leadsTwo_iff]
        omega
      show decode (a :: b :: c :: rest) = _
      rw [decode.eq_def]
      simp [hhigh, hnot, ha, hb, hc]
  | @four a b c d ha hb hc hd =>
      have hnum := leadsFour_iff.mp ha
      have hhigh := not_lt_of_lead (a := a) (by omega)
      have hnot : leadsTwo a = false := by
        rw [Bool.eq_false_iff, ne_eq, leadsTwo_iff]
        omega
      have hnot' : leadsThree a = false := by
        rw [Bool.eq_false_iff, ne_eq, leadsThree_iff]
        omega
      show decode (a :: b :: c :: d :: rest) = _
      rw [decode.eq_def]
      simp [hhigh, hnot, hnot', ha, hb, hc, hd]

/-- At the front of the bytes stands one of the forms, or something broken. -/
theorem decode_front (a : UInt8) (rest : List UInt8) :
    (∃ x front rest', a :: rest = front ++ rest' ∧ Encodes x front) ∨
    ∃ bytes, (decode (a :: rest)).head? = some (.broken bytes) := by
  by_cases hlow : a < 0x80
  case pos => exact Or.inl ⟨_, [a], rest, rfl, .one hlow⟩
  by_cases hlead : (leadsTwo a || leadsThree a || leadsFour a) = true
  case neg =>
    rw [decode.eq_def]
    simp [hlow, hlead]
  -- from here on a byte is wanted at a time, and the bytes may be at their end
  rw [decode.eq_def]
  dsimp only
  rw [if_neg hlow, if_pos hlead]
  cases rest with
  | nil => exact Or.inr ⟨_, rfl⟩
  | cons b rest =>
  by_cases hb : mayFollow a b = true
  case neg => exact Or.inr ⟨[a], by simp [hb]⟩
  by_cases htwo : leadsTwo a = true
  case pos => exact Or.inl ⟨_, [a, b], rest, rfl, .two htwo hb⟩
  cases rest with
  | nil => exact Or.inr ⟨[a, b], by simp [hb, htwo]⟩
  | cons c rest =>
  by_cases hc : isContinuation c = true
  case neg => exact Or.inr ⟨[a, b], by simp [hb, htwo, hc]⟩
  by_cases hthree : leadsThree a = true
  case pos => exact Or.inl ⟨_, [a, b, c], rest, rfl, .three hthree hb hc⟩
  cases rest with
  | nil => exact Or.inr ⟨[a, b, c], by simp [hb, htwo, hc, hthree]⟩
  | cons d rest =>
  by_cases hd : isContinuation d = true
  case neg => exact Or.inr ⟨[a, b, c], by simp [hb, htwo, hc, hthree, hd]⟩
  have hfour : leadsFour a = true := by simpa [htwo, hthree] using hlead
  exact Or.inl ⟨_, [a, b, c, d], rest, rfl, .four hfour hb hc hd⟩

/-- What is taken off as a character has one of the forms. -/
theorem encodes_of_decode {bytes : List UInt8} {x : Char} {pieces : List Piece}
    (h : decode bytes = .character x :: pieces) :
    ∃ front rest, bytes = front ++ rest ∧ Encodes x front ∧ pieces = decode rest := by
  cases bytes with
  | nil => exact nomatch h
  | cons a rest =>
      rcases decode_front a rest with ⟨y, front, rest', hbytes, hform⟩ | ⟨bytes, hbroken⟩
      · rw [hbytes, decode_encodes_append hform] at h
        obtain ⟨hchar, hpieces⟩ := List.cons.inj h
        rw [Piece.character.inj hchar] at hform
        exact ⟨front, rest', hbytes, hform, hpieces.symm⟩
      · rw [h] at hbroken
        exact nomatch Option.some.inj hbroken

/-- No byte is passed over. -/
theorem decode_cons_ne_nil (a : UInt8) (rest : List UInt8) : decode (a :: rest) ≠ [] := by
  rcases decode_front a rest with ⟨x, front, rest', hbytes, hform⟩ | ⟨bytes, hbroken⟩
  · rw [hbytes, decode_encodes_append hform]
    exact List.cons_ne_nil _ _
  · intro hnil
    rw [hnil] at hbroken
    exact nomatch hbroken

/-! ## Whole texts -/

/-- The bytes of a text are taken apart into its characters. -/
theorem decode_flatMap (cs : List Char) :
    decode (cs.flatMap String.utf8EncodeChar) = cs.map Piece.character := by
  induction cs with
  | nil => rfl
  | cons c cs ih =>
      rw [List.flatMap_cons, decode_encodes_append (encodes_utf8EncodeChar c), ih, List.map_cons]

theorem characters?_map (cs : List Char) :
    Piece.characters? (cs.map Piece.character) = some cs := by
  induction cs with
  | nil => rfl
  | cons c cs ih => rw [List.map_cons, Piece.characters?, ih, Option.map_some]

/-- Pieces that are all well formed are their characters. -/
theorem eq_map_of_characters? {pieces : List Piece} {cs : List Char}
    (h : Piece.characters? pieces = some cs) : pieces = cs.map Piece.character := by
  induction pieces generalizing cs with
  | nil =>
      rw [← Option.some.inj h]
      rfl
  | cons piece pieces ih =>
      cases piece with
      | broken bytes => exact nomatch h
      | character c =>
          rw [Piece.characters?, Option.map_eq_some_iff] at h
          obtain ⟨rest, hrest, rfl⟩ := h
          rw [ih hrest, List.map_cons]

/-- Bytes that are taken for characters alone are those characters as they are written. -/
theorem eq_flatMap_of_decode {bytes : List UInt8} {cs : List Char}
    (h : decode bytes = cs.map Piece.character) : bytes = cs.flatMap String.utf8EncodeChar := by
  induction cs generalizing bytes with
  | nil =>
      cases bytes with
      | nil => rfl
      | cons a rest => exact absurd h (decode_cons_ne_nil a rest)
  | cons c cs ih =>
      obtain ⟨front, rest, rfl, hfront, hrest⟩ := encodes_of_decode h
      rw [List.flatMap_cons, ← encodes_iff.mp hfront, ← ih hrest.symm]

/-- **BYTES CAN BE READ AS A TEXT** just if they are that text as it is written. -/
theorem strict_eq_some_iff {bytes : List UInt8} {s : String} :
    strict bytes = some s ↔ bytes = encode s := by
  rw [strict, encode]
  constructor
  · intro h
    obtain ⟨cs, hcs, rfl⟩ := Option.map_eq_some_iff.mp h
    rw [String.toList_ofList]
    exact eq_flatMap_of_decode (eq_map_of_characters? hcs)
  · rintro rfl
    rw [decode_flatMap, characters?_map, Option.map_some, String.ofList_toList]

end RebasePlan.Text
