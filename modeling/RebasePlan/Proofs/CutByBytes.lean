import RebasePlan.Proofs.RuleLine
import RebasePlan.Proofs.Utf8Reading

/-! # A rule is cut between characters

    The reader scans a line once and looks for both separators at each place.
    `Rule.sidesByOffset` works on the bytes of the line instead: it searches for
    each separator by itself, takes the smaller offset, and slices the line there
    and behind the separator.  A slice fails where its offset lies inside a
    character.

    No slice fails, and the two come to the same sides
    (`Rule.sidesByOffset_eq`).  Both rest on one fact about the bytes of a text
    (`offset?_bytesOf`): a separator begins with an ASCII byte, and a character of
    more than one byte has no such byte in it, so the search stops where a
    character begins. -/

namespace RebasePlan.Text

/-! ## Bytes -/

@[simp] theorem bytesOf_nil : bytesOf [] = [] := rfl

@[simp] theorem bytesOf_cons (c : Char) (cs : List Char) :
    bytesOf (c :: cs) = String.utf8EncodeChar c ++ bytesOf cs := rfl

@[simp] theorem bytesOf_append (cs ds : List Char) :
    bytesOf (cs ++ ds) = bytesOf cs ++ bytesOf ds := List.flatMap_append

theorem encode_eq (s : String) : encode s = bytesOf s.toList := rfl

/-- A text has as many bytes as its size says. -/
theorem length_encode (s : String) : (encode s).length = s.utf8ByteSize := by
  have hbytes : s.toByteArray = (encode s).toByteArray := by
    show s.toByteArray = s.toList.utf8Encode
    rw [← String.toByteArray_ofList, String.ofList_toList]
  show (encode s).length = s.toByteArray.size
  rw [hbytes, List.size_toByteArray]

theorem lossy_bytesOf (cs : List Char) : lossy (bytesOf cs) = String.ofList cs := by
  have hshown : cs.map (Piece.shown ∘ Piece.character) = cs := List.map_id' cs
  rw [lossy, bytesOf, decode_flatMap, List.map_map, hshown]

/-! ## One character -/

/-- The bytes of a character: a first byte that continues nothing, and none behind it that is
    ASCII. -/
theorem exists_utf8EncodeChar (c : Char) :
    ∃ a rest, String.utf8EncodeChar c = a :: rest ∧ isContinuation a = false ∧
      ∀ b ∈ rest, 128 ≤ b.toNat := by
  have hcontinues {b : UInt8} (hb : isContinuation b = true) : 128 ≤ b.toNat :=
    (isContinuation_iff.mp hb).1
  have hfollows {a b : UInt8} (hb : mayFollow a b = true) : 128 ≤ b.toNat :=
    (mayFollow_iff.mp hb).1.1
  have hleads {a : UInt8} (ha : a.toNat < 128 ∨ 192 ≤ a.toNat) : isContinuation a = false := by
    rw [Bool.eq_false_iff, ne_eq, isContinuation_iff]
    omega
  have hform := encodes_utf8EncodeChar c
  generalize String.utf8EncodeChar c = bytes at hform
  cases hform with
  | @one a ha =>
      have hlow : a.toNat < 128 := UInt8.lt_iff_toNat_lt.mp ha
      exact ⟨a, [], rfl, hleads (Or.inl hlow), by simp⟩
  | @two a b ha hb =>
      rw [leadsTwo_iff] at ha
      exact ⟨a, [b], rfl, hleads (by omega), by simp [hfollows hb]⟩
  | @three a b c ha hb hc =>
      rw [leadsThree_iff] at ha
      exact ⟨a, [b, c], rfl, hleads (by omega), by simp [hfollows hb, hcontinues hc]⟩
  | @four a b c d ha hb hc hd =>
      rw [leadsFour_iff] at ha
      exact ⟨a, [b, c, d], rfl, hleads (by omega),
        by simp [hfollows hb, hcontinues hc, hcontinues hd]⟩

theorem length_bytesOf_cons (c : Char) (cs : List Char) :
    (bytesOf cs).length < (bytesOf (c :: cs)).length := by
  obtain ⟨a, rest, hc, -, -⟩ := exists_utf8EncodeChar c
  rw [bytesOf_cons, hc, List.length_append, List.length_cons]
  omega

/-! ## The search -/

/-- Bytes begin with the bytes of a text just if their text begins with it. -/
theorem bytesOf_prefix_iff {p cs : List Char} : bytesOf p <+: bytesOf cs ↔ p <+: cs := by
  have hdecode : ∀ (p : List Char) (rest : List UInt8),
      decode (bytesOf p ++ rest) = p.map Piece.character ++ decode rest := by
    intro p rest
    induction p with
    | nil => rfl
    | cons c p ih =>
        rw [bytesOf_cons, List.append_assoc, decode_encodes_append (encodes_utf8EncodeChar c), ih]
        rfl
  have hinj : Function.Injective Piece.character := fun c d h => Piece.character.inj h
  constructor
  · rintro ⟨rest, hrest⟩
    have hread := congrArg decode hrest
    rw [hdecode, bytesOf, decode_flatMap] at hread
    have hpre : p.map Piece.character <+: cs.map Piece.character := ⟨_, hread⟩
    exact (List.prefix_map_iff_of_injective hinj).mp hpre
  · rintro ⟨rest, rfl⟩
    rw [bytesOf_append]
    exact List.prefix_append _ _

/-- The search passes over bytes that are not ASCII, if the pattern begins with one that is. -/
theorem offset?_append_of_high {q : UInt8} {pattern high rest : List UInt8} (hq : q.toNat < 128)
    (hhigh : ∀ b ∈ high, 128 ≤ b.toNat) :
    offset? (q :: pattern) (high ++ rest)
      = (offset? (q :: pattern) rest).map (· + high.length) := by
  induction high with
  | nil => simp
  | cons b high ih =>
      have hb : 128 ≤ b.toNat := hhigh b List.mem_cons_self
      have hne : (q == b) = false := by
        rw [beq_eq_false_iff_ne]
        intro heq
        rw [heq] at hq
        omega
      have hno : (q :: pattern).isPrefixOf (b :: (high ++ rest)) = false := by
        simp [List.isPrefixOf, hne]
      rw [List.cons_append, offset?, hno, ih fun b hb => hhigh b (List.mem_cons_of_mem _ hb)]
      simp [Function.comp_def, Nat.add_assoc]

/-- **THE SEARCH STOPS WHERE A CHARACTER BEGINS**: it finds the bytes in front of the first
    occurrence among the characters. -/
theorem offset?_bytesOf {p : List Char} {q : UInt8} {qs : List UInt8} (hp : bytesOf p = q :: qs)
    (hq : q.toNat < 128) (cs : List Char) :
    offset? (bytesOf p) (bytesOf cs)
      = (cut [p] cs).map fun sides => (bytesOf sides.1).length := by
  induction cs with
  | nil =>
      rw [hp]
      rfl
  | cons c cs ih =>
      obtain ⟨a, rest, hc, -, hrest⟩ := exists_utf8EncodeChar c
      have hbytes : bytesOf (c :: cs) = a :: (rest ++ bytesOf cs) := by
        rw [bytesOf_cons, hc]
        rfl
      have hhere : (bytesOf p).isPrefixOf (a :: (rest ++ bytesOf cs)) = true ↔ p <+: c :: cs := by
        rw [← hbytes, List.isPrefixOf_iff_prefix, bytesOf_prefix_iff]
      rw [hbytes, offset?]
      by_cases hpre : p <+: c :: cs
      · obtain ⟨_, _, _, hcut⟩ := cut_cons_here ⟨p, List.mem_singleton.mpr rfl, hpre⟩
        rw [if_pos (hhere.mpr hpre), hcut]
        rfl
      · have hskip : ∀ p' ∈ [p], ¬ p' <+: c :: cs := by
          intro p' hp'
          rw [List.mem_singleton.mp hp']
          exact hpre
        rw [if_neg (mt hhere.mp hpre), cut_cons_skip hskip, hp, offset?_append_of_high hq hrest,
          ← hp, ih]
        simp [Function.comp_def, hc, Nat.add_comm]

/-- An offset between two parts of a text is a boundary. -/
theorem isBoundary_length (u v : List Char) :
    isBoundary (bytesOf (u ++ v)) (bytesOf u).length = true := by
  cases v with
  | nil => simp [isBoundary]
  | cons c v =>
      obtain ⟨a, rest, hc, ha, -⟩ := exists_utf8EncodeChar c
      simp [isBoundary, hc, ha]

/-- A slice that ends between two parts of a text is the first of them. -/
theorem sliceTo_of_append {s : String} {u v : List Char} (h : s.toList = u ++ v) :
    sliceTo s (bytesOf u).length = .ok (String.ofList u) := by
  rw [sliceTo, encode_eq, h, if_pos (isBoundary_length u v), bytesOf_append, List.take_left,
    lossy_bytesOf]

/-- A slice that begins between two parts of a text is the second of them. -/
theorem sliceFrom_of_append {s : String} {u v : List Char} (h : s.toList = u ++ v) :
    sliceFrom s (bytesOf u).length = .ok (String.ofList v) := by
  rw [sliceFrom, encode_eq, h, if_pos (isBoundary_length u v), bytesOf_append, List.drop_left,
    lossy_bytesOf]

end RebasePlan.Text

namespace RebasePlan.Rule

open Text

variable {line : String}

/-! ## The smaller offset -/

/-- A separator stands between two parts of a line, and none begins further left, not even in one
    part and with its end in the next. -/
structure SeparatesFirst (line left separator right : String) : Prop where
  separator_eq : separator = "->" ∨ separator = "=>"
  line_eq : line = left ++ separator ++ right
  first : ∀ s, s = "->" ∨ s = "=>" → ∀ u v, line = u ++ s ++ v → left.length ≤ u.length

/-- A separator has ASCII bytes. -/
theorem exists_bytesOf_separator {s : List Char} (hs : s ∈ separators) :
    ∃ q qs, bytesOf s = q :: qs ∧ q.toNat < 128 := by
  rcases List.mem_pair.mp hs with rfl | rfl
  · exact ⟨45, [62], by decide, by decide⟩
  · exact ⟨61, [62], by decide, by decide⟩

/-- Each separator can be searched for by itself. -/
theorem uniform_separator {s : List Char} (hs : s ∈ separators) : Uniform [s] := by
  refine ⟨?_, ?_⟩
  · intro hnil
    exact separators_uniform.ne_nil (List.mem_singleton.mp hnil ▸ hs)
  · intro p hp q hq
    rw [List.mem_singleton.mp hp, List.mem_singleton.mp hq]

/-- A separator that occurs is found at its own first place. -/
theorem exists_cutsAtFirst {s cs : List Char} (hs : s ∈ separators) (h : s <:+: cs) :
    ∃ before after, CutsAtFirst [s] cs before after := by
  cases hc : cut [s] cs with
  | some sides => exact ⟨_, _, cutsAtFirst_of_cut hc⟩
  | none =>
      have hno := (cut_eq_none_iff (uniform_separator hs).ne_nil).mp hc s
        (List.mem_singleton.mpr rfl)
      exact absurd h hno

/-- The offsets are those of the separators that occur, each at the first place where it is found by
    itself. -/
theorem mem_separatorOffsets_iff {start : Nat} {s : List Char} :
    (start, s) ∈ separatorOffsets line ↔ s ∈ separators ∧
      ∃ before after, CutsAtFirst [s] line.toList before after ∧
        start = (bytesOf before).length := by
  simp only [separatorOffsets, List.mem_filterMap, Option.map_eq_some_iff, Prod.mk.injEq]
  constructor
  · rintro ⟨s', hs', k, hk, rfl, rfl⟩
    obtain ⟨q, qs, hbytes, hq⟩ := exists_bytesOf_separator hs'
    rw [encode_eq, offset?_bytesOf hbytes hq, Option.map_eq_some_iff] at hk
    obtain ⟨⟨before, after⟩, hcut, rfl⟩ := hk
    exact ⟨hs', before, after, cutsAtFirst_of_cut hcut, rfl⟩
  · rintro ⟨hs, before, after, hcut, rfl⟩
    obtain ⟨q, qs, hbytes, hq⟩ := exists_bytesOf_separator hs
    refine ⟨s, hs, _, ?_, rfl, rfl⟩
    rw [encode_eq, offset?_bytesOf hbytes hq, (cut_eq_some_iff (uniform_separator hs)).mpr hcut]
    rfl

/-- Of two parts in front of a line, the one with fewer bytes is no longer than the other. -/
theorem length_le_of_bytes_le {u v cs : List Char} (hu : u <+: cs) (hv : v <+: cs)
    (h : (bytesOf u).length ≤ (bytesOf v).length) : u.length ≤ v.length := by
  by_contra hlt
  obtain ⟨rest, rfl⟩ : v <+: u := List.prefix_of_prefix_length_le hv hu (by omega)
  cases rest with
  | nil => simp at hlt
  | cons c rest =>
      have hmore := length_bytesOf_cons c rest
      rw [bytesOf_append, List.length_append] at h
      omega

/-- **THE SMALLEST OFFSET IS THE FIRST CUT** of the scan. -/
theorem firstOffset?_eq_some {start : Nat} {s : List Char}
    (h : firstOffset? line = some (start, s)) :
    ∃ before after, CutsAtFirst separators line.toList before after ∧ s ∈ separators ∧
      line.toList = before ++ s ++ after ∧ start = (bytesOf before).length := by
  have hmem : (start, s) ∈ separatorOffsets line := List.minOn?_mem h
  obtain ⟨hs, before, after, hcut, hstart⟩ := mem_separatorOffsets_iff.mp hmem
  obtain ⟨p, hp, hline⟩ := hcut.occurs
  rw [List.mem_singleton.mp hp] at hline
  refine ⟨before, after, ⟨⟨s, hs, hline⟩, ?_⟩, hs, hline, hstart⟩
  intro s' hs' u v hu
  -- the other separator is found at its own first place, and that is not further left
  obtain ⟨before', after', hcut'⟩ := exists_cutsAtFirst hs' ⟨u, v, hu.symm⟩
  have hmem' : ((bytesOf before').length, s') ∈ separatorOffsets line :=
    mem_separatorOffsets_iff.mpr ⟨hs', before', after', hcut', rfl⟩
  have hle : start ≤ (bytesOf before').length := by
    have hmin := List.apply_minOn_le_of_mem (f := Prod.fst) hmem'
    rw [List.minOn_eq_of_minOn?_eq_some h] at hmin
    exact hmin
  obtain ⟨p', hp', hline'⟩ := hcut'.occurs
  have hprefix : before <+: line.toList := by
    rw [hline, List.append_assoc]
    exact List.prefix_append _ _
  have hprefix' : before' <+: line.toList := by
    rw [hline', List.append_assoc]
    exact List.prefix_append _ _
  have hbefore : before.length ≤ before'.length :=
    length_le_of_bytes_le hprefix hprefix' (hstart ▸ hle)
  exact hbefore.trans (hcut'.first s' (List.mem_singleton.mpr rfl) u v hu)

/-- Without an offset there is no cut. -/
theorem firstOffset?_eq_none (h : firstOffset? line = none) :
    Text.cut separators line.toList = none := by
  have hnil : separatorOffsets line = [] := by
    by_contra hne
    have hsome : (firstOffset? line).isSome = true := List.isSome_minOn?_iff.mpr hne
    rw [h] at hsome
    exact nomatch hsome
  rw [cut_eq_none_iff separators_uniform.ne_nil]
  intro s hs hin
  obtain ⟨before, after, hcut⟩ := exists_cutsAtFirst hs hin
  have hmem := mem_separatorOffsets_iff.mpr ⟨hs, before, after, hcut, rfl⟩
  rw [hnil] at hmem
  exact absurd hmem List.not_mem_nil

/-! ## The sides -/

theorem trimmedSides_ofList (left right : List Char) :
    trimmedSides (String.ofList left) (String.ofList right)
      = (if (trim left).isEmpty || (trim right).isEmpty then none
          else some (trim left, trim right)).map
        fun found => (String.ofList found.1, String.ofList found.2) := by
  have htrimmed : ∀ cs, trimmed (String.ofList cs) = String.ofList (trim cs) := by
    intro cs
    rw [trimmed, String.toList_ofList]
  have hempty : ∀ cs, (String.ofList cs).isEmpty = cs.isEmpty := by
    intro cs
    rw [Bool.eq_iff_iff, String.isEmpty_iff, String.ofList_eq_empty_iff, List.isEmpty_iff]
  rw [trimmedSides, htrimmed, htrimmed, hempty, hempty]
  split <;> rfl

/-- **NO SLICE FAILS**, and slicing comes to the sides that the scan finds. -/
theorem sidesByOffset_eq (line : String) :
    sidesByOffset line = .ok
      ((sides line.toList).map fun found => (String.ofList found.1, String.ofList found.2)) := by
  rw [sidesByOffset]
  cases h : firstOffset? line with
  | none =>
      rw [sides, firstOffset?_eq_none h]
      rfl
  | some found =>
      obtain ⟨start, s⟩ := found
      obtain ⟨before, after, hcut, -, hline, rfl⟩ := firstOffset?_eq_some h
      have hto : sliceTo line (bytesOf before).length = .ok (String.ofList before) :=
        sliceTo_of_append (hline.trans (List.append_assoc ..))
      have hfrom : sliceFrom line ((bytesOf before).length + (bytesOf s).length)
          = .ok (String.ofList after) := by
        rw [← List.length_append, ← bytesOf_append]
        exact sliceFrom_of_append hline
      rw [sides_of_cut ((cut_eq_some_iff separators_uniform).mpr hcut), ← trimmedSides_ofList]
      simp only [hto, hfrom]
      rfl

/-! ## The sides in the words of the line -/

theorem toList_mem_separators_iff {s : String} : s.toList ∈ separators ↔ s = "->" ∨ s = "=>" := by
  show s.toList ∈ ["->".toList, "=>".toList] ↔ _
  rw [List.mem_pair, String.toList_inj, String.toList_inj]

/-- Where a separator stands first, there the scan cuts. -/
theorem SeparatesFirst.cutsAtFirst {left s right : String} (h : SeparatesFirst line left s right) :
    CutsAtFirst separators line.toList left.toList right.toList := by
  have hline := congrArg String.toList h.line_eq
  rw [String.toList_append, String.toList_append] at hline
  refine ⟨⟨s.toList, toList_mem_separators_iff.mpr h.separator_eq, hline⟩, ?_⟩
  intro p hp u v hu
  have hp' : (String.ofList p).toList ∈ separators := by rwa [String.toList_ofList]
  have hle := h.first _ (toList_mem_separators_iff.mp hp') (String.ofList u) (String.ofList v) (by
    rw [← String.toList_inj, hu]
    simp)
  rw [← String.length_toList, ← String.length_toList, String.toList_ofList] at hle
  exact hle

theorem separatesFirst_of_cutsAtFirst {before after s : List Char} (hs : s ∈ separators)
    (hline : line.toList = before ++ s ++ after)
    (h : CutsAtFirst separators line.toList before after) :
    SeparatesFirst line (String.ofList before) (String.ofList s) (String.ofList after) where
  separator_eq := by
    rw [← toList_mem_separators_iff, String.toList_ofList]
    exact hs
  line_eq := by
    rw [← String.toList_inj, hline]
    simp
  first := by
    intro s' hs' u v hu
    have hchars := congrArg String.toList hu
    rw [String.toList_append, String.toList_append] at hchars
    have hle := h.first _ (toList_mem_separators_iff.mpr hs') _ _ hchars
    rw [String.length_toList] at hle
    rw [String.length_ofList]
    exact hle

/-- A line is taken apart in one way only. -/
theorem SeparatesFirst.unique {left s right left' s' right' : String}
    (h : SeparatesFirst line left s right) (h' : SeparatesFirst line left' s' right') :
    left = left' ∧ s = s' ∧ right = right' := by
  obtain ⟨hleft, hright⟩ := h.cutsAtFirst.unique separators_uniform h'.cutsAtFirst
  rw [String.toList_inj] at hleft hright
  subst hleft hright
  have hline := h.line_eq.symm.trans h'.line_eq
  rw [String.append_left_inj, String.append_right_inj] at hline
  exact ⟨rfl, hline, rfl⟩

/-- At the smallest offset a separator stands first, with as many bytes in front of it. -/
theorem exists_separatesFirst {start : Nat} {s : List Char}
    (h : firstOffset? line = some (start, s)) :
    ∃ left right, SeparatesFirst line left (String.ofList s) right ∧
      start = left.utf8ByteSize := by
  obtain ⟨before, after, hcut, hs, hline, hstart⟩ := firstOffset?_eq_some h
  refine ⟨_, _, separatesFirst_of_cutsAtFirst hs hline hcut, ?_⟩
  rw [hstart, ← length_encode, encode_eq, String.toList_ofList]

/-- The two parts of a line that is taken apart are trimmed. -/
theorem SeparatesFirst.sidesByOffset_eq {left s right : String}
    (h : SeparatesFirst line left s right) :
    sidesByOffset line = .ok (trimmedSides left right) := by
  have hcut := (cut_eq_some_iff separators_uniform).mpr h.cutsAtFirst
  rw [Rule.sidesByOffset_eq, sides_of_cut hcut, ← trimmedSides_ofList, String.ofList_toList,
    String.ofList_toList]

/-- Two parts have sides just if neither of them is blank. -/
theorem trimmedSides_eq_some_iff {left right branch base : String} :
    trimmedSides left right = some (branch, base) ↔
      (∃ c ∈ left.toList, isBlank c = false) ∧ (∃ c ∈ right.toList, isBlank c = false) ∧
        branch = trimmed left ∧ base = trimmed right := by
  have hempty : ∀ s : String, (trimmed s).isEmpty = false ↔ ∃ c ∈ s.toList, isBlank c = false := by
    intro s
    rw [← Bool.not_eq_true, String.isEmpty_iff, trimmed, String.ofList_eq_empty_iff,
      trim_eq_nil_iff, Blank]
    simp
  rw [← hempty, ← hempty, trimmedSides]
  cases (trimmed left).isEmpty <;> cases (trimmed right).isEmpty <;>
    simp [eq_comm]

/-- A line has sides just if a separator stands first in it, between two parts that are not blank.
    -/
theorem sidesByOffset_eq_some_iff {branch base : String} :
    sidesByOffset line = .ok (some (branch, base)) ↔
      ∃ left s right, SeparatesFirst line left s right ∧
        (∃ c ∈ left.toList, isBlank c = false) ∧ (∃ c ∈ right.toList, isBlank c = false) ∧
        branch = trimmed left ∧ base = trimmed right := by
  constructor
  · intro h
    cases hfirst : firstOffset? line with
    | none =>
        rw [sidesByOffset, hfirst] at h
        exact nomatch Except.ok.inj h
    | some found =>
        obtain ⟨left, right, hsep, -⟩ := exists_separatesFirst hfirst
        rw [hsep.sidesByOffset_eq] at h
        exact ⟨left, _, right, hsep, trimmedSides_eq_some_iff.mp (Except.ok.inj h)⟩
  · rintro ⟨left, s, right, hsep, hsides⟩
    rw [hsep.sidesByOffset_eq, trimmedSides_eq_some_iff.mpr hsides]

/-- No separator is left in a branch. -/
theorem SeparatesFirst.not_infix_trimmed {left s right : String}
    (h : SeparatesFirst line left s right) {s' : String} (hs' : s' = "->" ∨ s' = "=>") :
    ¬ s'.toList <:+: (trimmed left).toList := by
  intro hin
  obtain ⟨before, after, -, -, hframe⟩ := exists_frame left.toList
  have htrim : trim left.toList <:+: left.toList := ⟨before, after, hframe.symm⟩
  rw [trimmed, String.toList_ofList] at hin
  exact not_infix_of_cutsAtFirst separators_uniform.ne_nil h.cutsAtFirst _
    (toList_mem_separators_iff.mpr hs') (hin.trans htrim)

/-- **A LINE IS CUT AT ITS FIRST SEPARATOR, AND BETWEEN CHARACTERS.**  The two searches with their
    slices come to what the scan finds: sides, if a separator stands first between two parts that
    are not blank, and these are the parts trimmed.  A line has at most one such place, and the
    branch holds no separator.  Both offsets lie in the line and between characters, so no slice
    fails, whatever stands around the separator. -/
theorem sliced_at_first_separator (line : String) :
    sidesByOffset line
      = .ok ((sides line.toList).map fun found => (String.ofList found.1, String.ofList found.2)) ∧
    (∀ branch base, sidesByOffset line = .ok (some (branch, base)) ↔
      ∃ left s right, SeparatesFirst line left s right ∧
        (∃ c ∈ left.toList, isBlank c = false) ∧ (∃ c ∈ right.toList, isBlank c = false) ∧
        branch = trimmed left ∧ base = trimmed right) ∧
    (∀ left s right left' s' right', SeparatesFirst line left s right →
      SeparatesFirst line left' s' right' → left = left' ∧ s = s' ∧ right = right') ∧
    (∀ branch base, sidesByOffset line = .ok (some (branch, base)) →
      ∀ s, s = "->" ∨ s = "=>" → ¬ s.toList <:+: branch.toList) ∧
    ∀ start s, firstOffset? line = some (start, s) →
      start + (bytesOf s).length ≤ line.utf8ByteSize ∧
      (String.Pos.Raw.mk start).IsValid line ∧
      (String.Pos.Raw.mk (start + (bytesOf s).length)).IsValid line := by
  refine ⟨sidesByOffset_eq line, fun _ _ => sidesByOffset_eq_some_iff,
    fun _ _ _ _ _ _ h h' => h.unique h', ?_, ?_⟩
  · intro branch base h s hs
    obtain ⟨left, _, _, hsep, -, -, rfl, -⟩ := sidesByOffset_eq_some_iff.mp h
    exact hsep.not_infix_trimmed hs
  · intro start s h
    obtain ⟨left, right, hsep, rfl⟩ := exists_separatesFirst h
    have hsize : left.utf8ByteSize + (bytesOf s).length
        = (left ++ String.ofList s).utf8ByteSize := by
      rw [String.utf8ByteSize_append, ← length_encode (String.ofList s), encode_eq,
        String.toList_ofList]
    rw [hsize]
    refine ⟨?_, ?_, ?_⟩
    · have hline := congrArg String.utf8ByteSize hsep.line_eq
      rw [String.utf8ByteSize_append] at hline
      omega
    · exact String.Pos.Raw.isValid_iff_exists_append.mpr
        ⟨left, _, hsep.line_eq.trans (String.append_assoc ..), rfl⟩
    · exact String.Pos.Raw.isValid_iff_exists_append.mpr ⟨_, right, hsep.line_eq, rfl⟩

/-- Characters of two and three bytes around a separator, and a stroke that begins none. -/
theorem sliced_at_first_separator_in_accents :
    let line := "é-=>日->b"
    firstOffset? line = some (3, ['=', '>']) ∧
      sidesByOffset line = .ok (some ("é-", "日->b")) ∧
      (String.Pos.Raw.mk 3).IsValid line ∧ (String.Pos.Raw.mk 5).IsValid line := by
  intro line
  have hfirst : firstOffset? line = some (3, ['=', '>']) := by decide +kernel
  obtain ⟨hscan, -, -, -, hvalid⟩ := sliced_at_first_separator line
  obtain ⟨-, hstart, hend⟩ := hvalid 3 ['=', '>'] hfirst
  have hsides : sides line.toList = some ("é-".toList, "日->b".toList) := by decide +kernel
  rw [hsides] at hscan
  refine ⟨hfirst, ?_, hstart, hend⟩
  rw [hscan]
  simp

end RebasePlan.Rule
