import RebasePlan.Proofs.FirstCut
import RebasePlan.Proofs.Trimming
import RebasePlan.Rule

/-! # One line of a plan file

    What a line says does not depend on the blanks around it.  The reader trims
    the line before it looks for a separator; `HasSides` speaks of the line as
    it stands in the file.  That they agree (`sides_eq_some_iff`) rests on blanks
    being barriers: no separator holds one.

    `Line.read_cases` is the only fact about the reader of lines that the
    development of whole files needs. -/

namespace RebasePlan.Rule

open Text

/-- A line that counts: not blank, and no comment. -/
def Significant (line : List Char) : Prop :=
  trim line ≠ [] ∧ (trim line).head? ≠ some '#'

instance (line : List Char) : Decidable (Significant line) :=
  inferInstanceAs (Decidable (_ ∧ _))

/-- The sides of a line: what stands before and after its first arrow, trimmed, and neither of
    them empty. -/
structure HasSides (line left right : List Char) : Prop where
  cut : ∃ before after, CutsAtFirst [['-', '>'], ['=', '>']] line before after ∧
    trim before = left ∧ trim after = right
  left_ne : left ≠ []
  right_ne : right ≠ []

/-! ## The separators -/

theorem separators_uniform : Uniform separators where
  ne_nil := by decide
  length_eq := by decide

/-- No separator holds a blank. -/
theorem blank_not_in_separators {c : Char} (h : isBlank c = true) :
    ∀ p ∈ separators, c ∉ p := by
  have harrows : (separators.all fun p => p.all fun d => !isBlank d) = true := rfl
  intro p hp hc
  have hd := List.all_eq_true.mp (List.all_eq_true.mp harrows p hp) c hc
  rw [h] at hd
  exact nomatch hd

/-- A frame of blanks around a line goes to the two parts of its cut. -/
theorem cut_framed {before after : List Char} (hb : Blank before) (ha : Blank after)
    (cs : List Char) :
    Text.cut separators (before ++ cs ++ after)
      = (Text.cut separators cs).map fun sides => (before ++ sides.1, sides.2 ++ after) := by
  have hne := separators_uniform.ne_nil
  rw [cut_append_barriers hne (fun c hc => blank_not_in_separators (ha c hc)),
    cut_barriers_append hne (fun c hc => blank_not_in_separators (hb c hc)), Option.map_map]
  rfl

/-! ## The sides of a line -/

/-- The sides come from the cut alone. -/
theorem sides_of_cut {line before after : List Char}
    (h : Text.cut separators line = some (before, after)) :
    sides line = if (trim before).isEmpty || (trim after).isEmpty then none
      else some (trim before, trim after) := by
  rw [sides, h]

/-- Trimming a line first does not change its sides. -/
theorem sides_trim (line : List Char) : sides (trim line) = sides line := by
  obtain ⟨before, after, hb, ha, hline⟩ := exists_frame line
  have hcut := cut_framed hb ha (trim line)
  rw [← hline] at hcut
  cases hc : Text.cut separators (trim line) with
  | none =>
      rw [hc] at hcut
      have hnone : Text.cut separators line = none := hcut
      rw [sides, sides, hc, hnone]
  | some parts =>
      obtain ⟨u, v⟩ := parts
      rw [hc] at hcut
      have hsome : Text.cut separators line = some (before ++ u, v ++ after) := hcut
      rw [sides_of_cut hc, sides_of_cut hsome, trim_blank_append hb, trim_append_blank ha]

/-- **The reader finds the sides of a line just if it has them.** -/
theorem sides_eq_some_iff {line left right : List Char} :
    sides line = some (left, right) ↔ HasSides line left right := by
  constructor
  · intro h
    cases hc : Text.cut separators line with
    | none =>
        rw [sides, hc] at h
        exact nomatch h
    | some parts =>
        obtain ⟨before, after⟩ := parts
        rw [sides_of_cut hc] at h
        split at h
        · exact nomatch h
        · next hne =>
          obtain ⟨rfl, rfl⟩ := Prod.mk.inj (Option.some.inj h)
          rw [Bool.or_eq_true, not_or, List.isEmpty_iff, List.isEmpty_iff] at hne
          exact ⟨⟨before, after, (cut_eq_some_iff separators_uniform).mp hc, rfl, rfl⟩,
            hne.1, hne.2⟩
  · rintro ⟨⟨before, after, hcut, rfl, rfl⟩, hl, hr⟩
    have hc : Text.cut separators line = some (before, after) :=
      (cut_eq_some_iff separators_uniform).mpr hcut
    rw [sides_of_cut hc, if_neg]
    rw [Bool.or_eq_true, not_or, List.isEmpty_iff, List.isEmpty_iff]
    exact ⟨hl, hr⟩

/-- A line has at most one pair of sides. -/
theorem HasSides.unique {line left right left' right' : List Char}
    (h : HasSides line left right) (h' : HasSides line left' right') :
    left = left' ∧ right = right' := by
  have heq := (sides_eq_some_iff.mpr h).symm.trans (sides_eq_some_iff.mpr h')
  exact Prod.mk.inj (Option.some.inj heq)

/-! ## What the reader makes of a line -/

/-- **ONE LINE**: the three things that a line can be, and what each of them means. -/
theorem Line.read_cases (raw : List Char) :
    (Line.read raw = .insignificant ∧ ¬ Significant raw) ∨
    (Line.read raw = .malformed ∧ Significant raw ∧ ∀ left right, ¬ HasSides raw left right) ∨
    (∃ left right, Line.read raw = .rule left right ∧ Significant raw ∧
      HasSides raw left right) := by
  rw [Line.read.eq_def]
  split
  · next ht => exact Or.inl ⟨rfl, fun h => h.1 ht⟩
  · next rest ht => exact Or.inl ⟨rfl, fun h => h.2 (by rw [ht]; rfl)⟩
  · next line hne hcomment =>
    have hsig : Significant raw := by
      refine ⟨hne, fun hh => ?_⟩
      obtain ⟨rest, hrest⟩ := List.head?_eq_some_iff.mp hh
      exact hcomment rest hrest
    cases hs : sides (trim raw) with
    | none =>
        refine Or.inr (Or.inl ⟨rfl, hsig, fun left right h => ?_⟩)
        rw [sides_trim, sides_eq_some_iff.mpr h] at hs
        exact nomatch hs
    | some parts =>
        obtain ⟨left, right⟩ := parts
        rw [sides_trim] at hs
        exact Or.inr (Or.inr ⟨left, right, rfl, hsig, sides_eq_some_iff.mp hs⟩)

end RebasePlan.Rule
