import Mathlib.Data.List.Find
import RebasePlan.Text.Parts

/-! # The scan cuts at the first occurrence

    `Text.cut` looks at one position after the other.  `CutsAtFirst` says what
    it should find without looking: an occurrence of a pattern with no
    occurrence of any pattern to its left.  The two agree
    (`cut_eq_some_iff`) as long as no pattern is empty and all are equally
    long, so that no two of them begin at one place.

    A character that is in no pattern is a BARRIER: no occurrence reaches across
    it, so the two sides of it can be searched apart (`cut_append_barrier`). -/

namespace RebasePlan.Text

variable {patterns : List (List Char)} {line before after : List Char}

/-- The text before and after the first place where one of the patterns begins. -/
structure CutsAtFirst (patterns : List (List Char)) (line before after : List Char) : Prop where
  occurs : ∃ p ∈ patterns, line = before ++ p ++ after
  first : ∀ p ∈ patterns, ∀ u v, line = u ++ p ++ v → before.length ≤ u.length

/-- Patterns of one length, and none of them empty. -/
structure Uniform (patterns : List (List Char)) : Prop where
  ne_nil : [] ∉ patterns
  length_eq : ∀ p ∈ patterns, ∀ q ∈ patterns, p.length = q.length

/-! ## One position of the scan -/

private theorem prefix_of_find? {p : List Char}
    (h : patterns.find? (·.isPrefixOf line) = some p) : p <+: line := by
  have hpre := @List.find?_some _ (fun q : List Char => q.isPrefixOf line) _ _ h
  exact List.isPrefixOf_iff_prefix.mp hpre

/-- Where a pattern begins, the text is cut. -/
theorem cut_cons_here {c : Char} {cs : List Char} (h : ∃ p ∈ patterns, p <+: c :: cs) :
    ∃ p ∈ patterns, p <+: c :: cs ∧
      cut patterns (c :: cs) = some ([], (c :: cs).drop p.length) := by
  cases hf : patterns.find? (·.isPrefixOf (c :: cs)) with
  | none =>
      obtain ⟨p, hp, hpre⟩ := h
      exact absurd (List.isPrefixOf_iff_prefix.mpr hpre) (List.find?_eq_none.mp hf p hp)
  | some p =>
      refine ⟨p, List.mem_of_find?_eq_some hf, prefix_of_find? hf, ?_⟩
      rw [cut, hf]

/-- Where no pattern begins, the cut is one character further on. -/
theorem cut_cons_skip {c : Char} {cs : List Char}
    (h : ∀ p ∈ patterns, ¬ p <+: c :: cs) :
    cut patterns (c :: cs) = (cut patterns cs).map fun sides => (c :: sides.1, sides.2) := by
  have hf : patterns.find? (·.isPrefixOf (c :: cs)) = none := by
    refine List.find?_eq_none.mpr fun p hp hpre => ?_
    exact h p hp (List.isPrefixOf_iff_prefix.mp hpre)
  rw [cut, hf]

/-! ## The scan against the positions -/

/-- What the scan finds is the first occurrence. -/
theorem cutsAtFirst_of_cut (h : cut patterns line = some (before, after)) :
    CutsAtFirst patterns line before after := by
  induction line generalizing before with
  | nil => exact nomatch h
  | cons c cs ih =>
      by_cases hp : ∃ p ∈ patterns, p <+: c :: cs
      · obtain ⟨p, hmem, ⟨rest, hrest⟩, hcut⟩ := cut_cons_here hp
        rw [hcut, ← hrest, List.drop_left] at h
        obtain ⟨rfl, rfl⟩ := Prod.mk.inj (Option.some.inj h)
        exact ⟨⟨p, hmem, hrest.symm⟩, fun _ _ _ _ _ => Nat.zero_le _⟩
      · have hno : ∀ p ∈ patterns, ¬ p <+: c :: cs := fun p hm hpre => hp ⟨p, hm, hpre⟩
        rw [cut_cons_skip hno] at h
        obtain ⟨⟨u, v⟩, hcut, heq⟩ := Option.map_eq_some_iff.mp h
        obtain ⟨rfl, rfl⟩ := Prod.mk.inj heq
        obtain ⟨⟨p, hmem, hcs⟩, hfirst⟩ := ih hcut
        refine ⟨⟨p, hmem, by rw [hcs]; rfl⟩, ?_⟩
        intro q hq w rest hline
        cases w with
        | nil => exact absurd ⟨rest, hline.symm⟩ (hno q hq)
        | cons x w =>
            have htail : cs = w ++ q ++ rest := (List.cons.inj hline).2
            exact Nat.succ_le_succ (hfirst q hq w rest htail)

/-- The scan finds nothing just if no pattern occurs. -/
theorem cut_eq_none_iff (hne : [] ∉ patterns) :
    cut patterns line = none ↔ ∀ p ∈ patterns, ¬ p <:+: line := by
  induction line with
  | nil =>
      constructor
      · intro _ p hp hin
        rw [List.eq_nil_of_infix_nil hin] at hp
        exact hne hp
      · intro _
        rfl
  | cons c cs ih =>
      by_cases hp : ∃ p ∈ patterns, p <+: c :: cs
      · obtain ⟨p, hmem, hpre, hcut⟩ := cut_cons_here hp
        rw [hcut]
        constructor
        · intro h
          exact nomatch h
        · intro h
          exact absurd hpre.isInfix (h p hmem)
      · have hno : ∀ p ∈ patterns, ¬ p <+: c :: cs := fun p hm hpre => hp ⟨p, hm, hpre⟩
        rw [cut_cons_skip hno, Option.map_eq_none_iff, ih]
        constructor
        · intro h p hm hin
          rcases List.infix_cons_iff.mp hin with hpre | hin
          · exact hno p hm hpre
          · exact h p hm hin
        · intro h p hm hin
          exact h p hm (List.infix_cons_iff.mpr (Or.inr hin))

/-- There is only one first occurrence. -/
theorem CutsAtFirst.unique (hu : Uniform patterns) {before' after' : List Char}
    (h : CutsAtFirst patterns line before after)
    (h' : CutsAtFirst patterns line before' after') : before = before' ∧ after = after' := by
  obtain ⟨p, hp, hline⟩ := h.occurs
  obtain ⟨q, hq, hline'⟩ := h'.occurs
  have hlen : before.length = before'.length :=
    Nat.le_antisymm (h.first q hq _ _ hline') (h'.first p hp _ _ hline)
  rw [hline, List.append_assoc, List.append_assoc] at hline'
  obtain ⟨hbefore, hrest⟩ := List.append_inj hline' hlen
  exact ⟨hbefore, (List.append_inj hrest (hu.length_eq p hp q hq)).2⟩

/-- **THE SCAN CUTS AT THE FIRST OCCURRENCE**, and finds it wherever it is. -/
theorem cut_eq_some_iff (hu : Uniform patterns) :
    cut patterns line = some (before, after) ↔ CutsAtFirst patterns line before after := by
  constructor
  · exact cutsAtFirst_of_cut
  · intro h
    cases hc : cut patterns line with
    | none =>
        obtain ⟨p, hp, hline⟩ := h.occurs
        exact absurd ⟨before, after, hline.symm⟩ ((cut_eq_none_iff hu.ne_nil).mp hc p hp)
    | some sides =>
        obtain ⟨hb, ha⟩ := (cutsAtFirst_of_cut hc).unique hu h
        rw [← hb, ← ha]

/-- No pattern occurs in the part before a cut. -/
theorem not_infix_of_cutsAtFirst (hne : [] ∉ patterns)
    (h : CutsAtFirst patterns line before after) : ∀ p ∈ patterns, ¬ p <:+: before := by
  rintro p hp ⟨u, v, hbefore⟩
  obtain ⟨q, -, hline⟩ := h.occurs
  have hle := h.first p hp u (v ++ (q ++ after)) (by
    rw [hline, ← hbefore]
    simp only [List.append_assoc])
  have hlen := congrArg List.length hbefore
  rw [List.length_append, List.length_append] at hlen
  have hpos : p.length ≠ 0 := fun h0 => hne (List.length_eq_zero_iff.mp h0 ▸ hp)
  omega

/-! ## Barriers -/

/-- No prefix without the barrier reaches across it. -/
theorem prefix_append_barrier_iff {α : Type} {p xs ys : List α} {c : α} (hc : c ∉ p) :
    p <+: xs ++ c :: ys ↔ p <+: xs := by
  constructor
  · intro h
    have hxs : xs <+: xs ++ c :: ys := List.prefix_append xs (c :: ys)
    rcases List.prefix_or_prefix_of_prefix h hxs with hp | ⟨t, ht⟩
    · exact hp
    · cases t with
      | nil =>
          obtain rfl : xs = p := by rw [← ht, List.append_nil]
          exact List.prefix_rfl
      | cons d t =>
          -- the prefix would go on with the barrier
          rw [← ht, List.prefix_append_right_inj] at h
          obtain ⟨rest, hrest⟩ := h
          have hd : d = c := (List.cons.inj hrest).1
          rw [← ht, hd] at hc
          exact absurd (List.mem_append_right xs (List.mem_cons_self ..)) hc
  · intro h
    exact h.trans (List.prefix_append xs (c :: ys))

/-- **A BARRIER SEPARATES**: the text before it is searched first, then the text behind it. -/
theorem cut_append_barrier (hne : [] ∉ patterns) {c : Char} (hc : ∀ p ∈ patterns, c ∉ p)
    (xs ys : List Char) :
    cut patterns (xs ++ c :: ys) = match cut patterns xs with
      | some (u, v) => some (u, v ++ c :: ys)
      | none => (cut patterns ys).map fun sides => (xs ++ c :: sides.1, sides.2) := by
  induction xs with
  | nil =>
      have hno : ∀ p ∈ patterns, ¬ p <+: c :: ys := by
        intro p hp hpre
        have hacross : p <+: [] ++ c :: ys := hpre
        have hnil : p <+: [] := (prefix_append_barrier_iff (hc p hp)).mp hacross
        exact hne (List.prefix_nil.mp hnil ▸ hp)
      exact cut_cons_skip hno
  | cons x xs ih =>
      have hsame : ∀ p ∈ patterns,
          p.isPrefixOf (x :: xs ++ c :: ys) = p.isPrefixOf (x :: xs) := by
        intro p hp
        rw [Bool.eq_iff_iff, List.isPrefixOf_iff_prefix, List.isPrefixOf_iff_prefix]
        exact prefix_append_barrier_iff (hc p hp)
      have hfind : patterns.find? (·.isPrefixOf (x :: xs ++ c :: ys))
          = patterns.find? (·.isPrefixOf (x :: xs)) := List.find?_congr hsame
      rw [List.cons_append] at hfind ⊢
      rw [cut, cut, hfind]
      cases hf : patterns.find? (·.isPrefixOf (x :: xs)) with
      | none =>
          rw [ih]
          cases cut patterns xs with
          | none => simp [Function.comp_def]
          | some sides => rfl
      | some p =>
          -- a pattern that begins before the barrier ends before it
          have hle : p.length ≤ (x :: xs).length := (prefix_of_find? hf).length_le
          show some ([], (x :: xs ++ c :: ys).drop p.length)
            = some ([], (x :: xs).drop p.length ++ c :: ys)
          rw [List.drop_append_of_le_length hle]

/-- Barriers in front of a text belong to what stands before the cut. -/
theorem cut_barriers_append (hne : [] ∉ patterns) {xs : List Char}
    (hxs : ∀ c ∈ xs, ∀ p ∈ patterns, c ∉ p) (ys : List Char) :
    cut patterns (xs ++ ys) = (cut patterns ys).map fun sides => (xs ++ sides.1, sides.2) := by
  induction xs with
  | nil => simp
  | cons c xs ih =>
      have hc := hxs c (List.mem_cons_self ..)
      have hstep := cut_append_barrier hne hc [] (xs ++ ys)
      rw [List.nil_append] at hstep
      rw [List.cons_append, hstep, ih fun d hd => hxs d (List.mem_cons_of_mem _ hd)]
      show Option.map _ (Option.map _ _) = _
      rw [Option.map_map]
      rfl

/-- Barriers behind a text belong to what stands after the cut. -/
theorem cut_append_barriers (hne : [] ∉ patterns) {ys : List Char}
    (hys : ∀ c ∈ ys, ∀ p ∈ patterns, c ∉ p) (xs : List Char) :
    cut patterns (xs ++ ys) = (cut patterns xs).map fun sides => (sides.1, sides.2 ++ ys) := by
  cases ys with
  | nil => simp
  | cons c ys =>
      have hrest : cut patterns ys = none := by
        have hend := cut_barriers_append hne (fun d hd => hys d (List.mem_cons_of_mem _ hd)) []
        rw [List.append_nil] at hend
        rw [hend]
        rfl
      rw [cut_append_barrier hne (hys c (List.mem_cons_self ..)) xs ys, hrest]
      cases cut patterns xs with
      | none => rfl
      | some sides => rfl

end RebasePlan.Text
