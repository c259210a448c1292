import Mathlib.Data.List.DropRight
import RebasePlan.Text.Parts

/-! # What trimming keeps

    Trimming takes a text out of a frame of blanks: every text is its trimmed
    form between two stretches of blanks (`exists_frame`), and such a frame does
    not change what is left of a text (`trim_blank_append`, `trim_append_blank`).
    The readers are stated over whole lines; these facts carry them over to what
    is left of a line after trimming. -/

namespace RebasePlan.Text

/-- A text of blanks alone. -/
def Blank (cs : List Char) : Prop := ∀ c ∈ cs, isBlank c = true

/-- A text with no blank at either end. -/
structure Trimmed (cs : List Char) : Prop where
  head : ∀ c ∈ cs.head?, isBlank c = false
  last : ∀ c ∈ cs.getLast?, isBlank c = false

theorem blank_space : Blank [' '] := by
  intro c hc
  rw [List.mem_singleton.mp hc]
  rfl

/-! ## One end at a time -/

theorem trimStart_blank_append {before : List Char} (h : Blank before) (cs : List Char) :
    trimStart (before ++ cs) = trimStart cs :=
  List.dropWhile_append_of_pos h

theorem trimEnd_append_blank {after : List Char} (h : Blank after) (cs : List Char) :
    trimEnd (cs ++ after) = trimEnd cs := by
  have hr : ∀ c ∈ after.reverse, isBlank c = true :=
    fun c hc => h c (List.mem_reverse.mp hc)
  show ((cs ++ after).reverse.dropWhile isBlank).reverse = _
  rw [List.reverse_append, List.dropWhile_append_of_pos hr]
  rfl

/-- A first character that is no blank stays where it is. -/
theorem trimStart_cons {c : Char} (h : isBlank c = false) (cs : List Char) :
    trimStart (c :: cs) = c :: cs := by
  show (c :: cs).dropWhile isBlank = c :: cs
  rw [List.dropWhile_cons, h]
  rfl

/-- A first character that is no blank survives trimming from the other end. -/
theorem trimEnd_cons {c : Char} (h : isBlank c = false) (cs : List Char) :
    trimEnd (c :: cs) = c :: trimEnd cs := by
  show ((c :: cs).reverse.dropWhile isBlank).reverse
    = c :: (cs.reverse.dropWhile isBlank).reverse
  rw [List.reverse_cons, List.dropWhile_append]
  cases hd : cs.reverse.dropWhile isBlank with
  | nil => simp [h]
  | cons x xs => simp

/-- A text that begins with no blank is trimmed at its end only. -/
theorem trim_cons {c : Char} (h : isBlank c = false) (cs : List Char) :
    trim (c :: cs) = c :: trimEnd cs := by
  show trimEnd (trimStart (c :: cs)) = _
  rw [trimStart_cons h, trimEnd_cons h]

/-- Trimming does not see blanks that are put in front. -/
theorem trim_blank_append {before : List Char} (h : Blank before) (cs : List Char) :
    trim (before ++ cs) = trim cs := by
  show trimEnd (trimStart (before ++ cs)) = _
  rw [trimStart_blank_append h]
  rfl

/-- Nor does it see blanks that are put behind. -/
theorem trim_append_blank {after : List Char} (h : Blank after) (cs : List Char) :
    trim (cs ++ after) = trim cs := by
  show trimEnd ((cs ++ after).dropWhile isBlank) = trimEnd (cs.dropWhile isBlank)
  rw [List.dropWhile_append]
  cases hd : cs.dropWhile isBlank with
  | nil =>
      -- nothing but blanks: the two ends meet
      have ha : after.dropWhile isBlank = [] := List.dropWhile_eq_nil_iff.mpr h
      simp [ha]
  | cons x xs => exact trimEnd_append_blank h (x :: xs)

/-! ## The frame of a text -/

theorem trimStart_eq_self {cs : List Char} (h : ∀ c ∈ cs.head?, isBlank c = false) :
    trimStart cs = cs := by
  cases cs with
  | nil => rfl
  | cons c cs => exact trimStart_cons (h c rfl) cs

/-- A text without blanks at its ends stays as it is. -/
theorem trim_of_trimmed {cs : List Char} (h : Trimmed cs) : trim cs = cs := by
  show trimEnd (trimStart cs) = cs
  rw [trimStart_eq_self h.head]
  refine List.rdropWhile_eq_self_iff.mpr fun hne => ?_
  rw [h.last _ (List.getLast?_eq_some_getLast hne)]
  exact Bool.false_ne_true

/-- No blanks are left at the ends. -/
theorem trimmed_trim (cs : List Char) : Trimmed (trim cs) where
  head := by
    intro c hc
    have hs := List.head?_dropWhile_not isBlank cs
    cases hd : trimStart cs with
    | nil =>
        have hn : trim cs = [] := by
          show trimEnd (trimStart cs) = []
          rw [hd]
          rfl
        rw [hn] at hc
        exact nomatch hc
    | cons x xs =>
        have hx : isBlank x = false := by
          rw [show cs.dropWhile isBlank = x :: xs from hd] at hs
          exact hs
        have ht : trim cs = x :: trimEnd xs := by
          show trimEnd (trimStart cs) = _
          rw [hd, trimEnd_cons hx]
        rw [ht] at hc
        have hxc : x = c := Option.some.inj hc
        rw [← hxc]
        exact hx
  last := by
    intro c hc
    have hne : trim cs ≠ [] := by
      intro hn
      rw [hn] at hc
      exact nomatch hc
    have hlast := List.rdropWhile_last_not isBlank (trimStart cs) hne
    rw [List.getLast?_eq_some_getLast hne] at hc
    have hcl : (trim cs).getLast hne = c := Option.some.inj hc
    rw [← hcl]
    exact Bool.eq_false_iff.mpr hlast

/-- A text is equal to its own trimmed form just if it has no blank at either end. -/
theorem trim_eq_self_iff {cs : List Char} : trim cs = cs ↔ Trimmed cs :=
  ⟨fun h => h ▸ trimmed_trim cs, trim_of_trimmed⟩

/-- To trim again changes nothing. -/
theorem trim_trim (cs : List Char) : trim (trim cs) = trim cs :=
  trim_of_trimmed (trimmed_trim cs)

/-- **Every text is its trimmed form in a frame of blanks.** -/
theorem exists_frame (cs : List Char) :
    ∃ before after, Blank before ∧ Blank after ∧ cs = before ++ trim cs ++ after := by
  refine ⟨cs.takeWhile isBlank, (trimStart cs).rtakeWhile isBlank, ?_, ?_, ?_⟩
  · intro c hc
    exact List.mem_takeWhile_imp hc
  · intro c hc
    exact List.mem_rtakeWhile_imp hc
  · have hend : trim cs ++ (trimStart cs).rtakeWhile isBlank = trimStart cs :=
      List.rdropWhile_append_rtakeWhile
    rw [List.append_assoc, hend]
    exact List.takeWhile_append_dropWhile.symm

/-- What follows a text that is not blank does not change how its trimmed form begins. -/
theorem head?_trim_append {cs : List Char} (h : trim cs ≠ []) (more : List Char) :
    (trim (cs ++ more)).head? = (trim cs).head? := by
  obtain ⟨before, after, hb, -, hcs⟩ := exists_frame cs
  have hhead := (trimmed_trim cs).head
  cases ht : trim cs with
  | nil => exact absurd ht h
  | cons c t =>
      rw [ht] at hcs hhead
      rw [hcs, List.append_assoc, List.append_assoc, trim_blank_append hb, List.cons_append,
        trim_cons (hhead c rfl)]
      rfl

/-- Only blanks are trimmed away to nothing. -/
theorem trim_eq_nil_iff {cs : List Char} : trim cs = [] ↔ Blank cs := by
  constructor
  · intro h
    obtain ⟨before, after, hb, ha, hcs⟩ := exists_frame cs
    rw [h, List.append_nil] at hcs
    rw [hcs]
    intro c hc
    exact (List.mem_append.mp hc).elim (hb c) (ha c)
  · intro h
    have hnil := trim_blank_append h []
    rw [List.append_nil] at hnil
    exact hnil

/-- Trimming only leaves characters out. -/
theorem mem_of_mem_trim {c : Char} {cs : List Char} (h : c ∈ trim cs) : c ∈ cs := by
  obtain ⟨before, after, -, -, hcs⟩ := exists_frame cs
  rw [hcs]
  exact List.mem_append_left _ (List.mem_append_right _ h)

theorem length_trim_le (cs : List Char) : (trim cs).length ≤ cs.length := by
  obtain ⟨before, after, -, -, hcs⟩ := exists_frame cs
  have hlen := congrArg List.length hcs
  rw [List.length_append, List.length_append] at hlen
  omega

end RebasePlan.Text
