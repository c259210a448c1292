import Mathlib.Tactic.IntervalCases
import RebasePlan.Proofs.ReturnToHead
import RebasePlan.Proofs.Trimming

/-! # The commit in a description

    The description of a commit is read word by word, and the first word that is a full
    name counts.  Where such a name stands can be said without words: it has a blank or
    an end of the text on either side (`CommitAt`).  The two agree
    (`commit?_eq_some_iff`, `commit?_eq_none_iff`), because the words of a text can be
    taken apart at any blank (`words_append_cons`), so that what stands in front of a
    word and what stands behind it have the other words, in their order
    (`words_around`, `exists_of_words_eq`). -/

namespace RebasePlan

namespace Text

variable {cs before word after : List Char}

/-- A text behind which a word can begin: it is empty, or it ends with a blank. -/
def EndsBlank (cs : List Char) : Prop := ∀ c ∈ cs.getLast?, isBlank c = true

/-- A text in front of which a word can end: it is empty, or it begins with a blank. -/
def BeginsBlank (cs : List Char) : Prop := ∀ c ∈ cs.head?, isBlank c = true

/-- A text that can be a word. -/
structure Solid (word : List Char) : Prop where
  ne_nil : word ≠ []
  noBlank : ∀ c ∈ word, isBlank c = false

/-! ## Words on either side of a blank -/

/-- **Words are taken apart at any blank.** -/
theorem words_append_cons {c : Char} (hc : isBlank c = true) (cs ds : List Char) :
    words (cs ++ c :: ds) = words cs ++ words ds := by
  rw [words, words, words, ← List.filter_append, split_eq_splitOnP, split_eq_splitOnP,
    split_eq_splitOnP, List.splitOnP_append_cons cs ds hc]

theorem words_nil : words [] = [] := rfl

theorem words_blank (h : Blank cs) : words cs = [] := by
  induction cs with
  | nil => rfl
  | cons c cs ih =>
      have hwords := words_append_cons (h c List.mem_cons_self) [] cs
      rw [List.nil_append] at hwords
      rw [hwords, ih fun d hd => h d (List.mem_cons_of_mem _ hd)]
      rfl

theorem words_solid (h : Solid word) : words word = [word] := by
  have hword : (!word.isEmpty) = true := by simpa using h.ne_nil
  rw [words, split_eq_splitOnP, List.splitOnP_eq_singleton h.noBlank, List.filter_cons, hword]
  rfl

/-- Behind a blank a new word begins, so the words can be read from there on. -/
theorem words_append_of_endsBlank (h : EndsBlank before) (cs : List Char) :
    words (before ++ cs) = words before ++ words cs := by
  rcases List.eq_nil_or_concat before with rfl | ⟨rest, c, rfl⟩
  · rfl
  · have hc : isBlank c = true := h c (by simp)
    rw [List.concat_eq_append, List.append_assoc, List.singleton_append, words_append_cons hc,
      words_append_cons hc, words_nil, List.append_nil]

/-- A blank ends a word, so the words in front of it can be read by themselves. -/
theorem words_append_of_beginsBlank (h : BeginsBlank after) (cs : List Char) :
    words (cs ++ after) = words cs ++ words after := by
  cases after with
  | nil => rw [List.append_nil, words_nil, List.append_nil]
  | cons c ds =>
      have hwords := words_append_cons (h c rfl) [] ds
      rw [List.nil_append] at hwords
      rw [words_append_cons (h c rfl), hwords]
      rfl

/-- The words of a text are those in front of a word, this one, and those behind it. -/
theorem words_around (hbefore : EndsBlank before) (hword : Solid word)
    (hafter : BeginsBlank after) :
    words (before ++ (word ++ after)) = words before ++ word :: words after := by
  rw [words_append_of_endsBlank hbefore, words_append_of_beginsBlank hafter, words_solid hword]
  rfl

/-! ## Where a word stands -/

theorem Solid.not_beginsBlank (h : Solid word) (cs : List Char) : ¬ BeginsBlank (word ++ cs) := by
  obtain ⟨c, rest, rfl⟩ := List.exists_cons_of_ne_nil h.ne_nil
  intro hblank
  have hc := h.noBlank c List.mem_cons_self
  rw [hblank c rfl] at hc
  exact nomatch hc

theorem Solid.not_endsBlank (h : Solid word) (cs : List Char) : ¬ EndsBlank (cs ++ word) := by
  intro hblank
  have hlast : word.getLast h.ne_nil ∈ (cs ++ word).getLast? := by
    rw [List.getLast?_append_of_ne_nil cs h.ne_nil]
    exact List.getLast?_eq_some_getLast h.ne_nil
  have hc := h.noBlank _ (List.getLast_mem h.ne_nil)
  rw [hblank _ hlast] at hc
  exact nomatch hc

/-- What lies between two words begins and ends with a blank. -/
theorem between_words {word' between : List Char} (hword' : Solid word')
    (h : BeginsBlank (between ++ (word' ++ cs))) :
    between ≠ [] ∧ BeginsBlank between := by
  cases between with
  | nil => exact absurd h (hword'.not_beginsBlank cs)
  | cons c rest => exact ⟨List.cons_ne_nil c rest, h⟩

/-- Where the first word of a text stands. -/
theorem exists_of_words_eq_cons {later : List (List Char)} (h : words cs = word :: later) :
    ∃ blanks after, cs = blanks ++ (word ++ after) ∧ Blank blanks ∧ Solid word ∧
      BeginsBlank after ∧ words after = later := by
  have hblanks : Blank (cs.takeWhile isBlank) := fun c hc => List.mem_takeWhile_imp hc
  have hsplit : cs = cs.takeWhile isBlank ++ cs.dropWhile isBlank :=
    List.takeWhile_append_dropWhile.symm
  have hends : EndsBlank (cs.takeWhile isBlank) := fun c hc =>
    hblanks c (List.mem_of_getLast? hc)
  have hhead := List.head?_dropWhile_not isBlank cs
  generalize cs.takeWhile isBlank = blanks at hsplit hblanks hends
  generalize cs.dropWhile isBlank = rest at hsplit hhead
  subst hsplit
  have hrest : rest = rest.takeWhile (!isBlank ·) ++ rest.dropWhile (!isBlank ·) :=
    List.takeWhile_append_dropWhile.symm
  have hafter : BeginsBlank (rest.dropWhile (!isBlank ·)) := by
    intro c hc
    have hnot := List.head?_dropWhile_not (!isBlank ·) rest
    rw [Option.mem_def.mp hc] at hnot
    simpa using hnot
  cases rest with
  | nil =>
      rw [List.append_nil, words_blank hblanks] at h
      exact nomatch h
  | cons c rest =>
      have hc : isBlank c = false := hhead
      have hsolid : Solid ((c :: rest).takeWhile (!isBlank ·)) :=
        ⟨by simp [hc], fun d hd => by simpa using List.mem_takeWhile_imp hd⟩
      have hwords := words_around hends hsolid hafter
      rw [← hrest, h, words_blank hblanks] at hwords
      obtain ⟨hword, hlater⟩ := List.cons.inj hwords
      rw [hword]
      exact ⟨blanks, _, congrArg _ hrest, hblanks, hsolid, hafter, hlater.symm⟩

/-- **Where a word of a text stands**: the words that come earlier stand in front of it, the later
    ones behind it. -/
theorem exists_of_words_eq {earlier later : List (List Char)}
    (h : words cs = earlier ++ word :: later) :
    ∃ before after, cs = before ++ (word ++ after) ∧ EndsBlank before ∧ Solid word ∧
      BeginsBlank after ∧ words before = earlier ∧ words after = later := by
  induction earlier generalizing cs with
  | nil =>
      obtain ⟨blanks, after, hcs, hblanks, hword, hafter, hlater⟩ := exists_of_words_eq_cons h
      exact ⟨blanks, after, hcs, fun c hc => hblanks c (List.mem_of_getLast? hc), hword, hafter,
        words_blank hblanks, hlater⟩
  | cons first earlier ih =>
      obtain ⟨blanks, rest, rfl, hblanks, hfirst, hrest, hwords⟩ := exists_of_words_eq_cons h
      obtain ⟨between, after, rfl, hbetween, hword, hafter, hearlier, hlater⟩ := ih hwords
      obtain ⟨hne, hbegins⟩ := between_words hword hrest
      have hends : EndsBlank blanks := fun c hc => hblanks c (List.mem_of_getLast? hc)
      refine ⟨blanks ++ (first ++ between), after, by simp only [List.append_assoc], ?_, hword,
        hafter, ?_, hlater⟩
      · intro c hc
        rw [← List.append_assoc, List.getLast?_append_of_ne_nil _ hne] at hc
        exact hbetween c hc
      · rw [words_around hends hfirst hbegins, words_blank hblanks, hearlier]
        rfl

end Text

namespace Head

open Text (EndsBlank BeginsBlank Solid words)

variable {cs before name after : List Char}

/-! ## Full names of commits -/

theorem mem_digits_of_isHexDigit {c : Char} (h : isHexDigit c = true) :
    c ∈ "0123456789abcdefABCDEF".toList := by
  have hranges : (48 ≤ c.toNat ∧ c.toNat ≤ 57) ∨ (97 ≤ c.toNat ∧ c.toNat ≤ 102) ∨
      (65 ≤ c.toNat ∧ c.toNat ≤ 70) := by
    simp only [isHexDigit, Bool.or_eq_true, Bool.and_eq_true, decide_eq_true_iff] at h
    rcases h with (⟨hlow, hhigh⟩ | ⟨hlow, hhigh⟩) | ⟨hlow, hhigh⟩
    · exact .inl ⟨hlow, hhigh⟩
    · exact .inr (.inl ⟨hlow, hhigh⟩)
    · exact .inr (.inr ⟨hlow, hhigh⟩)
  rw [← Char.ofNat_toNat c]
  rcases hranges with ⟨hlow, hhigh⟩ | ⟨hlow, hhigh⟩ | ⟨hlow, hhigh⟩ <;>
    interval_cases c.toNat <;> decide

/-- The test for a word is that it is a full name. -/
theorem isCommit_iff {word : List Char} : isCommit word = true ↔ CommitName word := by
  constructor
  · intro h
    rw [isCommit, Bool.and_eq_true, beq_iff_eq, List.all_eq_true] at h
    exact ⟨h.1, fun c hc => mem_digits_of_isHexDigit (h.2 c hc)⟩
  · exact CommitName.isCommit

/-- A full name is one word. -/
theorem CommitName.solid (h : CommitName name) : Solid name where
  ne_nil := by
    rintro rfl
    exact nomatch h.length_eq
  noBlank := by
    have hdigits : ("0123456789abcdefABCDEF".toList.all fun c => !Text.isBlank c) = true := rfl
    intro c hc
    simpa using List.all_eq_true.mp hdigits c (h.digits c hc)

/-! ## Where a commit's name stands -/

/-- A full name stands in a text, with a blank or an end of the text on either side. -/
structure CommitAt (cs before name after : List Char) : Prop where
  text : cs = before ++ name ++ after
  commit : CommitName name
  endsBlank : EndsBlank before
  beginsBlank : BeginsBlank after

/-- A full name stands in a text, and none stands further to the left. -/
structure FirstCommit (cs before name after : List Char) : Prop
    extends CommitAt cs before name after where
  first : ∀ before' name' after', CommitAt cs before' name' after' →
    before.length ≤ before'.length

/-- Where a full name stands between blanks, it is one of the words. -/
theorem CommitAt.words_eq (h : CommitAt cs before name after) :
    words cs = words before ++ name :: words after := by
  rw [h.text, List.append_assoc]
  exact Text.words_around h.endsBlank h.commit.solid h.beginsBlank

/-- A full name that begins in front of another one ends in front of it. -/
theorem CommitAt.mem_words_before {before' name' after' : List Char}
    (h : CommitAt cs before name after) (h' : CommitAt cs before' name' after')
    (hlt : before'.length < before.length) : name' ∈ words before := by
  have htext := h.text
  rw [h'.text, List.append_assoc, List.append_assoc] at htext
  -- the front of the left name is the beginning of the front of the right one
  rcases List.append_eq_append_iff.mp htext with ⟨rest, hbefore, hrest⟩ | ⟨rest, hbefore', -⟩
  · rcases List.append_eq_append_iff.mp hrest with ⟨gap, rfl, hafter'⟩ | ⟨tail, hname', -⟩
    · have hgap : BeginsBlank gap := by
        have hblank := h'.beginsBlank
        rw [hafter'] at hblank
        exact (Text.between_words h.commit.solid hblank).2
      rw [hbefore, Text.words_around h'.endsBlank h'.commit.solid hgap]
      exact List.mem_append_right _ List.mem_cons_self
    · -- otherwise the right one would begin within the left one, where no blank is
      have hne : rest ≠ [] := by
        rintro rfl
        rw [hbefore, List.append_nil] at hlt
        exact absurd hlt (Nat.lt_irrefl _)
      have hsolid : Solid rest := ⟨hne, fun c hc =>
        h'.commit.solid.noBlank c (hname' ▸ List.mem_append_left _ hc)⟩
      exact absurd (hbefore ▸ h.endsBlank) (hsolid.not_endsBlank before')
  · rw [hbefore', List.length_append] at hlt
    omega

/-- No word in front of the first full name is one. -/
theorem FirstCommit.not_mem_words_before (h : FirstCommit cs before name after)
    {word : List Char} (hword : word ∈ words before) : ¬ CommitName word := by
  intro hcommit
  obtain ⟨earlier, later, hwords⟩ := List.append_of_mem hword
  obtain ⟨front, rest, hbefore, hfront, -, hrest, -, -⟩ := Text.exists_of_words_eq hwords
  have hne : rest ≠ [] := by
    rintro rfl
    refine hcommit.solid.not_endsBlank front ?_
    rw [List.append_nil] at hbefore
    exact hbefore ▸ h.endsBlank
  have hat : CommitAt cs front word (rest ++ name ++ after) := by
    refine ⟨?_, hcommit, hfront, fun c hc => ?_⟩
    · rw [h.text, hbefore]
      simp only [List.append_assoc]
    · rw [List.append_assoc, List.head?_append_of_ne_nil _ hne] at hc
      exact hrest c hc
  have hle := h.first _ _ _ hat
  have hpos := List.length_pos_iff.mpr hcommit.solid.ne_nil
  rw [hbefore, List.length_append, List.length_append] at hle
  omega

/-! ## What the reader finds -/

/-- **THE COMMIT THAT IS READ** is the full name that stands furthest to the left. -/
theorem commit?_eq_some_iff {shown name : String} :
    commit? shown = some name ↔
      ∃ before after, FirstCommit shown.toList before name.toList after := by
  constructor
  · intro h
    obtain ⟨word, hword, rfl⟩ := Option.map_eq_some_iff.mp h
    obtain ⟨hcommit, earlier, later, hwords, hearlier⟩ := List.find?_eq_some_iff_append.mp hword
    obtain ⟨before, after, htext, hbefore, -, hafter, hfront, -⟩ := Text.exists_of_words_eq hwords
    rw [String.toList_ofList]
    have hat : CommitAt shown.toList before word after :=
      ⟨by rw [htext, List.append_assoc], isCommit_iff.mp hcommit, hbefore, hafter⟩
    refine ⟨before, after, hat, fun before' name' after' hat' => ?_⟩
    by_contra hlt
    have hmem := hat.mem_words_before hat' (Nat.lt_of_not_le hlt)
    rw [hfront] at hmem
    have hnot := hearlier name' hmem
    rw [hat'.commit.isCommit] at hnot
    exact nomatch hnot
  · rintro ⟨before, after, hfirst⟩
    refine Option.map_eq_some_iff.mpr ⟨name.toList, ?_, String.ofList_toList⟩
    refine List.find?_eq_some_iff_append.mpr ⟨hfirst.commit.isCommit, words before, words after,
      hfirst.words_eq, fun word hword => ?_⟩
    have hnot := hfirst.not_mem_words_before hword
    rw [← isCommit_iff, Bool.not_eq_true] at hnot
    rw [hnot]
    rfl

/-- No commit is read just if no full name stands in the text. -/
theorem commit?_eq_none_iff {shown : String} :
    commit? shown = none ↔ ∀ before name after, ¬ CommitAt shown.toList before name after := by
  rw [commit?, Option.map_eq_none_iff, List.find?_eq_none]
  constructor
  · intro h before name after hat
    refine h name ?_ hat.commit.isCommit
    rw [hat.words_eq]
    exact List.mem_append_right _ List.mem_cons_self
  · intro h word hword hcommit
    obtain ⟨earlier, later, hwords⟩ := List.append_of_mem hword
    obtain ⟨before, after, htext, hbefore, -, hafter, -, -⟩ := Text.exists_of_words_eq hwords
    exact h before word after
      ⟨by rw [htext, List.append_assoc], isCommit_iff.mp hcommit, hbefore, hafter⟩

/-- A word that is no full name is passed over. -/
theorem commit?_around {shown : String} {word : List Char} (hword : Solid word)
    (hother : ¬ CommitName word) (hbefore : EndsBlank before) (hafter : BeginsBlank after)
    (hshown : shown.toList = before ++ word ++ after) :
    commit? shown = (commit? (String.ofList before)).or (commit? (String.ofList after)) := by
  rw [← isCommit_iff] at hother
  rw [commit?, commit?, commit?, hshown, List.append_assoc,
    Text.words_around hbefore hword hafter, List.find?_append, List.find?_cons_of_neg hother,
    String.toList_ofList, String.toList_ofList, Option.map_or]

/-- **THE FIRST FULL NAME AND NOTHING ELSE**: a commit is read just if a full name stands in the
    text, and then it is the one furthest to the left.  A word that is too long or too short, or
    that has anything but these digits in it, yields nothing, whatever stands around it. -/
theorem commit?_is_first_full_name (shown : String) :
    (∀ name, commit? shown = some name ↔
      ∃ before after, FirstCommit shown.toList before name.toList after) ∧
    (commit? shown = none ↔ ∀ before name after, ¬ CommitAt shown.toList before name after) ∧
    (∀ before word after, shown.toList = before ++ word ++ after → EndsBlank before →
      Solid word → BeginsBlank after →
      (word.length ≠ 40 ∨ ∃ c ∈ word, c ∉ "0123456789abcdefABCDEF".toList) →
        commit? shown = (commit? (String.ofList before)).or (commit? (String.ofList after))) ∧
    ∀ name, commit? shown = some name → name.length = 40 ∧ name.toList <:+: shown.toList := by
  refine ⟨fun name => commit?_eq_some_iff, commit?_eq_none_iff, ?_, ?_⟩
  · intro before word after htext hbefore hword hafter hother
    refine commit?_around hword (fun hcommit => ?_) hbefore hafter htext
    rcases hother with hlength | ⟨c, hc, hdigit⟩
    · exact hlength hcommit.length_eq
    · exact hdigit (hcommit.digits c hc)
  · intro name h
    obtain ⟨before, after, hfirst⟩ := commit?_eq_some_iff.mp h
    exact ⟨hfirst.commit.length_eq, before, after, hfirst.text.symm⟩

/-- A run of forty-one digits in front of a full name is passed over. -/
theorem commit?_is_first_behind_longer_run :
    commit? (String.ofList (List.replicate 41 'a' ++ ' ' :: List.replicate 40 'b'))
      = some (String.ofList (List.replicate 40 'b')) := by
  obtain ⟨-, -, hother, -⟩ := commit?_is_first_full_name
    (String.ofList (List.replicate 41 'a' ++ ' ' :: List.replicate 40 'b'))
  have hafter : BeginsBlank (' ' :: List.replicate 40 'b') := by
    intro c hc
    obtain rfl := Option.some.inj hc
    rfl
  have hword : Solid (List.replicate 41 'a') :=
    ⟨List.cons_ne_nil _ _, fun c hc => List.eq_of_mem_replicate hc ▸ rfl⟩
  rw [hother [] (List.replicate 41 'a') (' ' :: List.replicate 40 'b') String.toList_ofList
    (fun _ hc => nomatch hc) hword hafter (.inl (by decide))]
  decide +kernel

end Head

end RebasePlan
