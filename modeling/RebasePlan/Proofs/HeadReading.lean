import Mathlib.Data.List.Basic
import Mathlib.Data.List.TakeWhile
import RebasePlan.Head
import RebasePlan.Proofs.FirstCut

/-! # What the readers of git's output find

    A name that either reader finds is never empty.  On the texts that git
    prints they find the name that is in them: `branch?_of_header` for a
    status header with a branch, `branch?_detached` for one without, and
    `commit?_of_word` for the line of the head commit.

    Only the first line of a status counts, and of it only the first word.  All
    that may stand behind a branch in a header is either cut off with that word
    or begins with the dots (`HeaderTail`). -/

namespace RebasePlan.Head

/-! ## No empty names -/

/-- A name has at least one character. -/
theorem name?_ne_nil {cs name : List Char} (h : name? cs = some name) : name ≠ [] := by
  rw [name?] at h
  split at h
  · exact nomatch h
  · next hne =>
    rw [← Option.some.inj h]
    exact hne

theorem unbornName?_ne_nil {cs name : List Char} (h : unbornName? cs = some name) :
    name ≠ [] := by
  obtain ⟨wording, -, hw⟩ := List.exists_of_findSome?_eq_some h
  split at hw
  · exact name?_ne_nil hw
  · exact nomatch hw

theorem headerName?_ne_nil {line name : List Char} (h : headerName? line = some name) :
    name ≠ [] := by
  rw [headerName?.eq_def] at h
  split at h
  · next rest =>
    rcases Option.or_eq_some_iff.mp h with hu | ⟨-, hn⟩
    · exact unbornName?_ne_nil hu
    · exact name?_ne_nil hn
  · exact nomatch h

theorem branchOfName_ne_nil {word branch : List Char} (hword : word ≠ [])
    (h : branchOfName word = some branch) : branch ≠ [] := by
  rw [branchOfName] at h
  split at h
  · exact nomatch h
  · split at h
    · exact nomatch h
    · next before after hne hcut =>
      rw [← Option.some.inj h]
      intro hnil
      exact hne hnil
    · rw [← Option.some.inj h]
      exact hword

/-- A branch that a status names has a name. -/
theorem branch?_ne_empty {status name : String} (h : branch? status = some name) :
    name ≠ "" := by
  obtain ⟨branch, hbranch, rfl⟩ := Option.map_eq_some_iff.mp h
  obtain ⟨word, hword, hname⟩ := Option.bind_eq_some_iff.mp hbranch
  obtain ⟨line, -, hline⟩ := List.exists_of_findSome?_eq_some hword
  intro hempty
  have hnil : branch = [] := String.ofList_eq_empty_iff.mp hempty
  exact branchOfName_ne_nil (headerName?_ne_nil hline) hname hnil

/-- A commit that is read has a name. -/
theorem commit?_ne_empty {shown name : String} (h : commit? shown = some name) :
    name ≠ "" := by
  obtain ⟨word, hword, rfl⟩ := Option.map_eq_some_iff.mp h
  have hcommit := List.find?_some hword
  intro hempty
  rw [String.ofList_eq_empty_iff.mp hempty] at hcommit
  exact nomatch hcommit

/-! ## The first line and the first word -/

/-- What stands before the first place to split at is the first piece. -/
theorem split_eq_cons {α : Type} (p : α → Bool) (xs : List α) :
    ∃ others, Text.split p xs = xs.takeWhile (!p ·) :: others := by
  induction xs with
  | nil => exact ⟨[], rfl⟩
  | cons x xs ih =>
      obtain ⟨others, hothers⟩ := ih
      cases hx : p x with
      | true => exact ⟨Text.split p xs, by simp [Text.split, hx]⟩
      | false => exact ⟨others, by simp [Text.split, hx, hothers]⟩

/-- A header in the first line decides. -/
theorem branch?_of_first_line {status : String} {word : List Char}
    (h : headerName? (status.toList.takeWhile (!(· == '\n') ·)) = some word) :
    branch? status = (branchOfName word).map String.ofList := by
  obtain ⟨others, hothers⟩ := split_eq_cons (· == '\n') status.toList
  rw [branch?, rawLines, hothers, List.findSome?_cons, h]
  rfl

/-- Cutting a text at its first line feed does not shorten its first name. -/
theorem name?_takeWhile (cs : List Char) :
    name? (cs.takeWhile (!(· == '\n') ·)) = name? cs := by
  have hword : (cs.takeWhile (!(· == '\n') ·)).takeWhile isNameChar
      = cs.takeWhile isNameChar := by
    rw [List.takeWhile_takeWhile]
    congr 1
    funext c
    -- a line feed ends a name as well
    by_cases hc : c = '\n'
    · simp [hc, isNameChar]
    · simp [hc]
  rw [name?, name?, hword]

/-- A name goes on for as long as its characters do. -/
theorem name?_append {name : List Char} (hne : name ≠ []) (h : ∀ c ∈ name, isNameChar c = true)
    (cs : List Char) : name? (name ++ cs) = some (name ++ cs.takeWhile isNameChar) := by
  obtain ⟨c, rest, rfl⟩ := List.exists_cons_of_ne_nil hne
  rw [name?, List.takeWhile_append_of_pos h]
  rfl

/-! ## Branches as they stand in a header -/

/-- The names that a branch may have. -/
structure BranchName (name : List Char) : Prop where
  ne_nil : name ≠ []
  noGap : ∀ c ∈ name, c ≠ ' ' ∧ c ≠ '\t' ∧ c ≠ '\r' ∧ c ≠ '\n'
  noDots : ¬ ['.', '.'] <:+: name
  noLastDot : name.getLast? ≠ some '.'
  notHead : name ≠ ['H', 'E', 'A', 'D']

/-- The end of the first line, or of the text. -/
inductive LineEnd : List Char → Prop where
  | text : LineEnd []
  | feed (more : List Char) : LineEnd ('\n' :: more)
  | returnFeed (more : List Char) : LineEnd ('\r' :: '\n' :: more)

/-- What stands behind a branch in a header: nothing, or three dots and what it tracks; then the
    end of the line. -/
inductive HeaderTail : List Char → Prop where
  | plain {rest : List Char} : LineEnd rest → HeaderTail rest
  | tracked (upstream : List Char) {rest : List Char} : LineEnd rest →
      HeaderTail ('.' :: '.' :: '.' :: (upstream ++ rest))

theorem BranchName.isNameChar {name : List Char} (h : BranchName name) :
    ∀ c ∈ name, isNameChar c = true := by
  intro c hc
  obtain ⟨h1, h2, h3, h4⟩ := h.noGap c hc
  simp [Head.isNameChar, h1, h2, h3, h4]

/-- Behind a branch a header goes on with a dot or with the end of its line. -/
theorem HeaderTail.head {tail : List Char} (h : HeaderTail tail) :
    ∀ c ∈ tail.head?, c = '.' ∨ c = '\n' ∨ c = '\r' := by
  intro c hc
  cases h with
  | tracked upstream _ => exact Or.inl (Option.some.inj hc).symm
  | plain hrest =>
      cases hrest with
      | text => exact nomatch hc
      | feed more => exact Or.inr (Or.inl (Option.some.inj hc).symm)
      | returnFeed more => exact Or.inr (Or.inr (Option.some.inj hc).symm)

/-- What is left of a header's first word behind the branch. -/
theorem HeaderTail.takeWhile {tail : List Char} (h : HeaderTail tail) :
    tail.takeWhile Head.isNameChar = [] ∨
      ∃ more, tail.takeWhile Head.isNameChar = '.' :: '.' :: '.' :: more := by
  cases h with
  | tracked upstream _ => exact Or.inr ⟨_, rfl⟩
  | plain hrest =>
      refine Or.inl ?_
      cases hrest with
      | text => rfl
      | feed more => rfl
      | returnFeed more => rfl

/-! ## The branch in a word -/

theorem dots_uniform : Text.Uniform ["...".toList] where
  ne_nil := by decide
  length_eq := by decide

/-- The dots behind a branch name are the first ones. -/
theorem cutsAtFirst_dots {name : List Char} (h : BranchName name) (more : List Char) :
    Text.CutsAtFirst ["...".toList] (name ++ '.' :: '.' :: '.' :: more) name more where
  occurs := by
    refine ⟨['.', '.', '.'], List.mem_singleton.mpr rfl, ?_⟩
    rw [List.append_assoc]
    rfl
  first := by
    intro p hp u v hline
    rw [List.mem_singleton.mp hp] at hline
    rw [List.append_assoc] at hline
    by_contra hlt
    -- earlier dots would begin in the name, and end in it or just behind it
    rcases List.append_eq_append_iff.mp hline with ⟨as, hu, -⟩ | ⟨bs, hname, hbs⟩
    · rw [hu, List.length_append] at hlt
      omega
    · cases bs with
      | nil =>
          rw [hname, List.append_nil] at hlt
          omega
      | cons b bs =>
          have hb : b = '.' := (List.cons.inj hbs).1.symm
          have hrest := (List.cons.inj hbs).2
          cases bs with
          | nil =>
              refine h.noLastDot ?_
              rw [hname, hb, List.getLast?_append_of_ne_nil u (List.cons_ne_nil _ _)]
              rfl
          | cons b' bs =>
              have hb' : b' = '.' := (List.cons.inj hrest).1.symm
              refine h.noDots ⟨u, bs, ?_⟩
              rw [hname, hb, hb', List.append_assoc]
              rfl

/-- **The branch in the first word of a header** is found, tracked or not. -/
theorem branchOfName_append {name : List Char} (h : BranchName name) {suffix : List Char}
    (hsuffix : suffix = [] ∨ ∃ more, suffix = '.' :: '.' :: '.' :: more) :
    branchOfName (name ++ suffix) = some name := by
  rw [branchOfName]
  rcases hsuffix with rfl | ⟨more, rfl⟩
  · have hnone : Text.cut ["...".toList] name = none := by
      refine (Text.cut_eq_none_iff dots_uniform.ne_nil).mpr fun p hp hin => h.noDots ?_
      rw [List.mem_singleton.mp hp] at hin
      exact List.IsInfix.trans ⟨[], ['.'], rfl⟩ hin
    have hhead : ¬ name = "HEAD".toList := h.notHead
    rw [List.append_nil, if_neg hhead, hnone]
  · have hhead : ¬ name ++ '.' :: '.' :: '.' :: more = "HEAD".toList := by
      intro heq
      have hdot : '.' ∈ "HEAD".toList :=
        heq ▸ List.mem_append_right name (List.mem_cons_self ..)
      exact absurd hdot (by decide)
    obtain ⟨c, rest, hname⟩ := List.exists_cons_of_ne_nil h.ne_nil
    rw [if_neg hhead, (Text.cut_eq_some_iff dots_uniform).mpr (cutsAtFirst_dots h more), hname]

/-! ## The wordings for a branch without commits -/

/-- No wording begins like a branch in a header: it has a space where the branch, or what stands
    behind it, has none. -/
theorem not_wording_prefix {name tail : List Char} (h : BranchName name)
    (htail : HeaderTail tail) : ∀ wording ∈ unbornWordings, ¬ wording <+: name ++ tail := by
  have hparts : ∀ wording ∈ unbornWordings, ∃ word rest, wording = word ++ ' ' :: rest ∧
      '.' ∉ word ∧ '\n' ∉ word ∧ '\r' ∉ word := by
    intro wording hw
    rcases List.mem_cons.mp hw with rfl | hw
    · exact ⟨"No".toList, "commits yet on ".toList, rfl, by decide, by decide, by decide⟩
    · rw [List.mem_singleton.mp hw]
      exact ⟨"Initial".toList, "commit on ".toList, rfl, by decide, by decide, by decide⟩
  rintro wording hw ⟨more, hmore⟩
  obtain ⟨word, rest, rfl, hdot, hfeed, hreturn⟩ := hparts wording hw
  have hspace : ∀ cs, tail = ' ' :: cs → False := by
    intro cs hcs
    rcases htail.head ' ' (by rw [hcs]; rfl) with hc | hc | hc <;> exact absurd hc (by decide)
  rw [List.append_assoc] at hmore
  rcases List.append_eq_append_iff.mp hmore with ⟨as, hname, htl⟩ | ⟨bs, hword', htl⟩
  · cases as with
    | nil => exact hspace _ htl.symm
    | cons a as =>
        have ha : a = ' ' := (List.cons.inj htl).1.symm
        have hmem : ' ' ∈ name := by
          rw [hname, ha]
          exact List.mem_append_right word (List.mem_cons_self ..)
        exact (h.noGap ' ' hmem).1 rfl
  · cases bs with
    | nil => exact hspace _ htl
    | cons b bs =>
        have hmem : b ∈ word := by
          rw [hword']
          exact List.mem_append_right name (List.mem_cons_self ..)
        rcases htail.head b (by rw [htl]; rfl) with rfl | rfl | rfl
        · exact hdot hmem
        · exact hfeed hmem
        · exact hreturn hmem

theorem unbornName?_of_no_wording {cs : List Char}
    (h : ∀ wording ∈ unbornWordings, ¬ wording <+: cs) : unbornName? cs = none := by
  refine List.findSome?_eq_none_iff.mpr fun wording hw => ?_
  refine if_neg fun hpre => h wording hw (List.isPrefixOf_iff_prefix.mp hpre)

/-- A wording is left out if a name follows it. -/
theorem unbornName?_append {wording cs name : List Char} (hw : wording ∈ unbornWordings)
    (h : name? cs = some name) : unbornName? (wording ++ cs) = some name := by
  have hself : (if wording.isPrefixOf (wording ++ cs)
      then name? ((wording ++ cs).drop wording.length) else none) = some name := by
    rw [if_pos (List.isPrefixOf_iff_prefix.mpr (List.prefix_append wording cs)),
      List.drop_left, h]
  rw [unbornName?, unbornWordings, List.findSome?_cons]
  rcases List.mem_cons.mp hw with rfl | hw
  · rw [hself]
  · rw [List.mem_singleton.mp hw] at hself ⊢
    have hother : "No commits yet on ".toList.isPrefixOf ("Initial commit on ".toList ++ cs)
        = false := rfl
    rw [hother, List.findSome?_cons, hself]
    rfl

/-! ## Status headers -/

/-- The first line of a text that begins with two number signs and a space. -/
private theorem takeWhile_header (cs : List Char) :
    ('#' :: '#' :: ' ' :: cs).takeWhile (!(· == '\n') ·)
      = '#' :: '#' :: ' ' :: cs.takeWhile (!(· == '\n') ·) := rfl

/-- **A header with a branch** names that branch. -/
theorem branch?_of_header {status : String} {name tail : List Char} (h : BranchName name)
    (htail : HeaderTail tail) (hstatus : status.toList = '#' :: '#' :: ' ' :: (name ++ tail)) :
    branch? status = some (String.ofList name) := by
  have hnone : unbornName? ((name ++ tail).takeWhile (!(· == '\n') ·)) = none := by
    refine unbornName?_of_no_wording fun wording hw hpre => ?_
    exact not_wording_prefix h htail wording hw (hpre.trans (List.takeWhile_prefix _))
  have hheader : headerName? (status.toList.takeWhile (!(· == '\n') ·))
      = some (name ++ tail.takeWhile isNameChar) := by
    rw [hstatus, takeWhile_header]
    show (unbornName? _).or (name? _) = _
    rw [hnone, Option.none_or, name?_takeWhile, name?_append h.ne_nil h.isNameChar]
  rw [branch?_of_first_line hheader, branchOfName_append h htail.takeWhile, Option.map_some]

/-- **A header with a branch that has no commits** names that branch. -/
theorem branch?_of_unborn_header {status : String} {wording name tail : List Char}
    (hw : wording ∈ unbornWordings) (h : BranchName name) (htail : HeaderTail tail)
    (hstatus : status.toList = '#' :: '#' :: ' ' :: (wording ++ (name ++ tail))) :
    branch? status = some (String.ofList name) := by
  have hfeed : (unbornWordings.all fun w => w.all fun c => !(c == '\n')) = true := rfl
  have hword := List.all_eq_true.mp (List.all_eq_true.mp hfeed wording hw)
  have hname : name? ((name ++ tail).takeWhile (!(· == '\n') ·))
      = some (name ++ tail.takeWhile isNameChar) := by
    rw [name?_takeWhile, name?_append h.ne_nil h.isNameChar]
  have hheader : headerName? (status.toList.takeWhile (!(· == '\n') ·))
      = some (name ++ tail.takeWhile isNameChar) := by
    rw [hstatus, takeWhile_header, List.takeWhile_append_of_pos hword]
    show (unbornName? _).or (name? _) = _
    rw [unbornName?_append hw hname, Option.some_or]
  rw [branch?_of_first_line hheader, branchOfName_append h htail.takeWhile, Option.map_some]

/-- **A header without a branch** names none, whatever the lines after it say. -/
theorem branch?_detached {status : String} {more : List Char}
    (hstatus : status.toList = "## HEAD (no branch)".toList ++ '\n' :: more) :
    branch? status = none := by
  have hheader : headerName? (status.toList.takeWhile (!(· == '\n') ·))
      = some "HEAD".toList := by
    rw [hstatus]
    rfl
  rw [branch?_of_first_line hheader]
  rfl

/-! ## The head commit -/

/-- The full names that a commit may have. -/
structure CommitName (name : List Char) : Prop where
  length_eq : name.length = 40
  digits : ∀ c ∈ name, c ∈ "0123456789abcdefABCDEF".toList

theorem CommitName.isCommit {name : List Char} (h : CommitName name) : isCommit name = true := by
  have hdigits : "0123456789abcdefABCDEF".toList.all isHexDigit = true := rfl
  rw [Head.isCommit, Bool.and_eq_true, List.all_eq_true]
  exact ⟨beq_iff_eq.mpr h.length_eq,
    fun c hc => List.all_eq_true.mp hdigits c (h.digits c hc)⟩

/-- **The first word of a description**, if it is a commit's name, is the commit that is read. -/
theorem commit?_of_word {shown : String} {name tail : List Char} (h : CommitName name)
    (htail : ∀ c ∈ tail.head?, Text.isBlank c = true) (hshown : shown.toList = name ++ tail) :
    commit? shown = some (String.ofList name) := by
  have hblank : ("0123456789abcdefABCDEF".toList.all fun c => !Text.isBlank c) = true := rfl
  have hword : shown.toList.takeWhile (!Text.isBlank ·) = name := by
    rw [hshown, List.takeWhile_append_of_pos fun c hc =>
      List.all_eq_true.mp hblank c (h.digits c hc)]
    cases tail with
    | nil => exact List.append_nil name
    | cons c tail => simp [htail c rfl]
  obtain ⟨others, hothers⟩ := split_eq_cons Text.isBlank shown.toList
  have hne : (!name.isEmpty) = true := by
    cases name with
    | nil => exact absurd h.length_eq (by decide)
    | cons c cs => rfl
  have hwords : ∃ rest, Text.words shown.toList = name :: rest := by
    refine ⟨others.filter fun piece => !piece.isEmpty, ?_⟩
    rw [Text.words, hothers, hword, List.filter_cons, hne]
    rfl
  obtain ⟨rest, hrest⟩ := hwords
  rw [commit?, hrest, List.find?_cons_of_pos h.isCommit]
  rfl

end RebasePlan.Head
