import RebasePlan.Proofs.Patterns
import RebasePlan.Proofs.ReturnToHead

/-! # The pattern of a status header

    Git names the branch of a status in a header line.  `headerPattern` says what
    such a line looks like, and its match is to be the first one of the text, by
    the rules of `Pattern.search`.  The reader `Head.branch?` goes from line to
    line instead and looks at each of them once.

    Both find the same word (`capture?_headerPattern`): the pattern can begin only
    where a line does, and none of its parts reaches across a line feed.  What
    the word is can be said without trying anything out (`IsWordOf`), and so can
    the branch that it names (`NamesBranch`). -/

namespace RebasePlan.Head

/-- A header line: two number signs and a space, the wording for a branch without commits if a name
    follows it, and a name. -/
def headerPattern : Pattern :=
  .followedBy .lineStart <| .followedBy (.literal "## ".toList) <|
    .followedBy
      (.optional (.orElse (.literal "No commits yet on ".toList)
        (.literal "Initial commit on ".toList)))
      (.group (.oneOrMore (.oneOf fun c => !([' ', '\t', '\r', '\n'].contains c))))

/-- The first word of a text, if no gap comes before it. -/
structure IsFirstWord (cs word : List Char) : Prop where
  ne_nil : word ≠ []
  noGap : ∀ c ∈ word, c ∉ [' ', '\t', '\r', '\n']
  ends : ∃ rest, cs = word ++ rest ∧ ∀ c ∈ rest.head?, c ∈ [' ', '\t', '\r', '\n']

/-- The word of a header line.  It stands behind the wording for a branch without commits if it can,
    and directly behind the number signs if not. -/
inductive IsWordOf : List Char → List Char → Prop where
  | unborn {wording rest word : List Char} :
      wording ∈ ["No commits yet on ".toList, "Initial commit on ".toList] →
      IsFirstWord rest word → IsWordOf ("## ".toList ++ (wording ++ rest)) word
  | plain {rest word : List Char} :
      (∀ wording ∈ ["No commits yet on ".toList, "Initial commit on ".toList], ∀ c more,
        rest = wording ++ c :: more → c ∈ [' ', '\t', '\r', '\n']) →
      IsFirstWord rest word → IsWordOf ("## ".toList ++ rest) word

/-- The branch that a word names: what stands before its first three dots, if there are any. -/
structure NamesBranch (word branch : List Char) : Prop where
  notHead : word ≠ "HEAD".toList
  ne_nil : branch ≠ []
  front : (∃ upstream, Text.CutsAtFirst ["...".toList] word branch upstream) ∨
    ¬ "...".toList <:+: word ∧ branch = word

/-! ## The first word -/

/-- A name is the first word. -/
theorem name?_eq_some_iff {cs word : List Char} : name? cs = some word ↔ IsFirstWord cs word := by
  constructor
  · intro h
    refine ⟨name?_ne_nil h, fun c hc => ?_, cs.dropWhile isNameChar, ?_, fun c hc => ?_⟩
    · rw [name?_eq_some h] at hc
      exact isNameChar_iff.mp (List.mem_takeWhile_imp hc)
    · rw [name?_eq_some h, List.takeWhile_append_dropWhile]
    · by_contra hgap
      have hstop := List.head?_dropWhile_not isNameChar cs
      rw [hc] at hstop
      simp [isNameChar_iff.mpr hgap] at hstop
  · rintro ⟨hne, hword, rest, rfl, hrest⟩
    have hnone : rest.takeWhile isNameChar = [] := by
      cases rest with
      | nil => rfl
      | cons c rest =>
          have hc : ¬ isNameChar c = true := fun hname => isNameChar_iff.mp hname (hrest c rfl)
          exact List.takeWhile_cons_of_neg hc
    rw [name?_append hne fun c hc => isNameChar_iff.mpr (hword c hc), hnone, List.append_nil]

/-- The name of an unborn branch is the first word behind one of the wordings. -/
theorem unbornName?_eq_some_iff {cs word : List Char} :
    unbornName? cs = some word ↔
      ∃ wording ∈ unbornWordings, ∃ rest, cs = wording ++ rest ∧ IsFirstWord rest word := by
  constructor
  · intro h
    obtain ⟨wording, hw, hword⟩ := List.exists_of_findSome?_eq_some h
    split at hword
    · next hpre =>
      obtain ⟨rest, rfl⟩ := List.isPrefixOf_iff_prefix.mp hpre
      rw [List.drop_left] at hword
      exact ⟨wording, hw, rest, rfl, name?_eq_some_iff.mp hword⟩
    · exact nomatch hword
  · rintro ⟨wording, hw, rest, rfl, hword⟩
    exact unbornName?_append hw (name?_eq_some_iff.mpr hword)

/-- The wording counts just if a name follows it. -/
theorem unbornName?_eq_none_iff {cs : List Char} :
    unbornName? cs = none ↔ ∀ wording ∈ unbornWordings, ∀ c more, cs = wording ++ c :: more →
      c ∈ [' ', '\t', '\r', '\n'] := by
  constructor
  · rintro hnone wording hw c more rfl
    by_contra hc
    cases hname : name? (c :: more) with
    | none =>
        have hgap := name?_eq_none_iff.mp hname c rfl
        rw [isNameChar_iff.mpr hc] at hgap
        exact nomatch hgap
    | some word =>
        rw [unbornName?_append hw hname] at hnone
        exact nomatch hnone
  · intro h
    rw [Option.eq_none_iff_forall_ne_some]
    intro word hword
    obtain ⟨wording, hw, rest, rfl, hfirst⟩ := unbornName?_eq_some_iff.mp hword
    obtain ⟨c, name, rfl⟩ := List.exists_cons_of_ne_nil hfirst.ne_nil
    obtain ⟨more, rfl, -⟩ := hfirst.ends
    exact hfirst.noGap c (List.mem_cons_self ..) (h wording hw c (name ++ more) rfl)

theorem headerName?_append (rest : List Char) :
    headerName? ("## ".toList ++ rest) = (unbornName? rest).or (name? rest) := rfl

/-- **THE WORD OF A HEADER** is what the reader takes from the line. -/
theorem headerName?_eq_some_iff {line word : List Char} :
    headerName? line = some word ↔ IsWordOf line word := by
  constructor
  · intro h
    obtain ⟨wording, -, more, rfl, -⟩ := headerName?_eq_some h
    rw [headerName?_append, Option.or_eq_some_iff] at h
    rcases h with hunborn | ⟨hnone, hname⟩
    · obtain ⟨wording, hw, rest, hrest, hword⟩ := unbornName?_eq_some_iff.mp hunborn
      rw [hrest]
      exact .unborn hw hword
    · exact .plain (unbornName?_eq_none_iff.mp hnone) (name?_eq_some_iff.mp hname)
  · rintro (⟨hw, hword⟩ | ⟨hplain, hword⟩)
    · rw [headerName?_append, unbornName?_append hw (name?_eq_some_iff.mpr hword), Option.some_or]
    · rw [headerName?_append, unbornName?_eq_none_iff.mpr hplain, Option.none_or,
        name?_eq_some_iff.mpr hword]

/-! ## The branch in a word -/

/-- A word has first dots, or none. -/
theorem dots_cases (word : List Char) :
    (∃ front upstream, Text.CutsAtFirst ["...".toList] word front upstream) ∨
      ¬ "...".toList <:+: word := by
  cases hcut : Text.cut ["...".toList] word with
  | some parts => exact Or.inl ⟨parts.1, parts.2, Text.cutsAtFirst_of_cut hcut⟩
  | none =>
      have hno := (Text.cut_eq_none_iff dots_uniform.ne_nil).mp hcut
      exact Or.inr (hno _ (List.mem_singleton_self _))

theorem eq_of_dots {word front upstream : List Char}
    (h : Text.CutsAtFirst ["...".toList] word front upstream) :
    word = front ++ "...".toList ++ upstream := by
  obtain ⟨dots, hdots, hword⟩ := h.occurs
  rwa [List.mem_singleton.mp hdots] at hword

/-- A word begins with its first dots just if nothing stands before them. -/
theorem dots_prefix_iff {word front upstream : List Char}
    (h : Text.CutsAtFirst ["...".toList] word front upstream) :
    "...".toList <+: word ↔ front = [] := by
  constructor
  · rintro ⟨rest, hrest⟩
    have hle := h.first _ (List.mem_singleton_self _) [] rest hrest.symm
    exact List.length_eq_zero_iff.mp (Nat.le_zero.mp hle)
  · rintro rfl
    exact ⟨upstream, (eq_of_dots h).symm⟩

/-- With dots in it, a word names what stands before the first of them, if anything does. -/
theorem branchOfName_of_dots {word front upstream : List Char} (hhead : word ≠ "HEAD".toList)
    (h : Text.CutsAtFirst ["...".toList] word front upstream) :
    branchOfName word = if front = [] then none else some front := by
  rw [branchOfName, if_neg hhead, (Text.cut_eq_some_iff dots_uniform).mpr h]
  cases front with
  | nil => rfl
  | cons c front => rfl

theorem branchOfName_of_no_dots {word : List Char} (hhead : word ≠ "HEAD".toList)
    (h : ¬ "...".toList <:+: word) : branchOfName word = some word := by
  have hcut : Text.cut ["...".toList] word = none :=
    (Text.cut_eq_none_iff dots_uniform.ne_nil).mpr fun p hp => by rwa [List.mem_singleton.mp hp]
  rw [branchOfName, if_neg hhead, hcut]

/-- **THE BRANCH IN A WORD** is what the reader makes of the word. -/
theorem branchOfName_eq_some_iff {word branch : List Char} (hword : word ≠ []) :
    branchOfName word = some branch ↔ NamesBranch word branch := by
  by_cases hhead : word = "HEAD".toList
  · subst hhead
    exact iff_of_false nofun fun h => h.notHead rfl
  rcases dots_cases word with ⟨front, upstream, hdots⟩ | hno
  · rw [branchOfName_of_dots hhead hdots]
    constructor
    · intro h
      obtain ⟨hfront, h⟩ := Option.ite_none_left_eq_some.mp h
      obtain rfl := Option.some.inj h
      exact ⟨hhead, hfront, .inl ⟨upstream, hdots⟩⟩
    · rintro ⟨-, hbranch, ⟨upstream', hdots'⟩ | ⟨hno, -⟩⟩
      · rw [(hdots.unique dots_uniform hdots').1, if_neg hbranch]
      · exact absurd ⟨front, upstream, (eq_of_dots hdots).symm⟩ hno
  · rw [branchOfName_of_no_dots hhead hno]
    constructor
    · intro h
      obtain rfl := Option.some.inj h
      exact ⟨hhead, hword, .inr ⟨hno, rfl⟩⟩
    · rintro ⟨-, -, ⟨upstream, hdots⟩ | ⟨-, rfl⟩⟩
      · exact absurd ⟨branch, upstream, (eq_of_dots hdots).symm⟩ hno
      · rfl

/-- A word names no branch just if it is HEAD or begins with dots. -/
theorem branchOfName_eq_none_iff {word : List Char} :
    branchOfName word = none ↔ word = "HEAD".toList ∨ "...".toList <+: word := by
  by_cases hhead : word = "HEAD".toList
  · subst hhead
    exact iff_of_true rfl (Or.inl rfl)
  rw [or_iff_right hhead]
  rcases dots_cases word with ⟨front, upstream, hdots⟩ | hno
  · rw [branchOfName_of_dots hhead hdots, dots_prefix_iff hdots]
    by_cases hfront : front = []
    · exact iff_of_true (if_pos hfront) hfront
    · rw [if_neg hfront]
      exact iff_of_false nofun hfront
  · rw [branchOfName_of_no_dots hhead hno]
    exact iff_of_false nofun fun hprefix => hno hprefix.isInfix

/-- A branch is a part of the word that names it, and has no dots in it. -/
theorem NamesBranch.front_part {word branch : List Char} (h : NamesBranch word branch) :
    branch <+: word ∧ ¬ "...".toList <:+: branch := by
  rcases h.front with ⟨upstream, hdots⟩ | ⟨hno, rfl⟩
  · rw [eq_of_dots hdots, List.append_assoc]
    exact ⟨List.prefix_append _ _,
      Text.not_infix_of_cutsAtFirst dots_uniform.ne_nil hdots _ (List.mem_singleton_self _)⟩
  · exact ⟨List.prefix_rfl, hno⟩

/-! ## The pattern against the lines -/

theorem name?_eq_ite (cs : List Char) :
    name? cs = if cs.takeWhile isNameChar = [] then none else some (cs.takeWhile isNameChar) := by
  rw [name?]
  split
  · next hnil => rw [if_pos hnil]
  · next hne => rw [if_neg hne]

/-- The group of the pattern takes a name. -/
theorem map_taken_group (s : Pattern.Spot) :
    ((Pattern.group (.oneOrMore (.oneOf fun c => !([' ', '\t', '\r', '\n'].contains c)))).runs
      s).head?.map Pattern.Spot.taken = (name? s.ahead).map some := by
  have hclass : (fun c => !([' ', '\t', '\r', '\n'].contains c)) = isNameChar := by
    funext c
    rw [Bool.eq_iff_iff, isNameChar_iff]
    simp
  rw [hclass, Pattern.head?_group_oneOrMore_oneOf, name?_eq_ite]
  split <;> rfl

/-- What is tried behind a word, where the word stands. -/
theorem map_taken_literal (word : List Char) (s : Pattern.Spot) (p : Pattern) :
    ((Pattern.followedBy (.literal word) p).runs s).head?.map Pattern.Spot.taken =
      if word.isPrefixOf s.ahead then (p.runs (s.past word)).head?.map Pattern.Spot.taken
      else none := by
  rw [Pattern.runs_literal_followedBy]
  split <;> rfl

theorem unbornName?_eq (cs : List Char) :
    unbornName? cs =
      (if "No commits yet on ".toList.isPrefixOf cs
        then name? (cs.drop "No commits yet on ".toList.length) else none).or
      (if "Initial commit on ".toList.isPrefixOf cs
        then name? (cs.drop "Initial commit on ".toList.length) else none) := by
  rw [unbornName?, unbornWordings, List.findSome?_cons, List.findSome?_singleton]
  split
  · next h => rw [h, Option.some_or]
  · next h => rw [h, Option.none_or]

/-- A line that does not begin with the number signs and a space has no name. -/
theorem headerName?_of_not_signs {cs : List Char} (h : ¬ "## ".toList <+: cs) :
    headerName? cs = none := by
  rw [Option.eq_none_iff_forall_ne_some]
  intro word hword
  obtain ⟨wording, -, rest, hline, -⟩ := headerName?_eq_some hword
  exact h ⟨wording ++ rest, hline.symm⟩

/-- **ONE PLACE.**  At the beginning of a line the group takes what the reader does. -/
theorem map_taken_headerPattern (behind : Option Char) (cs : List Char) :
    (headerPattern.runs ⟨behind, cs, none⟩).head?.map Pattern.Spot.taken =
      if Pattern.opensLine behind then (headerName? cs).map some else none := by
  rw [headerPattern, Pattern.runs_lineStart_followedBy]
  split
  · rw [map_taken_literal]
    by_cases hsigns : "## ".toList <+: cs
    · obtain ⟨rest, rfl⟩ := hsigns
      rw [if_pos (List.isPrefixOf_iff_prefix.mpr (List.prefix_append _ rest)),
        Pattern.runs_optional_followedBy, Pattern.runs_orElse_followedBy, List.head?_append,
        List.head?_append, Option.map_or, Option.map_or, map_taken_literal, map_taken_literal,
        map_taken_group, map_taken_group, map_taken_group, headerName?_append, unbornName?_eq,
        Option.map_or, Option.map_or, apply_ite (Option.map some), apply_ite (Option.map some)]
      rfl
    · rw [headerName?_of_not_signs hsigns, if_neg (mt List.isPrefixOf_iff_prefix.mp hsigns)]
      rfl
  · rfl

/-! ## Lines -/

theorem wording_takeWhile {wording : List Char} (hw : '\n' ∉ wording) (rest : List Char) :
    (wording ++ rest).takeWhile (!(· == '\n') ·)
      = wording ++ rest.takeWhile (!(· == '\n') ·) := by
  refine List.takeWhile_append_of_pos fun c hc => ?_
  have hne : c ≠ '\n' := fun h => hw (h ▸ hc)
  simp [hne]

/-- What is read behind a wording stands on its line. -/
theorem name?_behind_wording_takeWhile {wording : List Char} (hw : '\n' ∉ wording)
    (cs : List Char) :
    (if wording.isPrefixOf (cs.takeWhile (!(· == '\n') ·))
      then name? ((cs.takeWhile (!(· == '\n') ·)).drop wording.length) else none) =
      if wording.isPrefixOf cs then name? (cs.drop wording.length) else none := by
  by_cases hpre : wording <+: cs
  · obtain ⟨rest, rfl⟩ := hpre
    rw [wording_takeWhile hw, List.drop_left, List.drop_left, name?_takeWhile,
      if_pos (List.isPrefixOf_iff_prefix.mpr (List.prefix_append _ _)),
      if_pos (List.isPrefixOf_iff_prefix.mpr (List.prefix_append _ _))]
  · rw [if_neg (mt List.isPrefixOf_iff_prefix.mp hpre), if_neg fun h => hpre
      ((List.isPrefixOf_iff_prefix.mp h).trans (List.takeWhile_prefix _))]

/-- The name of an unborn branch is read from the first line alone. -/
theorem unbornName?_takeWhile (cs : List Char) :
    unbornName? (cs.takeWhile (!(· == '\n') ·)) = unbornName? cs := by
  rw [unbornName?_eq, unbornName?_eq, name?_behind_wording_takeWhile (by decide),
    name?_behind_wording_takeWhile (by decide)]

/-- The name in a header ends with the line at the latest. -/
theorem headerName?_takeWhile (cs : List Char) :
    headerName? (cs.takeWhile (!(· == '\n') ·)) = headerName? cs := by
  by_cases hsigns : "## ".toList <+: cs
  · obtain ⟨rest, rfl⟩ := hsigns
    rw [wording_takeWhile (by decide), headerName?_append, headerName?_append,
      unbornName?_takeWhile, name?_takeWhile]
  · rw [headerName?_of_not_signs hsigns, headerName?_of_not_signs fun h =>
      hsigns (h.trans (List.takeWhile_prefix _))]

theorem rawLines_feed (cs : List Char) : rawLines ('\n' :: cs) = [] :: rawLines cs := rfl

theorem rawLines_eq_cons (cs : List Char) :
    rawLines cs = cs.takeWhile (!(· == '\n') ·) :: (rawLines cs).tail := by
  obtain ⟨others, hothers⟩ := split_eq_cons (· == '\n') cs
  rw [rawLines, hothers]
  rfl

theorem tail_rawLines_cons {c : Char} (hc : c ≠ '\n') (cs : List Char) :
    (rawLines (c :: cs)).tail = (rawLines cs).tail := by
  have hsplit : rawLines (c :: cs) = _ := if_neg (mt beq_iff_eq.mp hc)
  rw [hsplit, ← rawLines, rawLines_eq_cons cs]
  rfl

/-- The lines that begin at a place or behind it. -/
def linesFrom (behind : Option Char) (cs : List Char) : List (List Char) :=
  if Pattern.opensLine behind then rawLines cs else (rawLines cs).tail

/-- **ALL PLACES.**  The first match is in the first line that has a name. -/
theorem map_taken_search (behind : Option Char) (cs : List Char) :
    (headerPattern.search behind cs).map Pattern.Spot.taken =
      ((linesFrom behind cs).findSome? headerName?).map some := by
  induction cs generalizing behind with
  | nil =>
      rw [Pattern.search, map_taken_headerPattern, linesFrom]
      split <;> rfl
  | cons c rest ih =>
      rw [Pattern.search, Option.map_or, map_taken_headerPattern, ih]
      by_cases hc : c = '\n'
      · subst hc
        -- no header begins with a line feed, and the next line begins behind it
        have hnone : headerName? ('\n' :: rest) = none := rfl
        have hnext : linesFrom (some '\n') rest = rawLines rest := rfl
        rw [hnone, hnext, linesFrom, rawLines_feed]
        split <;> rfl
      · have hnext : linesFrom (some c) rest = (rawLines (c :: rest)).tail := by
          rw [tail_rawLines_cons hc, linesFrom, if_neg]
          simp [Pattern.opensLine, hc]
        rw [hnext, linesFrom]
        split
        · rw [rawLines_eq_cons (c :: rest), List.findSome?_cons, headerName?_takeWhile,
            List.tail_cons]
          cases headerName? (c :: rest) <;> rfl
        · rfl

/-- **THE MATCH OF THE PATTERN** is the word of the first header. -/
theorem capture?_headerPattern (cs : List Char) :
    headerPattern.capture? cs = (rawLines cs).findSome? headerName? :=
  calc (headerPattern.search none cs).bind Pattern.Spot.taken
      = ((headerPattern.search none cs).map Pattern.Spot.taken).bind id := by
        rw [Option.bind_map]
        rfl
    _ = (((rawLines cs).findSome? headerName?).map some).bind id := by
        rw [map_taken_search]
        rfl
    _ = ((rawLines cs).findSome? headerName?).bind some := Option.bind_map
    _ = (rawLines cs).findSome? headerName? := Option.bind_fun_some _

/-- The option is given up when no name follows it, and headers that have none are passed over. -/
example : headerPattern.capture? "##\n## \n## No commits yet on \n## main".toList
    = some "No".toList := by
  rw [capture?_headerPattern]
  decide

/-! ## The branch of a status -/

/-- What the pattern captures is the first word of something. -/
theorem exists_isFirstWord_of_capture? {cs word : List Char}
    (h : headerPattern.capture? cs = some word) : ∃ rest, IsFirstWord rest word := by
  rw [capture?_headerPattern] at h
  obtain ⟨line, -, hline⟩ := List.exists_of_findSome?_eq_some h
  cases headerName?_eq_some_iff.mp hline with
  | unborn _ hword => exact ⟨_, hword⟩
  | plain _ hword => exact ⟨_, hword⟩

/-- The reader makes a branch of the word that the pattern finds. -/
theorem branch?_eq (status : String) :
    branch? status
      = ((headerPattern.capture? status.toList).bind branchOfName).map String.ofList := by
  rw [capture?_headerPattern]
  rfl

/-- The branch of a status is the one that the captured word names. -/
theorem branch?_eq_some_iff {status name : String} :
    branch? status = some name ↔
      ∃ word, headerPattern.capture? status.toList = some word ∧ NamesBranch word name.toList := by
  rw [branch?_eq, Option.map_eq_some_iff]
  constructor
  · rintro ⟨branch, hbranch, rfl⟩
    obtain ⟨word, hword, hname⟩ := Option.bind_eq_some_iff.mp hbranch
    obtain ⟨_, hfirst⟩ := exists_isFirstWord_of_capture? hword
    rw [String.toList_ofList]
    exact ⟨word, hword, (branchOfName_eq_some_iff hfirst.ne_nil).mp hname⟩
  · rintro ⟨word, hword, hname⟩
    obtain ⟨_, hfirst⟩ := exists_isFirstWord_of_capture? hword
    rw [← branchOfName_eq_some_iff hfirst.ne_nil] at hname
    exact ⟨name.toList, Option.bind_eq_some_iff.mpr ⟨word, hword, hname⟩, String.ofList_toList⟩

/-- Without a header there is no match. -/
theorem capture?_eq_none {cs : List Char} (h : ∀ line ∈ cs.splitOn '\n', ¬ IsHeader line) :
    headerPattern.capture? cs = none := by
  rw [capture?_headerPattern, rawLines, Text.split_eq_splitOnP]
  exact List.findSome?_eq_none_iff.mpr fun line hline => headerName?_eq_none_iff.mpr (h line hline)

/-- The first header decides, whatever stands below it. -/
theorem capture?_of_first_header {cs word line : List Char} {earlier later : List (List Char)}
    (hlines : cs.splitOn '\n' = earlier ++ line :: later)
    (hearlier : ∀ other ∈ earlier, ¬ IsHeader other) (hword : IsWordOf line word) :
    headerPattern.capture? cs = some word := by
  rw [capture?_headerPattern, rawLines, Text.split_eq_splitOnP]
  exact List.findSome?_eq_some_iff.mpr ⟨earlier, line, later, hlines,
    headerName?_eq_some_iff.mpr hword, fun other hother =>
      headerName?_eq_none_iff.mpr (hearlier other hother)⟩

/-- **A STATUS NAMES THE BRANCH** that the first match of the header pattern leads to.  Without a
    header line there is no match and no branch.  The first header has one word, and that is what
    matters of it and of the lines below; it names no branch just if it is HEAD or begins with
    dots.  A branch that is named has no gap and no three dots in its name. -/
theorem branch?_matches_header :
    (∀ status name, branch? status = some name ↔ ∃ word,
      headerPattern.capture? status.toList = some word ∧ NamesBranch word name.toList) ∧
    (∀ status, (∀ line ∈ status.toList.splitOn '\n', ¬ IsHeader line) →
      headerPattern.capture? status.toList = none ∧ branch? status = none) ∧
    (∀ line, IsHeader line → ∃ word, (∀ other, IsWordOf line other ↔ other = word) ∧
      ∀ status earlier later, status.toList.splitOn '\n' = earlier ++ line :: later →
        (∀ other ∈ earlier, ¬ IsHeader other) →
        headerPattern.capture? status.toList = some word ∧
        (branch? status = none ↔ word = "HEAD".toList ∨ "...".toList <+: word) ∧
        ∀ name, branch? status = some name ↔ NamesBranch word name.toList) ∧
    ∀ status name, branch? status = some name → name ≠ "" ∧
      (∀ c ∈ name.toList, c ∉ [' ', '\t', '\r', '\n']) ∧ ¬ "...".toList <:+: name.toList := by
  refine ⟨fun _ _ => branch?_eq_some_iff, fun status hno => ?_, fun line hheader => ?_,
    fun status name hname => ?_⟩
  · have hnone := capture?_eq_none hno
    refine ⟨hnone, ?_⟩
    rw [branch?_eq, hnone]
    rfl
  · obtain ⟨word, hword⟩ := Option.ne_none_iff_exists'.mp fun hnone =>
      headerName?_eq_none_iff.mp hnone hheader
    refine ⟨word, fun other => ?_, fun status earlier later hlines hearlier => ?_⟩
    · rw [← headerName?_eq_some_iff, hword, Option.some_inj, eq_comm]
    · have hcapture :=
        capture?_of_first_header hlines hearlier (headerName?_eq_some_iff.mp hword)
      refine ⟨hcapture, ?_, fun name => ?_⟩
      · rw [branch?_eq, hcapture, Option.map_eq_none_iff, Option.bind_some,
          branchOfName_eq_none_iff]
      · rw [branch?_eq_some_iff, hcapture]
        exact ⟨fun ⟨other, hother, hnames⟩ => Option.some.inj hother ▸ hnames,
          fun hnames => ⟨word, rfl, hnames⟩⟩
  · obtain ⟨word, hcapture, hnames⟩ := branch?_eq_some_iff.mp hname
    obtain ⟨_, hfirst⟩ := exists_isFirstWord_of_capture? hcapture
    obtain ⟨hpart, hdots⟩ := hnames.front_part
    refine ⟨fun hempty => hnames.ne_nil (String.toList_eq_nil_iff.mpr hempty), fun c hc => ?_,
      hdots⟩
    exact hfirst.noGap c (hpart.subset hc)

/-- A header that is cut short: behind the wording there is no name, and its first word is one.  A
    header below it does not matter, and in the first line nothing is a header. -/
theorem branch?_matches_short_header :
    let status := "?? ## a\n## No commits yet on \n## main"
    let line := "## No commits yet on ".toList
    IsHeader line ∧ ¬ IsHeader "?? ## a".toList ∧
      status.toList.splitOn '\n' = ["?? ## a".toList] ++ line :: ["## main".toList] ∧
      headerPattern.capture? status.toList = some "No".toList ∧ branch? status = some "No" ∧
      branch? "?? ## a" = none := by
  intro status line
  have hheader : IsHeader line := ⟨'N', "o commits yet on ".toList, by decide, by decide⟩
  have hother : ¬ IsHeader "?? ## a".toList := headerName?_eq_none_iff.mp (by decide)
  have hlines : status.toList.splitOn '\n'
      = ["?? ## a".toList] ++ line :: ["## main".toList] := by decide
  have hnames : NamesBranch "No".toList "No".toList :=
    (branchOfName_eq_some_iff (by decide)).mp (by decide)
  obtain ⟨-, hno, hfirst, -⟩ := branch?_matches_header
  obtain ⟨word, hword, hstatus⟩ := hfirst line hheader
  obtain rfl : "No".toList = word := (hword _).mp (headerName?_eq_some_iff.mp (by decide))
  obtain ⟨hcapture, -, hbranch⟩ := hstatus status ["?? ## a".toList] ["## main".toList] hlines
    (List.forall_mem_singleton.mpr hother)
  refine ⟨hheader, hother, hlines, hcapture, (hbranch "No").mpr hnames, (hno "?? ## a" ?_).2⟩
  rw [show "?? ## a".toList.splitOn '\n' = ["?? ## a".toList] by decide]
  exact List.forall_mem_singleton.mpr hother

end RebasePlan.Head
