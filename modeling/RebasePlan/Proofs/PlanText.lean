import RebasePlan.Proofs.PlanGrammar

/-! # Which plans survive being printed

    A printed rule escapes nothing: what the reader gives a meaning to, the
    printed form cannot hold as an ordinary character.  `Plan.Printable` lists
    what has to be absent, and `Plan.read_text_eq_ok_iff` shows that nothing else
    has to be: these are just the plans that come back from their own text.

    Most of the list holds of every plan that was read (`Plan.Reads.printable`).
    The one accident left is a mark of byte order in front of the first branch,
    which is lost because the file then begins with it. -/

namespace RebasePlan

open Rule (Significant HasSides)
open Text (trim isBlank)

namespace Rule

/-- A text that can stand on one side of an arrow. -/
structure IsSide (cs : List Char) : Prop where
  ne_nil : cs ≠ []
  trimmed : trim cs = cs
  noFeed : '\n' ∉ cs

/-- A text that can stand before an arrow. -/
structure IsBranch (cs : List Char) : Prop extends IsSide cs where
  noArrow : ∀ arrow ∈ [['-', '>'], ['=', '>']], ¬ arrow <:+: cs
  noComment : cs.head? ≠ some '#'

/-- A rule whose text says the same rule. -/
structure Printable (r : Rule) : Prop where
  branch : IsBranch r.branch.toList
  base : IsSide r.base.toList

/-- The printed form of a rule with these sides. -/
def line (left right : List Char) : List Char := left ++ ' ' :: '-' :: '>' :: ' ' :: right

theorem toList_text (r : Rule) : r.text.toList = line r.branch.toList r.base.toList := by
  rw [Rule.text, line, String.toList_append, String.toList_append, List.append_assoc]
  rfl

/-! ## Reading a printed line -/

/-- The arrow of a printed line is the first one if there is none in the branch. -/
theorem cutsAtFirst_line {left : List Char}
    (h : ∀ arrow ∈ [['-', '>'], ['=', '>']], ¬ arrow <:+: left) (right : List Char) :
    Text.CutsAtFirst [['-', '>'], ['=', '>']] (line left right)
      (left ++ [' ']) (' ' :: right) := by
  have hne := separators_uniform.ne_nil
  have hleft : Text.cut separators left = none := (Text.cut_eq_none_iff hne).mpr h
  refine (Text.cut_eq_some_iff separators_uniform).mp ?_
  show Text.cut separators (left ++ ' ' :: '-' :: '>' :: ' ' :: right) = _
  rw [Text.cut_append_barrier hne (blank_not_in_separators rfl), hleft]
  rfl

/-- The sides of a printed line, whatever its first side begins with. -/
theorem eq_trim_of_hasSides_line {left right left' right' : List Char}
    (h : ∀ arrow ∈ [['-', '>'], ['=', '>']], ¬ arrow <:+: left)
    (hsides : HasSides (line left right) left' right') : left' = trim left := by
  obtain ⟨before, after, hcut, rfl, -⟩ := hsides.cut
  obtain ⟨rfl, -⟩ := hcut.unique separators_uniform (cutsAtFirst_line h right)
  exact Text.trim_append_blank Text.blank_space left

/-- The line of a branch and a base has these two sides. -/
theorem hasSides_line {left right : List Char} (hl : IsBranch left) (hr : IsSide right) :
    HasSides (line left right) left right where
  cut := by
    refine ⟨left ++ [' '], ' ' :: right, cutsAtFirst_line hl.noArrow right, ?_, ?_⟩
    · rw [Text.trim_append_blank Text.blank_space, hl.trimmed]
    · rw [← List.singleton_append, Text.trim_blank_append Text.blank_space, hr.trimmed]
  left_ne := hl.ne_nil
  right_ne := hr.ne_nil

theorem significant_line {left : List Char} (h : IsBranch left) (right : List Char) :
    Significant (line left right) := by
  have hne : trim left ≠ [] := h.trimmed.symm ▸ h.ne_nil
  have hhead : (trim (line left right)).head? = left.head? := by
    rw [line, Text.head?_trim_append hne, h.trimmed]
  constructor
  · intro hnil
    rw [hnil] at hhead
    exact h.ne_nil (List.head?_eq_none_iff.mp hhead.symm)
  · rw [hhead]
    exact h.noComment

/-- A printed rule is one line of a file. -/
theorem isLine_line {left right : List Char} (hl : '\n' ∉ left) (hr : IsSide right) :
    Text.IsLine (line left right) where
  ne_nil := List.append_ne_nil_of_right_ne_nil _ (List.cons_ne_nil _ _)
  noFeed := by
    have harrow : '\n' ∉ [' ', '-', '>', ' '] := by decide
    intro h
    rcases List.mem_append.mp h with h | h
    · exact hl h
    · rcases List.mem_append.mp (show '\n' ∈ [' ', '-', '>', ' '] ++ right from h) with h | h
      · exact harrow h
      · exact hr.noFeed h
  noReturn := by
    have hlast := (Text.trim_eq_self_iff.mp hr.trimmed).last
    have heq : (line left right).getLast? = right.getLast? := by
      have hsplit : line left right = (left ++ [' ', '-', '>', ' ']) ++ right := by simp [line]
      rw [hsplit]
      exact List.getLast?_append_of_ne_nil _ hr.ne_nil
    -- a carriage return at the end would be a blank at the end of the right side
    intro hreturn
    rw [heq] at hreturn
    have hblank : isBlank '\r' = false := hlast '\r' hreturn
    exact nomatch hblank

/-! ## What a line that was read can give -/

/-- What is read behind a separator can stand behind an arrow. -/
theorem HasSides.isSide_right {line left right : List Char} (h : HasSides line left right)
    (hline : '\n' ∉ line) : IsSide right := by
  obtain ⟨before, after, hcut, -, rfl⟩ := h.cut
  obtain ⟨arrow, -, hparts⟩ := hcut.occurs
  refine ⟨h.right_ne, Text.trim_trim after, fun hm => hline ?_⟩
  rw [hparts]
  exact List.mem_append_right _ (Text.mem_of_mem_trim hm)

/-- What is read in front of a separator can stand in front of an arrow, if the line counts. -/
theorem HasSides.isBranch_left {line left right : List Char} (h : HasSides line left right)
    (hsig : Significant line) (hline : '\n' ∉ line) : IsBranch left := by
  obtain ⟨before, after, hcut, rfl, -⟩ := h.cut
  obtain ⟨arrow, -, hparts⟩ := hcut.occurs
  refine ⟨⟨h.left_ne, Text.trim_trim before, fun hm => hline ?_⟩, ?_, ?_⟩
  · rw [hparts]
    exact List.mem_append_left _ (List.mem_append_left _ (Text.mem_of_mem_trim hm))
  · -- an arrow in the trimmed part would be one before the cut
    intro a ha hin
    obtain ⟨front, back, -, -, hframe⟩ := Text.exists_frame before
    have hinfix : trim before <:+: before := ⟨front, back, hframe.symm⟩
    exact Text.not_infix_of_cutsAtFirst separators_uniform.ne_nil hcut a ha (hin.trans hinfix)
  · intro hcomment
    refine hsig.2 ?_
    rw [hparts, List.append_assoc, Text.head?_trim_append h.left_ne]
    exact hcomment

end Rule

namespace Plan

/-- A plan whose text tells the same plan: each rule does, a base that is just the chain mark
    stands below a branch of that name, and the text does not begin with a byte order mark. -/
structure Printable (plan : Plan) : Prop where
  rules : ∀ rule ∈ plan, rule.Printable
  marks : ∀ (i : Nat) (rule : Rule), plan[i]? = some rule → rule.base = "^" →
    ∃ j previous, i = j + 1 ∧ plan[j]? = some previous ∧ previous.branch = "^"
  unmarked : ∀ rule ∈ plan.head?, rule.branch.toList.head? ≠ some '\uFEFF'

/-! ## Plans that were read -/

/-- **Each rule that was read can be printed**: its base comes from its own line, or it is a
    branch that did. -/
theorem Reads.printable {above : Option String} {lines : List (List Char)} {plan : Plan}
    (h : Plan.Reads above lines plan) (hlines : ∀ line ∈ lines, '\n' ∉ line)
    (habove : ∀ branch ∈ above, Rule.IsSide branch.toList) :
    ∀ rule ∈ plan, rule.Printable := by
  induction h with
  | done =>
      intro rule hrule
      exact nomatch hrule
  | skip _ _ ih => exact ih (fun l hl => hlines l (List.mem_cons_of_mem _ hl)) habove
  | @rule above line left right base rest plan hsig hsides hbase _ ih =>
      have hline : '\n' ∉ line := hlines line (List.mem_cons_self ..)
      have hbranch : Rule.IsBranch (String.ofList left).toList := by
        rw [String.toList_ofList]
        exact hsides.isBranch_left hsig hline
      intro rule hrule
      rcases List.mem_cons.mp hrule with hrule | hrule
      · rw [hrule]
        refine ⟨hbranch, ?_⟩
        cases hbase with
        | literal _ =>
            rw [String.toList_ofList]
            exact hsides.isSide_right hline
        | mark heq => exact habove base heq
      · refine ih (fun l hl => hlines l (List.mem_cons_of_mem _ hl)) ?_ rule hrule
        intro branch hb
        rw [← Option.some.inj hb]
        exact hbranch.toIsSide

/-- A chain mark in a plan that was read is the name of a branch. -/
theorem IsToldBy.marks {plan : Plan} {significant : List (List Char)}
    (h : plan.IsToldBy significant) {i : Nat} {rule : Rule} (hrule : plan[i]? = some rule)
    (hbase : rule.base = "^") :
    ∃ j previous, i = j + 1 ∧ plan[j]? = some previous ∧ previous.branch = "^" := by
  obtain ⟨hi, -⟩ := List.getElem?_eq_some_iff.mp hrule
  have hline := List.getElem?_eq_getElem (h.length_eq ▸ hi : i < significant.length)
  obtain ⟨left, right, -, -, hliteral, hmark⟩ := h.rule_at i _ rule hline hrule
  by_cases heq : right = ['^']
  · obtain ⟨j, previous, hij, hprevious, hb⟩ := hmark heq
    exact ⟨j, previous, hij, hprevious, hb.symm.trans hbase⟩
  · have htext : String.ofList right = "^" := (hliteral heq).symm.trans hbase
    have hlist := congrArg String.toList htext
    rw [String.toList_ofList] at hlist
    exact absurd hlist heq

/-! ## The text of a plan -/

/-- The printed lines of a plan. -/
def printedLines (plan : Plan) : List (List Char) :=
  plan.map fun r => Rule.line r.branch.toList r.base.toList

theorem toList_text (plan : Plan) :
    plan.text.toList = ['\n'].intercalate plan.printedLines := by
  rw [Plan.text, printedLines, String.toList_intercalate, List.map_map]
  congr 1
  exact List.map_congr_left fun r _ => r.toList_text

theorem isLine_of_mem_printedLines {plan : Plan} (h : ∀ rule ∈ plan, rule.Printable) :
    ∀ line ∈ plan.printedLines, Text.IsLine line := by
  intro line hline
  obtain ⟨r, hr, rfl⟩ := List.mem_map.mp hline
  exact Rule.isLine_line (h r hr).branch.noFeed (h r hr).base

/-- Printed rules are derived from their own lines, if every chain mark among the bases stands
    for the branch above it. -/
theorem reads_printedLines {above : Option String} {plan : Plan}
    (hrules : ∀ rule ∈ plan, rule.Printable)
    (hmarks : ∀ (i : Nat) (rule : Rule), plan[i]? = some rule → rule.base = "^" →
      (above :: plan.map fun r => some r.branch)[i]? = some (some "^")) :
    Plan.Reads above plan.printedLines plan := by
  induction plan generalizing above with
  | nil => exact .done
  | cons r plan ih =>
      have hr := hrules r (List.mem_cons_self ..)
      -- the list of branches seen loses its head, so the hypothesis on marks moves up by one
      have hbelow : Plan.Reads (some r.branch) (printedLines plan) plan :=
        ih (fun q hq => hrules q (List.mem_cons_of_mem _ hq)) (fun i => hmarks (i + 1))
      have hresolves : Rule.Resolves above r.base.toList r.base := by
        by_cases hmark : r.base = "^"
        · have habove := Option.some.inj (hmarks 0 r rfl hmark)
          rw [hmark]
          exact .mark habove
        · have hne : r.base.toList ≠ ['^'] := fun h => hmark (String.toList_inj.mp h)
          have hlit : Rule.Resolves above r.base.toList (String.ofList r.base.toList) :=
            .literal hne
          rw [String.ofList_toList] at hlit
          exact hlit
      rw [← String.ofList_toList (s := r.branch)] at hbelow
      have hrule := Plan.Reads.rule (Rule.significant_line hr.branch r.base.toList)
        (Rule.hasSides_line hr.branch hr.base) hresolves hbelow
      rw [String.ofList_toList] at hrule
      exact hrule

/-- How the text of a plan begins. -/
theorem head?_text {r : Rule} (h : r.branch.toList ≠ []) (plan : Plan) :
    (Plan.text (r :: plan)).toList.head? = r.branch.toList.head? := by
  obtain ⟨c, cs, hc⟩ := List.exists_cons_of_ne_nil h
  have hline : Rule.line r.branch.toList r.base.toList
      = c :: (cs ++ ' ' :: '-' :: '>' :: ' ' :: r.base.toList) := by
    rw [hc]
    rfl
  rw [toList_text, hc]
  show (['\n'].intercalate (Rule.line r.branch.toList r.base.toList :: printedLines plan)).head? = _
  rw [hline, List.intercalate_cons_cons_left]
  rfl

/-- A text that does not begin with a byte order mark is read as its printed lines. -/
theorem read_text_of_printable {plan : Plan} (h : plan.Printable) :
    (Plan.read plan.text).plan = .ok plan := by
  have hunmarked : Text.unmarked plan.text.toList = plan.text.toList := by
    refine if_neg fun hhead => ?_
    cases plan with
    | nil => exact nomatch hhead
    | cons r plan =>
        have hr := h.rules r (List.mem_cons_self ..)
        rw [head?_text hr.branch.ne_nil] at hhead
        exact h.unmarked r rfl hhead
  have hlines : Text.linesAtFeeds plan.text.toList = plan.printedLines := by
    rw [← Text.lines_eq_linesAtFeeds, toList_text]
    exact Text.lines_intercalate (isLine_of_mem_printedLines h.rules)
  rw [Plan.read_eq_ok_iff, hunmarked, hlines]
  refine reads_printedLines h.rules fun i rule hrule hbase => ?_
  obtain ⟨j, previous, rfl, hprevious, hbranch⟩ := h.marks i rule hrule hbase
  rw [List.getElem?_cons_succ, List.getElem?_map, hprevious, Option.map_some, hbranch]

/-- A byte order mark in front of the first branch is lost: the plan does not come back. -/
theorem unmarked_of_read_text {r : Rule} {plan : Plan}
    (hrules : ∀ rule ∈ r :: plan, rule.Printable)
    (h : (Plan.read (Plan.text (r :: plan))).plan = .ok (r :: plan)) :
    r.branch.toList.head? ≠ some '\uFEFF' := by
  intro hhead
  obtain ⟨cs, hcs⟩ := List.head?_eq_some_iff.mp hhead
  have hr := hrules r (List.mem_cons_self ..)
  have hline : Rule.line r.branch.toList r.base.toList
      = '\uFEFF' :: Rule.line cs r.base.toList := by
    rw [hcs]
    rfl
  -- without the mark, the first line begins one character later
  have hbody : Text.unmarked (Plan.text (r :: plan)).toList
      = ['\n'].intercalate (Rule.line cs r.base.toList :: printedLines plan) := by
    rw [toList_text]
    show Text.unmarked (['\n'].intercalate
      (Rule.line r.branch.toList r.base.toList :: printedLines plan)) = _
    rw [hline, List.intercalate_cons_cons_left]
    rfl
  have hfeed : '\n' ∉ cs := by
    intro hm
    refine hr.branch.noFeed ?_
    rw [hcs]
    exact List.mem_cons_of_mem _ hm
  have harrow : ∀ arrow ∈ [['-', '>'], ['=', '>']], ¬ arrow <:+: cs := by
    intro arrow ha hin
    refine hr.branch.noArrow arrow ha ?_
    rw [hcs]
    exact List.infix_cons hin
  have hlines : Text.linesAtFeeds (Text.unmarked (Plan.text (r :: plan)).toList)
      = Rule.line cs r.base.toList :: printedLines plan := by
    rw [hbody, ← Text.lines_eq_linesAtFeeds]
    refine Text.lines_intercalate fun line hl => ?_
    rcases List.mem_cons.mp hl with rfl | hl
    · exact Rule.isLine_line hfeed hr.base
    · exact isLine_of_mem_printedLines (fun q hq => hrules q (List.mem_cons_of_mem _ hq)) line hl
  rw [Plan.read_eq_ok_iff, hlines] at h
  cases h with
  | skip _ hrest =>
      -- one line too few is left for the rules
      have hlen := hrest.length_eq
      have hle := List.length_filter_le (fun l => decide (Significant l)) (printedLines plan)
      rw [printedLines, List.length_map] at hle
      rw [List.length_cons, printedLines] at hlen
      omega
  | @rule _ _ left right base _ _ hsig hsides hbase hrest =>
      have hleft : left = trim cs := Rule.eq_trim_of_hasSides_line harrow hsides
      rw [String.toList_ofList] at hcs
      have hle := Text.length_trim_le cs
      rw [← hleft, hcs, List.length_cons] at hle
      omega

/-- Each rule of a file that was read can be printed. -/
theorem rules_printable_of_read {content : String} {plan : Plan}
    (h : (Plan.read content).plan = .ok plan) : ∀ rule ∈ plan, rule.Printable := by
  refine (Plan.read_eq_ok_iff.mp h).printable (fun line hline => ?_) (fun branch hb => nomatch hb)
  rw [← Text.lines_eq_linesAtFeeds] at hline
  exact Text.feed_not_mem_of_mem_lines hline

/-- Every plan that was read can be printed, but for a byte order mark at its beginning. -/
theorem printable_of_read {content : String} {plan : Plan}
    (h : (Plan.read content).plan = .ok plan)
    (hunmarked : ∀ rule ∈ plan.head?, rule.branch.toList.head? ≠ some '\uFEFF') :
    plan.Printable where
  rules := rules_printable_of_read h
  marks := fun _ _ hrule hbase => (Plan.read_eq_ok_iff.mp h).isToldBy.marks hrule hbase
  unmarked := hunmarked

/-- **PRINTING AND READING** are inverse on just the printable plans; and these are the plans that
    can be read at all, less those that begin with a byte order mark. -/
theorem read_text_eq_ok_iff (plan : Plan) :
    ((Plan.read plan.text).plan = .ok plan ↔ plan.Printable) ∧
    ((Plan.read plan.text).plan = .ok plan ↔
      (∃ content, (Plan.read content).plan = .ok plan) ∧
        ∀ rule ∈ plan.head?, rule.branch.toList.head? ≠ some '\uFEFF') := by
  have hprintable : (Plan.read plan.text).plan = .ok plan → plan.Printable := by
    intro h
    refine printable_of_read h fun rule hrule => ?_
    cases plan with
    | nil => exact nomatch hrule
    | cons r plan =>
        obtain rfl := Option.some.inj hrule
        exact unmarked_of_read_text (rules_printable_of_read h) h
  refine ⟨⟨hprintable, read_text_of_printable⟩, ⟨?_, ?_⟩⟩
  · intro h
    exact ⟨⟨plan.text, h⟩, (hprintable h).unmarked⟩
  · rintro ⟨⟨content, h⟩, hunmarked⟩
    exact read_text_of_printable (printable_of_read h hunmarked)

/-- Hyphens, arrows behind the first one and a branch named like the chain mark do no harm. -/
example : (Plan.read (Plan.text [⟨"a-", "b -> c"⟩, ⟨"^", "#"⟩, ⟨"=", "^"⟩])).plan
    = .ok [⟨"a-", "b -> c"⟩, ⟨"^", "#"⟩, ⟨"=", "^"⟩] := by decide

end Plan

end RebasePlan
