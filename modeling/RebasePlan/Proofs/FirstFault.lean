import RebasePlan.Job
import RebasePlan.Proofs.PlanGrammar

/-! # The reading of a plan stops at its first fault

    A line that counts gives a rule, or there is a fault in it (`Rule.Fault`).
    The lines above the first fault derive a plan in the grammar of plan files,
    and the reader gets just that far: `Plan.Reads.ofLines_append` steps over
    lines that derive a plan, `Reading.ofLines_fault` ends at a fault.  What
    stands below a fault is never looked at.

    What is told while a plan is read are the rules of the lines above, each
    with the number of its line (`Reading.TellsRules`). -/

namespace RebasePlan

open Rule (Significant HasSides)

/-! ## Lines with a fault -/

/-- What is wrong with line number `n`; it is `alone` if no rule stands above it. -/
inductive Rule.Fault (alone : Prop) (n : Nat) (line : List Char) : InputError → Prop where
  /-- There is no separator in the line, or one of its sides is empty. -/
  | noSides : Significant line → (∀ left right, ¬ HasSides line left right) →
      Fault alone n line (.malformedRule n (String.ofList line))
  /-- The line refers to a rule above it, and there is none. -/
  | noRuleAbove {left : List Char} : Significant line → HasSides line left ['^'] → alone →
      Fault alone n line (.danglingMark n (String.ofList line))

theorem Rule.Fault.imp {p q : Prop} {n : Nat} {line : List Char} {e : InputError}
    (h : Fault p n line e) (hpq : p → q) : Fault q n line e := by
  cases h with
  | noSides hsig hno => exact .noSides hsig hno
  | noRuleAbove hsig hsides hp => exact .noRuleAbove hsig hsides (hpq hp)

/-- A line does not count, or it gives a rule below `above`, or it has a fault. -/
theorem Rule.line_cases (above : Option String) (n : Nat) (line : List Char) :
    ¬ Significant line ∨
    (∃ left right base, Significant line ∧ HasSides line left right ∧
      Rule.Resolves above right base) ∨
    ∃ e, Rule.Fault (above = none) n line e := by
  rcases Rule.Line.read_cases line with
    ⟨-, hno⟩ | ⟨-, hsig, hno⟩ | ⟨left, right, -, hsig, hsides⟩
  · exact Or.inl hno
  · exact Or.inr (Or.inr ⟨_, .noSides hsig hno⟩)
  · by_cases hmark : right = ['^']
    · subst hmark
      cases above with
      | none => exact Or.inr (Or.inr ⟨_, .noRuleAbove hsig hsides rfl⟩)
      | some previous => exact Or.inr (Or.inl ⟨left, ['^'], previous, hsig, hsides, .mark rfl⟩)
    · exact Or.inr (Or.inl ⟨left, right, _, hsig, hsides, .literal hmark⟩)

/-! ## One step of the reader -/

namespace Reading

variable {n : Nat} {above : Option String} {line : List Char}

/-- A line that does not count only moves the numbers on. -/
theorem ofLines_skip (h : ¬ Significant line) (rest : List (List Char)) :
    ofLines n above (line :: rest) = ofLines (n + 1) above rest := by
  rcases Rule.Line.read_cases line with ⟨hread, -⟩ | ⟨-, hsig, -⟩ | ⟨left, right, -, hsig, -⟩
  · rw [ofLines, hread]
  · exact absurd hsig h
  · exact absurd hsig h

/-- The reader does not see the lines below a fault. -/
theorem ofLines_fault {e : InputError} (h : Rule.Fault (above = none) n line e)
    (rest : List (List Char)) : ofLines n above (line :: rest) = ⟨[], some e⟩ := by
  cases h with
  | noSides hsig hno =>
      rcases Rule.Line.read_cases line with
        ⟨-, hnot⟩ | ⟨hread, -, -⟩ | ⟨left, right, -, -, hsides⟩
      · exact absurd hsig hnot
      · rw [ofLines, hread]
      · exact absurd hsides (hno left right)
  | noRuleAbove hsig hsides habove =>
      subst habove
      rcases Rule.Line.read_cases line with
        ⟨-, hnot⟩ | ⟨-, -, hno⟩ | ⟨left', right, hread, -, hsides'⟩
      · exact absurd hsig hnot
      · exact absurd hsides (hno _ _)
      · obtain ⟨-, rfl⟩ := hsides.unique hsides'
        rw [ofLines, hread]
        rfl

/-- A line with a rule puts this rule in front, and the lines below stand below its branch. -/
theorem ofLines_rule {left right : List Char} {base : String} (hsig : Significant line)
    (hsides : HasSides line left right) (hbase : Rule.Resolves above right base)
    (rest : List (List Char)) :
    ofLines n above (line :: rest) = prepend ⟨n, ⟨String.ofList left, base⟩⟩
      (ofLines (n + 1) (some (String.ofList left)) rest) := by
  rcases Rule.Line.read_cases line with
    ⟨-, hnot⟩ | ⟨-, -, hno⟩ | ⟨left', right', hread, -, hsides'⟩
  · exact absurd hsig hnot
  · exact absurd hsides (hno left right)
  · obtain ⟨rfl, rfl⟩ := hsides.unique hsides'
    rw [ofLines, hread]
    cases hbase with
    | literal hne =>
        have hchain : ¬ right = Rule.chainMark := hne
        simp only [if_neg hchain]
    | mark habove =>
        subst habove
        rfl

end Reading

/-! ## Lines that derive a plan -/

namespace Plan

/-- The numbers of the lines that count, if the first line is number `n`. -/
def numbersFrom (n : Nat) (lines : List (List Char)) : List Nat :=
  ((lines.zipIdx n).filter fun numbered => Significant numbered.1).map Prod.snd

/-- Rules with the numbers of the lines that they stand on. -/
def numberedFrom (n : Nat) (lines : List (List Char)) (plan : Plan) : List NumberedRule :=
  List.zipWith NumberedRule.mk (numbersFrom n lines) plan

/-- The branch of the last rule, or the one that stands above a plan without rules. -/
def branchBelow (above : Option String) (plan : Plan) : Option String :=
  plan.foldl (fun _ rule => some rule.branch) above

variable {n : Nat} {above : Option String} {line : List Char} {lines : List (List Char)}
  {plan : Plan}

theorem numberedFrom_skip (h : ¬ Significant line) (plan : Plan) :
    numberedFrom n (line :: lines) plan = numberedFrom (n + 1) lines plan := by
  rw [numberedFrom, numbersFrom, List.zipIdx_cons, List.filter_cons_of_neg (by simpa using h)]
  rfl

theorem numberedFrom_rule (h : Significant line) (rule : Rule) (plan : Plan) :
    numberedFrom n (line :: lines) (rule :: plan)
      = ⟨n, rule⟩ :: numberedFrom (n + 1) lines plan := by
  rw [numberedFrom, numbersFrom, List.zipIdx_cons, List.filter_cons_of_pos (by simpa using h)]
  rfl

theorem branchBelow_some_ne_none (branch : String) (plan : Plan) :
    branchBelow (some branch) plan ≠ none := by
  induction plan generalizing branch with
  | nil => exact nofun
  | cons rule plan ih => exact ih rule.branch

theorem branchBelow_eq_none_iff : branchBelow none plan = none ↔ plan = [] := by
  cases plan with
  | nil => exact iff_of_true rfl rfl
  | cons rule plan => exact iff_of_false (branchBelow_some_ne_none rule.branch plan) nofun

/-- Every rule has its number. -/
theorem Reads.map_rule_numberedFrom (h : Reads above lines plan) (n : Nat) :
    (numberedFrom n lines plan).map NumberedRule.rule = plan := by
  induction h generalizing n with
  | done => rfl
  | skip hno _ ih =>
      rw [numberedFrom_skip hno]
      exact ih (n + 1)
  | rule hsig _ _ _ ih => rw [numberedFrom_rule hsig, List.map_cons, ih]

/-- **THE READER STEPS OVER LINES** that derive a plan, and goes on below them. -/
theorem Reads.ofLines_append (h : Reads above lines plan) (n : Nat) (more : List (List Char)) :
    let rest := Reading.ofLines (n + lines.length) (branchBelow above plan) more
    Reading.ofLines n above (lines ++ more)
      = ⟨numberedFrom n lines plan ++ rest.accepted, rest.stop⟩ := by
  induction h generalizing n with
  | done => rfl
  | skip hno _ ih =>
      rw [List.cons_append, Reading.ofLines_skip hno, ih, numberedFrom_skip hno, List.length_cons]
      simp only [Nat.add_assoc, Nat.add_comm 1]
  | rule hsig hsides hbase _ ih =>
      rw [List.cons_append, Reading.ofLines_rule hsig hsides hbase, ih, numberedFrom_rule hsig,
        List.length_cons]
      simp only [Nat.add_assoc, Nat.add_comm 1]
      rfl

/-- Lines derive a plan, or those above a first fault do. -/
theorem reads_or_fault (n : Nat) (above : Option String) (lines : List (List Char)) :
    (∃ plan, Reads above lines plan) ∨
    ∃ earlier line later plan e, lines = earlier ++ line :: later ∧ Reads above earlier plan ∧
      Rule.Fault (branchBelow above plan = none) (n + earlier.length) line e := by
  induction lines generalizing n above with
  | nil => exact Or.inl ⟨[], .done⟩
  | cons line rest ih =>
      rcases Rule.line_cases above n line with
        hno | ⟨left, right, base, hsig, hsides, hbase⟩ | ⟨e, he⟩
      · rcases ih (n + 1) above with ⟨plan, hplan⟩ | ⟨earlier, l, later, plan, e, rfl, hplan, he⟩
        · exact Or.inl ⟨plan, .skip hno hplan⟩
        · refine Or.inr ⟨line :: earlier, l, later, plan, e, rfl, .skip hno hplan, ?_⟩
          rw [List.length_cons, ← Nat.add_assoc, Nat.add_right_comm]
          exact he
      · rcases ih (n + 1) (some (String.ofList left)) with
          ⟨plan, hplan⟩ | ⟨earlier, l, later, plan, e, rfl, hplan, he⟩
        · exact Or.inl ⟨_, .rule hsig hsides hbase hplan⟩
        · refine Or.inr ⟨line :: earlier, l, later, _, e, rfl, .rule hsig hsides hbase hplan, ?_⟩
          rw [List.length_cons, ← Nat.add_assoc, Nat.add_right_comm]
          exact he
      · exact Or.inr ⟨[], line, rest, [], e, rfl, .done, he⟩

end Plan

/-! ## Lines above a line feed -/

namespace Text

/-- A line feed takes a text apart: what stands behind it does not change the lines in front. -/
theorem linesAtFeeds_append (front rest : List Char) :
    linesAtFeeds (front ++ '\n' :: rest)
      = linesAtFeeds (front ++ ['\n']) ++ linesAtFeeds rest := by
  induction front using feed_induction with
  | last front h =>
      rw [linesAtFeeds_append_feed h, linesAtFeeds_append_feed h]
      rfl
  | feed piece front h ih =>
      rw [List.append_assoc, List.append_assoc, List.cons_append, List.cons_append,
        linesAtFeeds_append_feed h, linesAtFeeds_append_feed h, ih, List.cons_append]

/-- Line feed number `n` ends line number `n`. -/
theorem length_linesAtFeeds (front : List Char) :
    (linesAtFeeds (front ++ ['\n'])).length = front.count '\n' + 1 := by
  induction front using feed_induction with
  | last front h =>
      rw [linesAtFeeds_append_feed h, List.count_eq_zero_of_not_mem h]
      rfl
  | feed piece front h ih =>
      rw [List.append_assoc, List.cons_append, linesAtFeeds_append_feed h, List.length_cons, ih,
        List.count_append, List.count_eq_zero_of_not_mem h, List.count_cons_self]
      omega

/-- The mark stands in front of a text, so it is taken off the first of its lines. -/
theorem unmarked_append_feed (front rest : List Char) :
    unmarked (front ++ '\n' :: rest) = unmarked front ++ '\n' :: rest := by
  cases front with
  | nil => rfl
  | cons c front =>
      rw [unmarked, unmarked, List.cons_append, List.head?_cons, List.head?_cons]
      split <;> rfl

/-- The mark is no line feed, so the numbers of the lines stay as they are without it. -/
theorem count_unmarked (front : List Char) : (unmarked front).count '\n' = front.count '\n' := by
  rw [unmarked]
  split
  · next hmark =>
    obtain ⟨rest, rfl⟩ := List.head?_eq_some_iff.mp hmark
    rw [List.tail_cons, List.count_cons_of_ne (by decide)]
  · rfl

end Text

/-! ## Whole files -/

namespace Plan

/-- Where the reading of a file stops: the lines above tell a plan, and the next line has a fault.
    -/
structure StopsAt (content : String) (earlier : List (List Char)) (line : List Char) (plan : Plan)
    (e : InputError) : Prop where
  lines_eq : ∃ later, Text.linesAtFeeds (Text.unmarked content.toList) = earlier ++ line :: later
  told : plan.IsToldBy (earlier.filter (Significant ·))
  fault : Rule.Fault (plan = []) (earlier.length + 1) line e

/-- Lines that tell a plan derive it. -/
theorem IsToldBy.reads {lines : List (List Char)} {plan : Plan}
    (h : plan.IsToldBy (lines.filter (Significant ·))) : Reads none lines plan := by
  obtain ⟨plan', hplan'⟩ := @exists_reads none lines h.acceptable.sides fun _ => h.acceptable.first
  rw [h.unique hplan'.isToldBy]
  exact hplan'

theorem read_eq (content : String) :
    read content = Reading.ofLines 1 none (Text.linesAtFeeds (Text.unmarked content.toList)) := by
  rw [read, Text.lines_eq_linesAtFeeds, Text.withoutMark_eq_unmarked]

/-- A file that derives a plan is read to its end. -/
theorem read_of_reads {content : String} {plan : Plan}
    (h : Reads none (Text.linesAtFeeds (Text.unmarked content.toList)) plan) :
    read content =
      ⟨numberedFrom 1 (Text.linesAtFeeds (Text.unmarked content.toList)) plan, none⟩ := by
  have hread := h.ofLines_append 1 []
  rw [List.append_nil] at hread
  rw [read_eq, hread]
  exact congrArg (Reading.mk · none) (List.append_nil _)

namespace StopsAt

variable {content : String} {earlier : List (List Char)} {line : List Char} {plan : Plan}
  {e : InputError}

/-- **WHAT IS READ** are the rules above the fault. -/
theorem read_eq (h : StopsAt content earlier line plan e) :
    read content = ⟨numberedFrom 1 earlier plan, some e⟩ := by
  obtain ⟨later, hlines⟩ := h.lines_eq
  have hfault : Rule.Fault (branchBelow none plan = none) (1 + earlier.length) line e := by
    rw [Nat.add_comm]
    exact h.fault.imp branchBelow_eq_none_iff.mpr
  rw [Plan.read_eq, hlines, h.told.reads.ofLines_append, Reading.ofLines_fault hfault,
    List.append_nil]

/-- What stands below the line with the fault may be anything. -/
theorem of_same_front (h : StopsAt content earlier line plan e) {front rest : List Char}
    (hcontent : content.toList = front ++ '\n' :: rest)
    (hfront : front.count '\n' = earlier.length) (more : List Char) :
    StopsAt (String.ofList (front ++ '\n' :: more)) earlier line plan e := by
  obtain ⟨later, hlines⟩ := h.lines_eq
  -- the line feed ends the line with the fault, so the lines in front of it are known
  have hlines' : Text.linesAtFeeds (Text.unmarked front ++ ['\n']) = earlier ++ [line] := by
    rw [hcontent, Text.unmarked_append_feed, Text.linesAtFeeds_append,
      List.append_cons earlier line later] at hlines
    refine (List.append_inj hlines ?_).1
    rw [Text.length_linesAtFeeds, Text.count_unmarked, hfront, List.length_append,
      List.length_singleton]
  refine ⟨⟨Text.linesAtFeeds more, ?_⟩, h.told, h.fault⟩
  rw [String.toList_ofList, Text.unmarked_append_feed, Text.linesAtFeeds_append, hlines',
    List.append_assoc]
  rfl

end StopsAt

/-- A file that is not read to its end stops at a fault. -/
theorem exists_stopsAt {content : String} {e : InputError} (h : (read content).plan = .error e) :
    ∃ earlier line plan, StopsAt content earlier line plan e := by
  rcases reads_or_fault 1 none (Text.linesAtFeeds (Text.unmarked content.toList)) with
    ⟨plan, hplan⟩ | ⟨earlier, line, later, plan, e', hlines, hplan, hfault⟩
  · rw [read_of_reads hplan] at h
    exact nomatch h
  · rw [Nat.add_comm] at hfault
    have hstops : StopsAt content earlier line plan e' :=
      ⟨⟨later, hlines⟩, hplan.isToldBy, hfault.imp branchBelow_eq_none_iff.mp⟩
    rw [hstops.read_eq] at h
    obtain rfl := Except.error.inj h
    exact ⟨earlier, line, plan, hstops⟩

end Plan

/-- The events of a reading tell the rules of a plan and nothing else: one event for each rule, with
    the number of the line that the rule stands on. -/
structure Reading.TellsRules (reading : Reading) (lines : List (List Char)) (plan : Plan) :
    Prop where
  events : reading.events =
    (Plan.numberedFrom 1 lines plan).map fun told => .ruleRead told.line told.rule
  all : (Plan.numberedFrom 1 lines plan).map NumberedRule.rule = plan
  shown : reading.events.map (fun event => (event.severity, event.message, event.fields)) =
    (Plan.numberedFrom 1 lines plan).map fun told => (.info, "rule", [("line", .number told.line),
      ("from", .quoted told.rule.branch), ("onto", .plain told.rule.base)])

/-- A reading of lines that tell a plan tells its rules, wherever it stops. -/
theorem Reading.tellsRules {lines : List (List Char)} {plan : Plan}
    (h : Plan.Reads none lines plan) (stop : Option InputError) :
    Reading.TellsRules ⟨Plan.numberedFrom 1 lines plan, stop⟩ lines plan where
  events := rfl
  all := h.map_rule_numberedFrom 1
  shown := List.map_map

/-- **THE FIRST FAULT ENDS THE READING**, and the error tells of it.  Nothing below it matters, and
    what is told are the rules above it; they are all rules of the file if there is no fault. -/
theorem Plan.read_stops_at_first_fault (content : String) :
    (∀ e, (Plan.read content).plan = .error e ↔
      ∃ earlier line plan, Plan.StopsAt content earlier line plan e) ∧
    (∀ earlier line plan e, Plan.StopsAt content earlier line plan e →
      (Plan.read content).TellsRules earlier plan ∧
      ∀ front rest more, content.toList = front ++ '\n' :: rest →
        front.count '\n' = earlier.length →
        let other := Plan.read (String.ofList (front ++ '\n' :: more))
        other.plan = .error e ∧ other.events = (Plan.read content).events) ∧
    ∀ plan, (Plan.read content).plan = .ok plan →
      (Plan.read content).TellsRules (Text.linesAtFeeds (Text.unmarked content.toList)) plan := by
  refine ⟨fun e => ⟨Plan.exists_stopsAt, ?_⟩, ?_, ?_⟩
  · rintro ⟨earlier, line, plan, hstops⟩
    rw [hstops.read_eq]
    rfl
  · intro earlier line plan e hstops
    refine ⟨?_, ?_⟩
    · rw [hstops.read_eq]
      exact Reading.tellsRules hstops.told.reads (some e)
    · intro front rest more hcontent hfront other
      have hother : other = Plan.read content := by
        rw [hstops.read_eq]
        exact (hstops.of_same_front hcontent hfront more).read_eq
      rw [hother]
      exact ⟨by rw [hstops.read_eq]; rfl, rfl⟩
  · intro plan hplan
    have hreads := Plan.read_eq_ok_iff.mp hplan
    rw [Plan.read_of_reads hreads]
    exact Reading.tellsRules hreads none

/-- A line without a separator under a rule and an empty line, and another text below it. -/
theorem Plan.read_stops_at_broken_line :
    let content := "a -> b\n\nbroken line\r\nlater -> ^"
    let earlier := ["a -> b".toList, []]
    let e := InputError.malformedRule 3 "broken line"
    Plan.StopsAt content earlier "broken line".toList [⟨"a", "b"⟩] e ∧
      (Plan.read content).TellsRules earlier [⟨"a", "b"⟩] ∧
      (Plan.read "a -> b\n\nbroken line\r\n^ -> ").plan = .error e := by
  intro content earlier e
  have hread : (Plan.read "a -> b\n\n").plan = .ok [⟨"a", "b"⟩] := by decide
  have hreads : Plan.Reads none earlier [⟨"a", "b"⟩] := Plan.read_eq_ok_iff.mp hread
  have hstops : Plan.StopsAt content earlier "broken line".toList [⟨"a", "b"⟩] e := by
    refine ⟨⟨["later -> ^".toList], by decide⟩, hreads.isToldBy, .noSides (by decide) ?_⟩
    intro left right hsides
    exact nomatch Rule.sides_eq_some_iff.mpr hsides
  obtain ⟨htold, hother⟩ := (Plan.read_stops_at_first_fault content).2.1 _ _ _ _ hstops
  exact ⟨hstops, htold,
    (hother "a -> b\n\nbroken line\r".toList "later -> ^".toList "^ -> ".toList (by decide)
      (by decide)).1⟩

/-- The number counts every line, and the text of the line keeps its blanks. -/
example : (Plan.read "\uFEFF\n# stack\n\t^=> ^ ").plan = .error (.danglingMark 3 "\t^=> ^ ") := by
  decide

end RebasePlan
