import RebasePlan.Proofs.FirstFault

/-! # Plan files one below the other

    A file is read line by line, and what the reader takes from the lines above is
    the branch of the last rule and the number of the line.  So the text below a
    complete file is read as it would be alone, with two differences: its lines
    are numbered from where the file ends (`Reading.ofLines_add`), and a chain
    mark in its first rule has a rule to refer to (`Plan.Reads.of_none`,
    `Plan.readBelow_of_danglingMark`). -/

namespace RebasePlan

open Rule (Significant HasSides)

/-! ## Further down the file -/

/-- The same error, `n` lines further down. -/
def InputError.lowered (n : Nat) : InputError → InputError
  | malformedRule line text => malformedRule (n + line) text
  | danglingMark line text => danglingMark (n + line) text
  | e => e

/-- The same reading, `n` lines further down. -/
def Reading.lowered (n : Nat) (r : Reading) : Reading where
  accepted := r.accepted.map fun told => ⟨n + told.line, told.rule⟩
  stop := r.stop.map (InputError.lowered n)

theorem Rule.Fault.lowered {alone : Prop} {m : Nat} {line : List Char} {e : InputError}
    (h : Fault alone m line e) (n : Nat) : Fault alone (n + m) line (e.lowered n) := by
  cases h with
  | noSides hsig hno => exact .noSides hsig hno
  | noRuleAbove hsig hsides halone => exact .noRuleAbove hsig hsides halone

namespace Reading

/-- **COUNTING FROM FURTHER DOWN** changes the numbers and nothing else. -/
theorem ofLines_add (n m : Nat) (above : Option String) (lines : List (List Char)) :
    ofLines (n + m) above lines = (ofLines m above lines).lowered n := by
  induction lines generalizing m above with
  | nil => rfl
  | cons line rest ih =>
      rcases Rule.line_cases above m line with
        hno | ⟨left, right, base, hsig, hsides, hbase⟩ | ⟨e, he⟩
      · rw [ofLines_skip hno, ofLines_skip hno]
        exact ih (m + 1) above
      · rw [ofLines_rule hsig hsides hbase, ofLines_rule hsig hsides hbase, Nat.add_assoc, ih]
        rfl
      · rw [ofLines_fault he, ofLines_fault (he.lowered n)]
        rfl

theorem plan_lowered (n : Nat) (r : Reading) :
    (r.lowered n).plan = r.plan.mapError (InputError.lowered n) := by
  obtain ⟨accepted, stop⟩ := r
  cases stop with
  | none =>
      show Except.ok ((accepted.map _).map NumberedRule.rule) = Except.ok _
      rw [List.map_map]
      rfl
  | some e => rfl

theorem plan_eq_error_iff {r : Reading} {e : InputError} : r.plan = .error e ↔ r.stop = some e := by
  obtain ⟨accepted, stop⟩ := r
  cases stop with
  | none => exact iff_of_false nofun nofun
  | some found => exact Except.error.injEq found e ▸ Option.some_inj.symm

/-- Rules in front of a reading stand in front of its plan. -/
theorem plan_append (front : List NumberedRule) (rest : Reading) :
    plan ⟨front ++ rest.accepted, rest.stop⟩
      = rest.plan.map (front.map NumberedRule.rule ++ ·) := by
  obtain ⟨accepted, stop⟩ := rest
  cases stop with
  | none => exact congrArg Except.ok List.map_append
  | some e => rfl

/-- Below a rule every chain mark has something to stand for. -/
theorem stop_ofLines_below (n : Nat) (branch : String) (lines : List (List Char)) (k : Nat)
    (text : String) : (ofLines n (some branch) lines).stop ≠ some (.danglingMark k text) := by
  rcases Plan.reads_or_fault n (some branch) lines with
    ⟨plan, hplan⟩ | ⟨earlier, line, later, plan, e, rfl, hplan, hfault⟩
  · have hread := hplan.ofLines_append n []
    rw [List.append_nil] at hread
    rw [hread]
    exact nofun
  · rw [hplan.ofLines_append, ofLines_fault hfault]
    intro h
    obtain rfl := Option.some.inj h
    cases hfault with
    | noRuleAbove _ _ hnone => exact Plan.branchBelow_some_ne_none branch plan hnone

end Reading

/-! ## Below a rule -/

namespace Plan

/-- Reads the text of a plan file below a rule with branch `above`. -/
def readBelow (above : Option String) (content : String) : Reading :=
  Reading.ofLines 1 above (Text.lines (Text.withoutMark content.toList))

theorem readBelow_eq (above : Option String) (content : String) :
    readBelow above content
      = Reading.ofLines 1 above (Text.linesAtFeeds (Text.unmarked content.toList)) := by
  rw [readBelow, Text.lines_eq_linesAtFeeds, Text.withoutMark_eq_unmarked]

/-- Lines that tell a plan by themselves tell the same plan below any rule. -/
theorem Reads.of_none {lines : List (List Char)} {plan : Plan} (h : Reads none lines plan)
    (above : Option String) : Reads above lines plan := by
  induction lines generalizing plan with
  | nil =>
      cases h
      exact .done
  | cons line rest ih =>
      cases h with
      | skip hno hrest => exact .skip hno (ih hrest)
      | rule hsig hsides hbase hrest =>
          -- the first rule does without the one above it, and the others never see that one
          refine .rule hsig hsides ?_ hrest
          cases hbase with
          | literal hne => exact .literal hne
          | mark hnone => exact nomatch hnone

variable {content : String} {above : Option String}

/-- A plan that stands by itself is the same plan below any other. -/
theorem readBelow_of_ok {plan : Plan} (h : (read content).plan = .ok plan)
    (above : Option String) : (readBelow above content).plan = .ok plan := by
  rw [readBelow_eq, Reading.ofLines_plan_eq_ok_iff]
  exact (read_eq_ok_iff.mp h).of_none above

/-- A line without sides is wrong below any rule. -/
theorem readBelow_of_malformedRule {k : Nat} {text : String}
    (h : (read content).plan = .error (.malformedRule k text)) (above : Option String) :
    (readBelow above content).plan = .error (.malformedRule k text) := by
  obtain ⟨earlier, line, plan, ⟨⟨later, hlines⟩, htold, hfault⟩⟩ := exists_stopsAt h
  have hfault' : Rule.Fault (branchBelow above plan = none) (1 + earlier.length) line
      (.malformedRule k text) := by
    rw [Nat.add_comm]
    cases hfault with
    | noSides hsig hno => exact .noSides hsig hno
  rw [readBelow_eq, hlines, (htold.reads.of_none above).ofLines_append,
    Reading.ofLines_fault hfault']
  rfl

/-- **A CHAIN MARK WITH NO RULE ABOVE IT** refers to the rule that the text is put below. -/
theorem readBelow_of_danglingMark {k : Nat} {text : String}
    (h : (read content).plan = .error (.danglingMark k text)) (branch : String) :
    ∃ left, HasSides text.toList left ['^'] ∧
      (readBelow (some branch) content).accepted.head?
        = some ⟨k, ⟨String.ofList left, branch⟩⟩ := by
  obtain ⟨earlier, line, plan, ⟨⟨later, hlines⟩, htold, hfault⟩⟩ := exists_stopsAt h
  cases hfault with
  | @noRuleAbove left hsig hsides hnil =>
      subst hnil
      refine ⟨left, by rwa [String.toList_ofList], ?_⟩
      have hbelow : branchBelow (some branch) [] = some branch := rfl
      rw [readBelow_eq, hlines, (htold.reads.of_none (some branch)).ofLines_append, hbelow,
        Reading.ofLines_rule hsig hsides (.mark rfl), Nat.add_comm]
      simp [numberedFrom, Reading.prepend]

/-! ## Two files -/

/-- The lines of two texts, if the first one ends with a line feed. -/
theorem lines_append {a b : String} (ha : a.toList.getLast? = some '\n')
    (hb : b.toList.head? ≠ some '\uFEFF') :
    Text.linesAtFeeds (Text.unmarked (a ++ b).toList)
      = Text.linesAtFeeds (Text.unmarked a.toList) ++ Text.linesAtFeeds (Text.unmarked b.toList) ∧
    (Text.linesAtFeeds (Text.unmarked a.toList)).length = a.toList.count '\n' := by
  obtain ⟨front, hfront⟩ := List.getLast?_eq_some_iff.mp ha
  have hunmarked : Text.unmarked b.toList = b.toList := if_neg hb
  constructor
  · rw [String.toList_append, hfront, hunmarked, List.append_assoc, List.singleton_append,
      Text.unmarked_append_feed, Text.unmarked_append_feed, Text.linesAtFeeds_append]
  · rw [hfront, Text.unmarked_append_feed, Text.length_linesAtFeeds, Text.count_unmarked,
      List.count_append, List.count_singleton_self]

/-- The branch that a text below a plan sees is that of the last rule. -/
theorem branchBelow_concat (above : Option String) (plan : Plan) (last : Rule) :
    branchBelow above (plan ++ [last]) = some last.branch := by
  rw [branchBelow, List.foldl_append]
  rfl

/-- **A TEXT BELOW A FILE** goes on with the plan of the file. -/
theorem read_append_of_ok {a b : String} (ha : a.toList.getLast? = some '\n')
    (hb : b.toList.head? ≠ some '\uFEFF') {plan : Plan} (h : (read a).plan = .ok plan) :
    (read (a ++ b)).plan
      = ((readBelow (branchBelow none plan) b).plan.mapError
          (InputError.lowered (a.toList.count '\n'))).map (plan ++ ·) := by
  obtain ⟨hlines, hlength⟩ := lines_append ha hb
  have hreads := read_eq_ok_iff.mp h
  rw [read_eq, hlines, hreads.ofLines_append, hlength, Nat.add_comm, Reading.ofLines_add,
    ← readBelow_eq, Reading.plan_append, hreads.map_rule_numberedFrom, Reading.plan_lowered]

/-- A fault in the first file is the fault of both files joined. -/
theorem read_append_of_error {a b : String} (ha : a.toList.getLast? = some '\n')
    (hb : b.toList.head? ≠ some '\uFEFF') {e : InputError} (h : (read a).plan = .error e) :
    (read (a ++ b)).plan = .error e := by
  obtain ⟨earlier, line, plan, ⟨⟨later, hlater⟩, htold, hfault⟩⟩ := exists_stopsAt h
  have hstops : StopsAt (a ++ b) earlier line plan e := by
    refine ⟨⟨later ++ Text.linesAtFeeds (Text.unmarked b.toList), ?_⟩, htold, hfault⟩
    rw [(lines_append ha hb).1, hlater, List.append_assoc]
    rfl
  rw [hstops.read_eq]
  rfl

/-- **FILES ONE BELOW THE OTHER** are read as one plan.  An error of the upper text stays.  Below a
    text without rules the lower text is read as it would be alone; below rules it is too, except
    that a chain mark with no rule above it, which is an error when the text stands alone, now
    stands for the branch of the last rule.  Errors of the lower text are found further down. -/
theorem read_joined {a b : String} (ha : a.toList.getLast? = some '\n')
    (hb : b.toList.head? ≠ some '\uFEFF') :
    (∀ e, (read a).plan = .error e → (read (a ++ b)).plan = .error e) ∧
    let n := a.toList.count '\n'
    ((read a).plan = .ok [] →
      (read (a ++ b)).plan = (read b).plan.mapError (InputError.lowered n)) ∧
    ∀ plan last, (read a).plan = .ok (plan ++ [last]) →
      (∀ more, (read b).plan = .ok more → (read (a ++ b)).plan = .ok (plan ++ [last] ++ more)) ∧
      (∀ k text, (read b).plan = .error (.malformedRule k text) →
        (read (a ++ b)).plan = .error (.malformedRule (n + k) text)) ∧
      ∀ k text, (read b).plan = .error (.danglingMark k text) →
        let below := readBelow (some last.branch) b
        (∃ left, HasSides text.toList left ['^'] ∧
          below.accepted.head? = some ⟨k, ⟨String.ofList left, last.branch⟩⟩) ∧
        (∀ k' text', below.plan ≠ .error (.danglingMark k' text')) ∧
        (read (a ++ b)).plan
          = (below.plan.mapError (InputError.lowered n)).map (plan ++ [last] ++ ·) := by
  refine ⟨fun e => read_append_of_error ha hb, ?_⟩
  intro n
  refine ⟨fun h => ?_, fun plan last h => ?_⟩
  · rw [read_append_of_ok ha hb h]
    show ((read b).plan.mapError (InputError.lowered n)).map id = _
    cases (read b).plan with
    | error e => rfl
    | ok more => rfl
  · have hjoined := read_append_of_ok ha hb h
    rw [branchBelow_concat] at hjoined
    refine ⟨fun more hmore => ?_, fun k text hmalformed => ?_, fun k text hdangling => ?_⟩
    · rw [hjoined, readBelow_of_ok hmore]
      rfl
    · rw [hjoined, readBelow_of_malformedRule hmalformed]
      rfl
    · refine ⟨readBelow_of_danglingMark hdangling last.branch, fun k' text' hdangling' => ?_,
        hjoined⟩
      have hstop := Reading.stop_ofLines_below 1 last.branch
        (Text.lines (Text.withoutMark b.toList)) k' text'
      exact hstop (Reading.plan_eq_error_iff.mp hdangling')

/-- Below a comment and a rule, a chain mark that stood alone refers to that rule, and the fault
    that it hid comes to light. -/
theorem read_joined_at_mark :
    let a := "# stack\na -> main\n"
    let b := "\nnext => ^\nbroken"
    a.toList.getLast? = some '\n' ∧ b.toList.head? ≠ some '\uFEFF' ∧
      (read a).plan = .ok ([] ++ [⟨"a", "main"⟩]) ∧
      (read b).plan = .error (.danglingMark 2 "next => ^") ∧
      (read (a ++ b)).plan = .error (.malformedRule 5 "broken") := by
  intro a b
  have ha : a.toList.getLast? = some '\n' := by decide
  have hb : b.toList.head? ≠ some '\uFEFF' := by decide
  have hupper : (read a).plan = .ok ([] ++ [⟨"a", "main"⟩]) := by decide
  have hlower : (read b).plan = .error (.danglingMark 2 "next => ^") := by decide
  obtain ⟨-, -, hrules⟩ := read_joined ha hb
  obtain ⟨-, -, hmark⟩ := hrules [] ⟨"a", "main"⟩ hupper
  obtain ⟨-, -, hjoined⟩ := hmark 2 "next => ^" hlower
  refine ⟨ha, hb, hupper, hlower, ?_⟩
  rw [hjoined]
  decide

end Plan

end RebasePlan
