import RebasePlan.Proofs.Lines
import RebasePlan.Proofs.RuleLine

/-! # The grammar of plan files

    `Plan.Reads` derives a plan from lines, one rule of derivation for the end
    of the file, one for a line that does not count and one for a line that
    does; the branch of the rule above is handed down.  The reader succeeds just
    where there is a derivation (`ofLines_plan_eq_ok_iff`), so every property of
    accepted files is an induction over `Plan.Reads`.

    `Plan.read_follows_grammar` puts the outcome in terms of the file: which files
    are accepted, and which rules they then hold. -/

namespace RebasePlan

open Rule (Significant HasSides)

attribute [ext] Rule

/-- What the right side of a line stands for under a rule with branch `above`. -/
inductive Rule.Resolves (above : Option String) : List Char → String → Prop where
  /-- A base in its own words. -/
  | literal {right : List Char} : right ≠ ['^'] → Resolves above right (String.ofList right)
  /-- The chain mark stands for the branch of the rule above. -/
  | mark {base : String} : above = some base → Resolves above ['^'] base

/-- The lines tell the plan, below a rule with branch `above`. -/
inductive Plan.Reads : Option String → List (List Char) → Plan → Prop where
  /-- The file is at its end. -/
  | done {above : Option String} : Reads above [] []
  /-- A line that does not count. -/
  | skip {above : Option String} {line : List Char} {rest : List (List Char)} {plan : Plan} :
      ¬ Significant line → Reads above rest plan → Reads above (line :: rest) plan
  /-- A line with a rule on it, which the next line sees above itself. -/
  | rule {above : Option String} {line left right : List Char} {base : String}
      {rest : List (List Char)} {plan : Plan} :
      Significant line → HasSides line left right → Rule.Resolves above right base →
      Reads (some (String.ofList left)) rest plan →
      Reads above (line :: rest) (⟨String.ofList left, base⟩ :: plan)

/-! ## The reader and the derivations -/

theorem Reading.plan_prepend_eq_ok_iff {n : NumberedRule} {rest : Reading} {plan : Plan} :
    (Reading.prepend n rest).plan = .ok plan ↔
      ∃ tail, rest.plan = .ok tail ∧ plan = n.rule :: tail := by
  obtain ⟨accepted, stop⟩ := rest
  cases stop with
  | none =>
      show Except.ok (n.rule :: accepted.map NumberedRule.rule) = Except.ok plan ↔ _
      constructor
      · intro h
        exact ⟨_, rfl, (Except.ok.inj h).symm⟩
      · rintro ⟨tail, htail, rfl⟩
        rw [← Except.ok.inj htail]
  | some e =>
      constructor
      · intro h
        exact nomatch h
      · rintro ⟨tail, htail, -⟩
        exact nomatch htail

/-- A line that does not count can only be skipped. -/
theorem Plan.reads_skip_iff {above : Option String} {line : List Char}
    {rest : List (List Char)} {plan : Plan} (h : ¬ Significant line) :
    Plan.Reads above (line :: rest) plan ↔ Plan.Reads above rest plan := by
  constructor
  · intro hr
    cases hr with
    | skip _ hrest => exact hrest
    | rule hsig => exact absurd hsig h
  · exact Plan.Reads.skip h

/-- A line that counts gives one rule. -/
theorem Plan.reads_rule_iff {above : Option String} {line left right : List Char}
    {rest : List (List Char)} {plan : Plan} (h : Significant line)
    (hsides : HasSides line left right) :
    Plan.Reads above (line :: rest) plan ↔
      ∃ base tail, Rule.Resolves above right base ∧
        Plan.Reads (some (String.ofList left)) rest tail ∧
        plan = ⟨String.ofList left, base⟩ :: tail := by
  constructor
  · intro hr
    cases hr with
    | skip hno _ => exact absurd h hno
    | rule _ hsides' hbase hrest =>
        obtain ⟨rfl, rfl⟩ := hsides.unique hsides'
        exact ⟨_, _, hbase, hrest, rfl⟩
  · rintro ⟨base, tail, hbase, hrest, rfl⟩
    exact Plan.Reads.rule h hsides hbase hrest

/-- A line with a rule on it: the reader resolves its base and goes on below its branch. -/
theorem Reading.ofLines_rule_eq_ok_iff {n : Nat} {above : Option String}
    {line left right : List Char} {rest : List (List Char)} {plan : Plan}
    (hread : Rule.Line.read line = .rule left right) :
    (Reading.ofLines n above (line :: rest)).plan = .ok plan ↔
      ∃ base tail, Rule.Resolves above right base ∧
        (Reading.ofLines (n + 1) (some (String.ofList left)) rest).plan = .ok tail ∧
        plan = ⟨String.ofList left, base⟩ :: tail := by
  rw [Reading.ofLines, hread]
  by_cases hmark : right = ['^']
  · subst hmark
    cases above with
    | none =>
        constructor
        · intro h
          exact nomatch h
        · rintro ⟨base, tail, hbase, -, -⟩
          cases hbase with
          | literal hne => exact absurd rfl hne
          | mark habove => exact nomatch habove
    | some previous =>
        show (Reading.prepend _ _).plan = .ok plan ↔ _
        rw [Reading.plan_prepend_eq_ok_iff]
        constructor
        · rintro ⟨tail, htail, rfl⟩
          exact ⟨previous, tail, .mark rfl, htail, rfl⟩
        · rintro ⟨base, tail, hbase, htail, rfl⟩
          cases hbase with
          | literal hne => exact absurd rfl hne
          | mark habove =>
              rw [Option.some.inj habove]
              exact ⟨tail, htail, rfl⟩
  · have hchain : ¬ right = Rule.chainMark := hmark
    simp only [if_neg hchain]
    rw [Reading.plan_prepend_eq_ok_iff]
    constructor
    · rintro ⟨tail, htail, rfl⟩
      exact ⟨_, tail, .literal hmark, htail, rfl⟩
    · rintro ⟨base, tail, hbase, htail, rfl⟩
      cases hbase with
      | literal _ => exact ⟨tail, htail, rfl⟩
      | mark _ => exact absurd rfl hmark

/-- **THE READER FOLLOWS THE GRAMMAR**, whatever stands above and wherever it begins to count. -/
theorem Reading.ofLines_plan_eq_ok_iff {n : Nat} {above : Option String}
    {lines : List (List Char)} {plan : Plan} :
    (Reading.ofLines n above lines).plan = .ok plan ↔ Plan.Reads above lines plan := by
  induction lines generalizing n above plan with
  | nil =>
      constructor
      · intro h
        rw [← Except.ok.inj h]
        exact Plan.Reads.done
      · intro h
        cases h
        rfl
  | cons line rest ih =>
      rcases Rule.Line.read_cases line with
        ⟨hread, hno⟩ | ⟨hread, hsig, hno⟩ | ⟨left, right, hread, hsig, hsides⟩
      · rw [Reading.ofLines, hread, Plan.reads_skip_iff hno]
        exact ih
      · rw [Reading.ofLines, hread]
        constructor
        · intro h
          exact nomatch h
        · intro h
          cases h with
          | skip hnot _ => exact absurd hsig hnot
          | rule _ hsides => exact absurd hsides (hno _ _)
      · rw [Reading.ofLines_rule_eq_ok_iff hread, Plan.reads_rule_iff hsig hsides]
        simp only [ih]

/-! ## Accepted files -/

/-- Lines that make up a plan: each has two sides, and the first one does not refer to a rule
    above it. -/
structure Plan.Acceptable (significant : List (List Char)) : Prop where
  sides : ∀ line ∈ significant, ∃ left right, HasSides line left right
  first : ∀ line ∈ significant.head?, ∀ left, ¬ HasSides line left ['^']

/-- The rules that lines stand for: one a line, in their order.  A base is what the right side
    says, except that the chain mark alone stands for the branch of the rule before. -/
structure Plan.IsToldBy (plan : Plan) (significant : List (List Char)) : Prop where
  length_eq : plan.length = significant.length
  rule_at : ∀ (i : Nat) (line : List Char) (rule : Rule),
    significant[i]? = some line → plan[i]? = some rule →
    ∃ left right, HasSides line left right ∧ rule.branch = String.ofList left ∧
      (right ≠ ['^'] → rule.base = String.ofList right) ∧
      (right = ['^'] → ∃ j previous, i = j + 1 ∧ plan[j]? = some previous ∧
        rule.base = previous.branch)

/-- Lines that make up a plan below some rule are derivable; without a rule above, the first of
    them must not refer to one. -/
theorem Plan.exists_reads {above : Option String} {lines : List (List Char)}
    (hsides : ∀ line ∈ lines.filter (Significant ·), ∃ left right, HasSides line left right)
    (hfirst : above = none →
      ∀ line ∈ (lines.filter (Significant ·)).head?, ∀ left, ¬ HasSides line left ['^']) :
    ∃ plan, Plan.Reads above lines plan := by
  induction lines generalizing above with
  | nil => exact ⟨[], .done⟩
  | cons line rest ih =>
      by_cases hsig : Significant line
      · rw [List.filter_cons_of_pos (by simpa using hsig)] at hsides hfirst
        obtain ⟨left, right, hline⟩ := hsides line (List.mem_cons_self ..)
        obtain ⟨tail, htail⟩ := @ih (some (String.ofList left))
          (fun l hl => hsides l (List.mem_cons_of_mem _ hl)) (fun h => nomatch h)
        by_cases hmark : right = ['^']
        · subst hmark
          -- below a rule the mark is always good; this line hands its branch down
          cases above with
          | none => exact absurd hline (hfirst rfl line rfl left)
          | some previous => exact ⟨_, .rule hsig hline (.mark rfl) htail⟩
        · exact ⟨_, .rule hsig hline (.literal hmark) htail⟩
      · rw [List.filter_cons_of_neg (by simpa using hsig)] at hsides hfirst
        obtain ⟨plan, hplan⟩ := ih hsides hfirst
        exact ⟨plan, .skip hsig hplan⟩

/-- There are as many rules as lines that count. -/
theorem Plan.Reads.length_eq {above : Option String} {lines : List (List Char)} {plan : Plan}
    (h : Plan.Reads above lines plan) :
    plan.length = (lines.filter (Significant ·)).length := by
  induction h with
  | done => rfl
  | skip hno _ ih =>
      rw [List.filter_cons_of_neg (by simpa using hno)]
      exact ih
  | rule hsig _ _ _ ih =>
      rw [List.filter_cons_of_pos (by simpa using hsig), List.length_cons, List.length_cons, ih]

/-- The rule at a position.  The branches seen by the lines are `above` and then those of the
    plan, so the chain mark of line `i` stands for number `i` of them. -/
theorem Plan.Reads.rule_at {above : Option String} {lines : List (List Char)} {plan : Plan}
    (h : Plan.Reads above lines plan) :
    ∀ (i : Nat) (line : List Char) (rule : Rule),
      (lines.filter (Significant ·))[i]? = some line → plan[i]? = some rule →
      ∃ left right, HasSides line left right ∧ rule.branch = String.ofList left ∧
        (right ≠ ['^'] → rule.base = String.ofList right) ∧
        (right = ['^'] →
          (above :: plan.map fun r => some r.branch)[i]? = some (some rule.base)) := by
  induction h with
  | done =>
      intro i line rule hline
      exact nomatch hline
  | skip hno _ ih =>
      rw [List.filter_cons_of_neg (by simpa using hno)]
      exact ih
  | rule hsig hsides hbase _ ih =>
      rw [List.filter_cons_of_pos (by simpa using hsig)]
      intro i line rule hline hrule
      cases i with
      | zero =>
          obtain rfl := Option.some.inj hline
          obtain rfl := Option.some.inj hrule
          refine ⟨_, _, hsides, rfl, ?_, ?_⟩
          · intro hne
            cases hbase with
            | literal _ => rfl
            | mark _ => exact absurd rfl hne
          · intro heq
            cases hbase with
            | literal hne => exact absurd heq hne
            | mark habove => exact congrArg some habove
      | succ i => exact ih i line rule hline hrule

/-- A plan derived from a whole file is told by its lines. -/
theorem Plan.Reads.isToldBy {lines : List (List Char)} {plan : Plan}
    (h : Plan.Reads none lines plan) : plan.IsToldBy (lines.filter (Significant ·)) where
  length_eq := h.length_eq
  rule_at := by
    intro i line rule hline hrule
    obtain ⟨left, right, hsides, hbranch, hliteral, hmark⟩ := h.rule_at i line rule hline hrule
    refine ⟨left, right, hsides, hbranch, hliteral, fun heq => ?_⟩
    have habove := hmark heq
    cases i with
    | zero => exact nomatch Option.some.inj habove
    | succ j =>
        rw [List.getElem?_cons_succ, List.getElem?_map] at habove
        obtain ⟨previous, hprevious, hbase⟩ := Option.map_eq_some_iff.mp habove
        exact ⟨j, previous, rfl, hprevious, (Option.some.inj hbase).symm⟩

/-- Lines that tell a plan make one up. -/
theorem Plan.IsToldBy.acceptable {plan : Plan} {significant : List (List Char)}
    (h : plan.IsToldBy significant) : Plan.Acceptable significant where
  sides := by
    intro line hline
    obtain ⟨i, hi, hget⟩ := List.mem_iff_getElem.mp hline
    have hlt : i < plan.length := h.length_eq ▸ hi
    obtain ⟨left, right, hsides, -⟩ := h.rule_at i line plan[i]
      (List.getElem?_eq_some_iff.mpr ⟨hi, hget⟩) (List.getElem?_eq_getElem hlt)
    exact ⟨left, right, hsides⟩
  first := by
    intro line hline left hsides
    cases hs : significant with
    | nil =>
        rw [hs] at hline
        exact nomatch hline
    | cons first others =>
        rw [hs] at hline h
        obtain rfl := Option.some.inj hline
        have hlt : 0 < plan.length := by
          rw [h.length_eq]
          exact Nat.succ_pos _
        obtain ⟨left', right', hsides', -, -, hmark⟩ :=
          h.rule_at 0 first plan[0] rfl (List.getElem?_eq_getElem hlt)
        obtain ⟨j, previous, hj, -⟩ := hmark (hsides'.unique hsides).2
        exact nomatch hj

/-- Lines tell at most one plan. -/
theorem Plan.IsToldBy.unique {plan plan' : Plan} {significant : List (List Char)}
    (h : plan.IsToldBy significant) (h' : plan'.IsToldBy significant) : plan = plan' := by
  -- the branches first: a base may be the branch of the rule before
  have hlen : plan.length = plan'.length := h.length_eq.trans h'.length_eq.symm
  have hbranch : ∀ (i : Nat) (rule rule' : Rule), plan[i]? = some rule →
      plan'[i]? = some rule' → rule.branch = rule'.branch := by
    intro i rule rule' hrule hrule'
    obtain ⟨hi, -⟩ := List.getElem?_eq_some_iff.mp hrule
    have hline := List.getElem?_eq_getElem (h.length_eq ▸ hi : i < significant.length)
    obtain ⟨left, right, hsides, hb, -⟩ := h.rule_at i _ rule hline hrule
    obtain ⟨left', right', hsides', hb', -⟩ := h'.rule_at i _ rule' hline hrule'
    rw [hb, hb', (hsides.unique hsides').1]
  refine List.ext_getElem hlen fun i hi hi' => ?_
  have hrule := List.getElem?_eq_getElem hi
  have hrule' := List.getElem?_eq_getElem hi'
  have hline := List.getElem?_eq_getElem (h.length_eq ▸ hi : i < significant.length)
  obtain ⟨left, right, hsides, -, hlit, hmark⟩ := h.rule_at i _ _ hline hrule
  obtain ⟨left', right', hsides', -, hlit', hmark'⟩ := h'.rule_at i _ _ hline hrule'
  obtain ⟨rfl, rfl⟩ := hsides.unique hsides'
  have hbase : plan[i].base = plan'[i].base := by
    by_cases heq : right = ['^']
    · obtain ⟨j, previous, hij, hprevious, hb⟩ := hmark heq
      obtain ⟨j', previous', hij', hprevious', hb'⟩ := hmark' heq
      obtain rfl : j = j' := Nat.succ.inj (hij.symm.trans hij')
      rw [hb, hb', hbranch j previous previous' hprevious hprevious']
    · rw [hlit heq, hlit' heq]
  exact Rule.ext (hbranch i _ _ hrule hrule') hbase

/-! ## Whole files -/

/-- A text without the byte order mark that it may begin with. -/
def Text.unmarked (cs : List Char) : List Char :=
  if cs.head? = some '\uFEFF' then cs.tail else cs

theorem Text.withoutMark_eq_unmarked (cs : List Char) : withoutMark cs = unmarked cs := by
  cases cs with
  | nil => rfl
  | cons c cs =>
      simp only [withoutMark, unmarked, List.head?_cons, Option.some.injEq, List.tail_cons]
      rfl

/-- The lines of a plan file that count. -/
def Plan.significantLines (content : String) : List (List Char) :=
  (Text.linesAtFeeds (Text.unmarked content.toList)).filter (Significant ·)

/-- The plan of a file is what its lines derive. -/
theorem Plan.read_eq_ok_iff {content : String} {plan : Plan} :
    (Plan.read content).plan = .ok plan ↔
      Plan.Reads none (Text.linesAtFeeds (Text.unmarked content.toList)) plan := by
  rw [Plan.read, Reading.ofLines_plan_eq_ok_iff, Text.lines_eq_linesAtFeeds,
    Text.withoutMark_eq_unmarked]

/-- **A FILE IS ACCEPTED** just if its significant lines make up a plan, and then it is read as
    just the plan that they tell. -/
theorem Plan.read_follows_grammar (content : String) :
    ((∃ plan, (Plan.read content).plan = .ok plan) ↔
      Plan.Acceptable (Plan.significantLines content)) ∧
    ∀ plan, (Plan.read content).plan = .ok plan ↔
      plan.IsToldBy (Plan.significantLines content) := by
  have hexists : Plan.Acceptable (Plan.significantLines content) →
      ∃ plan, (Plan.read content).plan = .ok plan := by
    intro h
    obtain ⟨plan, hplan⟩ := @Plan.exists_reads none _ h.sides (fun _ => h.first)
    exact ⟨plan, Plan.read_eq_ok_iff.mpr hplan⟩
  have htold : ∀ plan, (Plan.read content).plan = .ok plan →
      plan.IsToldBy (Plan.significantLines content) :=
    fun plan h => (Plan.read_eq_ok_iff.mp h).isToldBy
  refine ⟨⟨?_, hexists⟩, fun plan => ⟨htold plan, fun h => ?_⟩⟩
  · rintro ⟨plan, h⟩
    exact (htold plan h).acceptable
  · obtain ⟨plan', h'⟩ := hexists h.acceptable
    rw [h.unique (htold plan' h')]
    exact h'

/-- A mark in front, both line ends, a comment between a rule and one that refers to it. -/
example : (Plan.read "\uFEFFA -> X\r\n\n # on top of A\nB=>^").plan
    = .ok [⟨"A", "X"⟩, ⟨"B", "A"⟩] := by
  decide

end RebasePlan
