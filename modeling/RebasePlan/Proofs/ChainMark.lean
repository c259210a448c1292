import RebasePlan.Proofs.CallSequence
import RebasePlan.Proofs.PlanText

/-! # Where a chain mark ends up

    The reader puts the branch of the rule above in the place of a chain mark.
    It does not look at what that branch is called: below a branch named like
    the mark, a mark is replaced by itself.  `Plan.no_mark_left_iff` shows that
    this is the only way for a mark to stay in a plan, and that a run hands the
    mark to the backend in just the same cases. -/

namespace RebasePlan

open Rule (HasSides)

/-- A line that refers to the rule above it stands directly below a line whose branch has the name
    of the chain mark.  Lines that do not count may lie between the two. -/
def Plan.ChainsToMark (content : String) : Prop :=
  ∃ i above line right left, (Plan.significantLines content)[i]? = some above ∧
    (Plan.significantLines content)[i + 1]? = some line ∧
    HasSides above ['^'] right ∧ HasSides line left ['^']

/-- For each significant line of a told plan there is a rule in its place. -/
theorem Plan.IsToldBy.exists_rule {plan : Plan} {significant : List (List Char)}
    (h : plan.IsToldBy significant) {i : Nat} {line : List Char}
    (hline : significant[i]? = some line) : ∃ rule, plan[i]? = some rule := by
  obtain ⟨hi, -⟩ := List.getElem?_eq_some_iff.mp hline
  have hlt : i < plan.length := h.length_eq ▸ hi
  exact ⟨_, List.getElem?_eq_getElem hlt⟩

theorem Plan.IsToldBy.exists_line {plan : Plan} {significant : List (List Char)}
    (h : plan.IsToldBy significant) {i : Nat} {rule : Rule} (hrule : plan[i]? = some rule) :
    ∃ line, significant[i]? = some line := by
  obtain ⟨hi, -⟩ := List.getElem?_eq_some_iff.mp hrule
  have hlt : i < significant.length := h.length_eq ▸ hi
  exact ⟨_, List.getElem?_eq_getElem hlt⟩

/-- A mark that is left over stands for itself: its own line has it, and so has the branch of the
    line above. -/
theorem Plan.IsToldBy.chainsToMark {plan : Plan} {content : String}
    (h : plan.IsToldBy (Plan.significantLines content)) {i : Nat} {rule : Rule}
    (hrule : plan[i]? = some rule) (hbase : rule.base = "^") : Plan.ChainsToMark content := by
  obtain ⟨j, previous, rfl, hprevious, hbranch⟩ := h.marks hrule hbase
  obtain ⟨line, hline⟩ := h.exists_line hrule
  obtain ⟨above, habove⟩ := h.exists_line hprevious
  obtain ⟨left, right, hsides, -, hliteral, -⟩ := h.rule_at _ line rule hline hrule
  obtain ⟨left', right', hsides', hbranch', -⟩ := h.rule_at _ above previous habove hprevious
  -- any other right side would have been taken as it stands
  have hright : right = ['^'] := by
    by_contra hne
    have htext : String.ofList right = "^" := (hliteral hne).symm.trans hbase
    exact hne (String.ofList_injective htext)
  have hleft : left' = ['^'] := String.ofList_injective (hbranch'.symm.trans hbranch)
  exact ⟨j, above, line, right', left, habove, hline, hleft ▸ hsides', hright ▸ hsides⟩

/-- A mark below a branch of its own name stays. -/
theorem Plan.IsToldBy.mark_mem {plan : Plan} {content : String}
    (h : plan.IsToldBy (Plan.significantLines content)) (hchain : Plan.ChainsToMark content) :
    ∃ rule ∈ plan, rule.base = "^" := by
  obtain ⟨i, above, line, right, left, habove, hline, hsides, hsides'⟩ := hchain
  obtain ⟨previous, hprevious⟩ := h.exists_rule habove
  obtain ⟨rule, hrule⟩ := h.exists_rule hline
  obtain ⟨left₁, right₁, hsides₁, hbranch, -⟩ := h.rule_at i above previous habove hprevious
  obtain ⟨left₂, right₂, hsides₂, -, -, hmark⟩ := h.rule_at (i + 1) line rule hline hrule
  obtain ⟨j, previous', hij, hprevious', hbase⟩ := hmark (hsides₂.unique hsides').2
  obtain rfl : i = j := Nat.succ.inj hij
  obtain rfl := Option.some.inj (hprevious.symm.trans hprevious')
  refine ⟨rule, List.mem_of_getElem? hrule, ?_⟩
  rw [hbase, hbranch, (hsides₁.unique hsides).1]

/-- A run rebases onto the bases of its plan and onto nothing else. -/
theorem Run.rebase_mem_callsSeen_iff {σ : Type} {b : Backend σ} {plan : Plan} {s : σ}
    {base : String} : .rebase base ∈ Run.callsSeen b plan s ↔ ∃ rule ∈ plan, rule.base = base := by
  obtain ⟨queries, hstart, hqueries⟩ := Opening.startsAt_run b s
  -- the queries rebase nothing
  have hopening : Call.rebase base ∉ Call.status :: queries := by
    rcases hstart.queries_eq with ⟨rfl, -⟩ | ⟨rfl, -⟩
    · simp
    · simp
  rw [Run.callsSeen_eq, Session.calls_run, hqueries, List.mem_append, List.mem_append]
  constructor
  · rintro ((h | h) | h)
    · exact absurd h hopening
    · obtain ⟨rule, hrule, hcall⟩ := List.mem_flatMap.mp h
      refine ⟨rule, hrule, ?_⟩
      simpa [Rule.calls, eq_comm] using hcall
    · simp at h
  · rintro ⟨rule, hrule, rfl⟩
    refine Or.inl (Or.inr (List.mem_flatMap.mpr ⟨rule, hrule, ?_⟩))
    simp [Rule.calls]

/-- **NO MARK IS LEFT OVER** in a plan that was read, and none reaches the backend, just if no mark
    stands below a branch of its own name. -/
theorem Plan.no_mark_left_iff {content : String} {plan : Plan}
    (h : (Plan.read content).plan = .ok plan) :
    ((∀ rule ∈ plan, rule.base ≠ "^") ↔ ¬ Plan.ChainsToMark content) ∧
    ∀ {σ : Type} (b : Backend σ) (s : σ),
      .rebase "^" ∉ Run.callsSeen b plan s ↔ ¬ Plan.ChainsToMark content := by
  have htold : plan.IsToldBy (Plan.significantLines content) :=
    (Plan.read_eq_ok_iff.mp h).isToldBy
  have hiff : (∃ rule ∈ plan, rule.base = "^") ↔ Plan.ChainsToMark content := by
    constructor
    · rintro ⟨rule, hrule, hbase⟩
      obtain ⟨i, hi⟩ := List.mem_iff_getElem?.mp hrule
      exact htold.chainsToMark hi hbase
    · exact htold.mark_mem
  refine ⟨?_, fun b s => not_congr (Run.rebase_mem_callsSeen_iff.trans hiff)⟩
  rw [← hiff]
  exact ⟨fun hno ⟨rule, hrule, hbase⟩ => hno rule hrule hbase,
    fun hno rule hrule hbase => hno ⟨rule, hrule, hbase⟩⟩

/-- Three branches on top of each other: both marks are replaced. -/
theorem Plan.no_mark_left_in_stack :
    let stack := "a -> main\nb -> ^\n# on top of b\nc => ^"
    let plan : Plan := [⟨"a", "main"⟩, ⟨"b", "a"⟩, ⟨"c", "b"⟩]
    (Plan.read stack).plan = .ok plan ∧ ¬ Plan.ChainsToMark stack ∧
      .rebase "^" ∉ Run.callsSeen Backend.scripted plan [] := by
  intro stack plan
  have hread : (Plan.read stack).plan = .ok plan := by decide
  obtain ⟨hplan, hrun⟩ := Plan.no_mark_left_iff hread
  have hno : ¬ Plan.ChainsToMark stack := hplan.mp (by decide)
  exact ⟨hread, hno, (hrun Backend.scripted []).mpr hno⟩

/-- A branch named like the mark hands its name on, and the run rebases onto it. -/
theorem Plan.mark_left_below_mark :
    (Plan.read "^ -> main\ntopic -> ^").plan = .ok [⟨"^", "main"⟩, ⟨"topic", "^"⟩] ∧
      .rebase "^" ∈ Run.callsSeen Backend.scripted [⟨"^", "main"⟩, ⟨"topic", "^"⟩] [] :=
  ⟨by decide, Run.rebase_mem_callsSeen_iff.mpr ⟨⟨"topic", "^"⟩, by decide, rfl⟩⟩

end RebasePlan
