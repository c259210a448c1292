import RebasePlan.Proofs.CallSequence

/-! # A run ends where it began

    A repository stands on a branch, on a branch without commits, or on a commit
    alone, and says so in its own words (`Position.ShowsStatus`, `ShowsHead`).
    If its answers to the queries are those words, a confirmed run returns to
    the position whatever becomes of the checkouts and rebases in between
    (`Run.returns_to_position`).

    The reading of the words is in `HeadReading`, the sequence of calls in
    `CallSequence`; what is left is to join them. -/

namespace RebasePlan

open Head (BranchName CommitName HeaderTail)

variable {σ : Type}

/-- Where a repository stands. -/
inductive Position where
  /-- On a branch. -/
  | branch (name : List Char)
  /-- On a branch that has no commits yet. -/
  | unborn (name : List Char)
  /-- On a commit, and on no branch. -/
  | detached (commit : List Char)

namespace Position

/-- The name to check out in order to come back. -/
def name : Position → List Char
  | branch name => name
  | unborn name => name
  | detached commit => commit

/-- Branches and commits have names of their kinds. -/
def WellNamed : Position → Prop
  | branch name => BranchName name
  | unborn name => BranchName name
  | detached commit => CommitName commit

/-- The short status of a repository at a position. -/
inductive ShowsStatus : Position → List Char → Prop where
  | branch {name tail : List Char} : HeaderTail tail →
      ShowsStatus (.branch name) ("## ".toList ++ (name ++ tail))
  | unborn {wording name tail : List Char} :
      wording ∈ ["No commits yet on ".toList, "Initial commit on ".toList] → HeaderTail tail →
      ShowsStatus (.unborn name) ("## ".toList ++ (wording ++ (name ++ tail)))
  | detached {commit : List Char} (more : List Char) :
      ShowsStatus (.detached commit) ("## HEAD (no branch)".toList ++ '\n' :: more)

end Position

/-- The description of a commit: its full name, alone or with more behind a blank. -/
inductive ShowsHead (commit : List Char) : List Char → Prop where
  | alone : ShowsHead commit commit
  | described {c : Char} (more : List Char) : Text.isBlank c = true →
      ShowsHead commit (commit ++ c :: more)

/-- The program ended with code 0 and printed a text of this kind. -/
def Reply.Prints (r : Reply) (shows : List Char → Prop) : Prop :=
  ∃ output, r.outcome = .ok output ∧ output.exitCode = 0 ∧ shows output.stdout.toList

/-- The queries of a run are answered by a repository at a position.  The head is described only
    where it is asked for. -/
structure Backend.StandsAt (b : Backend σ) (s : σ) (position : Position) : Prop where
  named : position.WellNamed
  status : (b.statusReply s).Prints position.ShowsStatus
  head : ∀ commit, position = .detached commit → (b.headReply s).Prints (ShowsHead commit)

/-! ## Reading the position -/

/-- What is read from every text of a kind is named by a reply that prints such a text. -/
theorem Reply.Prints.names {r : Reply} {shows : List Char → Prop} {read : String → Option String}
    {name : String} (h : r.Prints shows)
    (hread : ∀ text : String, shows text.toList → read text = some name) : r.Names read name := by
  obtain ⟨output, ho, hcode, htext⟩ := h
  exact ⟨output, ho, hcode, hread output.stdout htext⟩

/-- If nothing is read from any text of a kind, a reply that prints such a text names nothing. -/
theorem Reply.Prints.names_nothing {r : Reply} {shows : List Char → Prop}
    {read : String → Option String} (h : r.Prints shows)
    (hread : ∀ text : String, shows text.toList → read text = none) :
    ∀ name, ¬ r.Names read name := by
  obtain ⟨output, ho, -, htext⟩ := h
  rintro name ⟨output', ho', -, hname⟩
  obtain rfl := Except.ok.inj (ho.symm.trans ho')
  rw [hread output.stdout htext] at hname
  exact nomatch hname

/-- **The queries tell the position.** -/
theorem Backend.StandsAt.startsAt {b : Backend σ} {s : σ} {position : Position}
    (h : b.StandsAt s position) :
    ∃ queries, StartsAt b s queries (String.ofList position.name) := by
  obtain ⟨hnamed, hstatus, hhead⟩ := h
  cases position with
  | branch name =>
      refine ⟨[], .branch (hstatus.names fun text htext => ?_)⟩
      generalize hcs : text.toList = cs at htext
      cases htext with
      | branch htail => exact Head.branch?_of_header hnamed htail hcs
  | unborn name =>
      refine ⟨[], .branch (hstatus.names fun text htext => ?_)⟩
      generalize hcs : text.toList = cs at htext
      cases htext with
      | unborn hw htail => exact Head.branch?_of_unborn_header hw hnamed htail hcs
  | detached commit =>
      refine ⟨[.showHead], .commit (hstatus.names_nothing fun text htext => ?_)
        ((hhead commit rfl).names fun text htext => ?_)⟩
      · -- the reader sees the word HEAD and gives up, whatever the other lines say
        generalize hcs : text.toList = cs at htext
        cases htext with
        | detached more => exact Head.branch?_detached hcs
      · generalize hcs : text.toList = cs at htext
        cases htext with
        | alone =>
            refine Head.commit?_of_word hnamed (fun c hc => ?_) (hcs.trans (List.append_nil _).symm)
            exact nomatch hc
        | described more hblank =>
            refine Head.commit?_of_word hnamed (fun c hc => ?_) hcs
            rw [← Option.some.inj hc]
            exact hblank

theorem Position.name_ne_nil {position : Position} (h : position.WellNamed) :
    position.name ≠ [] := by
  cases position with
  | branch name => exact BranchName.ne_nil h
  | unborn name => exact BranchName.ne_nil h
  | detached commit =>
      intro hnil
      have hlen := CommitName.length_eq h
      rw [show commit = [] from hnil] at hlen
      exact nomatch hlen

/-! ## The way back -/

/-- A run returns to a starting point that it knows, and reports it. -/
theorem Run.returns_to_start {b : Backend σ} {s : σ} {queries : List Call} {target : String}
    (h : StartsAt b s queries target) (hne : target ≠ "") (plan : Plan) :
    (Run.callsSeen b plan s).getLast? = some (.checkout target) ∧
      (Run.execute b true plan s).1.report.origin = some target := by
  obtain ⟨queries', hstart, -⟩ := Opening.startsAt_run b s
  obtain ⟨-, rfl⟩ := h.unique (SameStart.refl b s) hstart
  constructor
  · rw [Run.callsSeen_eq, Session.calls_run, List.getLast?_concat]
  · show (Opening.run b s).1.origin.name? = _
    cases hname : (Opening.run b s).1.origin.name? with
    | none => exact absurd ((Opening.target_eq_empty_iff b s).mpr hname) hne
    | some name =>
        rw [Origin.target, hname]
        rfl

/-- **A RUN ENDS WHERE IT BEGAN**: its last call checks out the position that the repository had,
    and the report names it. -/
theorem Run.returns_to_position {b : Backend σ} {s : σ} {position : Position}
    (h : b.StandsAt s position) (plan : Plan) :
    (Run.callsSeen b plan s).getLast? = some (.checkout (String.ofList position.name)) ∧
      (Run.execute b true plan s).1.report.origin = some (String.ofList position.name) := by
  obtain ⟨queries, hstart⟩ := h.startsAt
  refine Run.returns_to_start hstart (fun hempty => ?_) plan
  exact Position.name_ne_nil h.named (String.ofList_eq_empty_iff.mp hempty)

/-- A repository on a commit, with a line in its status that looks like a header, and nothing but
    failures after the queries. -/
theorem Run.returns_to_detached_head :
    let commit := "0123456789abcdefABCDEF0123456789abcdefAB".toList
    let script : List Outcome := [.ok { stdout := "## HEAD (no branch)\n## main\n" },
      .ok { stdout := "0123456789abcdefABCDEF0123456789abcdefAB topic\n" },
      .error (.unknownProgram "git"), .ok { exitCode := 1, stderr := "conflict" }]
    Backend.scripted.StandsAt script (.detached commit) ∧
      (Run.callsSeen Backend.scripted [⟨"topic", "main"⟩] script).getLast?
        = some (.checkout (String.ofList commit)) ∧
      (Run.execute Backend.scripted true [⟨"topic", "main"⟩] script).1.report.origin
        = some (String.ofList commit) := by
  intro commit script
  have hstands : Backend.scripted.StandsAt script (.detached commit) := by
    have hdigits : (commit.all ("0123456789abcdefABCDEF".toList.contains ·)) = true := rfl
    have hnamed : CommitName commit :=
      ⟨rfl, fun c hc => List.contains_iff_mem.mp (List.all_eq_true.mp hdigits c hc)⟩
    refine ⟨hnamed, ⟨_, rfl, rfl, .detached "## main\n".toList⟩, fun c hc => ?_⟩
    obtain rfl := Position.detached.inj hc
    exact ⟨_, rfl, rfl, .described "topic\n".toList rfl⟩
  exact ⟨hstands, Run.returns_to_position hstands [⟨"topic", "main"⟩]⟩

end RebasePlan
