import RebasePlan.Proofs.ReturnToStart

/-! # When a run returns to HEAD

    `HEAD` names whatever is checked out.  A run that ends with it stays on the
    last branch that it rebased, and reports success for it.  The reader of the
    status passes over the word `HEAD`, but it does so before it cuts a word at
    the dots that lead to an upstream: a header `## HEAD...origin/main` slips
    through.

    `Head.branch?_eq_head_iff` shows that these headers are the only ones, and
    `Run.restores_head_iff` that nothing else, on the status or on the head
    commit, leads a run back to HEAD. -/

namespace RebasePlan

variable {σ : Type}

/-- Cutting at every element of a kind, in the words of the list library. -/
theorem Text.split_eq_splitOnP {α : Type} (p : α → Bool) (xs : List α) :
    split p xs = xs.splitOnP p := by
  induction xs with
  | nil => rfl
  | cons x xs ih =>
      rw [split, List.splitOnP_cons_eq_if_modifyHead, ih]
      obtain ⟨piece, pieces, hpieces⟩ := List.exists_cons_of_ne_nil (List.splitOnP_ne_nil p xs)
      rw [hpieces]
      rfl

namespace Head

/-- A line that names what is checked out: two number signs, a space, and a name behind them. -/
def IsHeader (line : List Char) : Prop :=
  ∃ c rest, line = '#' :: '#' :: ' ' :: c :: rest ∧ c ∉ [' ', '\t', '\r', '\n']

/-- A header in which HEAD has an upstream, be it with commits or without. -/
def TracksHead (line : List Char) : Prop :=
  ∃ wording ∈ [[], "No commits yet on ".toList, "Initial commit on ".toList],
    "## ".toList ++ (wording ++ "HEAD...".toList) <+: line

/-- A status whose first header gives HEAD an upstream. -/
def ShowsHeadTracking (status : List Char) : Prop :=
  ∃ earlier line later, status.splitOn '\n' = earlier ++ line :: later ∧
    (∀ other ∈ earlier, ¬ IsHeader other) ∧ TracksHead line

/-! ## The word in a header -/

theorem isNameChar_iff {c : Char} : isNameChar c = true ↔ c ∉ [' ', '\t', '\r', '\n'] := by
  simp [isNameChar, and_assoc]

/-- There is no name just if the text does not begin with a character of one. -/
theorem name?_eq_none_iff {cs : List Char} :
    name? cs = none ↔ ∀ c ∈ cs.head?, isNameChar c = false := by
  cases cs with
  | nil => simp [name?]
  | cons c cs => cases hc : isNameChar c <;> simp [name?, hc]

theorem name?_eq_some {cs name : List Char} (h : name? cs = some name) :
    name = cs.takeWhile isNameChar := by
  rw [name?] at h
  split at h
  · cases h
  · exact (Option.some.inj h).symm

/-- The name in a header, with the wording that it stands behind. -/
theorem headerName?_eq_some {line word : List Char} (h : headerName? line = some word) :
    ∃ wording ∈ [] :: unbornWordings, ∃ rest,
      line = "## ".toList ++ (wording ++ rest) ∧ word = rest.takeWhile isNameChar := by
  rw [headerName?.eq_def] at h
  split at h
  · next rest =>
    rcases Option.or_eq_some_iff.mp h with hunborn | ⟨-, hname⟩
    · obtain ⟨wording, hw, hword⟩ := List.exists_of_findSome?_eq_some hunborn
      split at hword
      · next hpre =>
        obtain ⟨more, rfl⟩ := List.isPrefixOf_iff_prefix.mp hpre
        rw [List.drop_left] at hword
        exact ⟨wording, List.mem_cons_of_mem _ hw, more, rfl, name?_eq_some hword⟩
      · cases hword
    · exact ⟨[], List.mem_cons_self, rest, rfl, name?_eq_some hname⟩
  · cases h

theorem exists_of_takeWhile_ne_nil {cs : List Char} (h : cs.takeWhile isNameChar ≠ []) :
    ∃ c rest, cs = c :: rest ∧ isNameChar c = true := by
  cases cs with
  | nil => exact absurd rfl h
  | cons c rest =>
      refine ⟨c, rest, rfl, ?_⟩
      by_contra hc
      exact h (List.takeWhile_cons_of_neg hc)

/-- A line gives no name just if it is no header. -/
theorem headerName?_eq_none_iff {line : List Char} : headerName? line = none ↔ ¬ IsHeader line := by
  constructor
  · rintro hnone ⟨c, rest, rfl, hc⟩
    have hname : name? (c :: rest) = none := (Option.or_eq_none_iff.mp hnone).2
    rw [← isNameChar_iff, name?_eq_none_iff.mp hname c rfl] at hc
    exact nomatch hc
  · intro hno
    cases hword : headerName? line with
    | none => rfl
    | some word =>
        obtain ⟨wording, hw, rest, rfl, rfl⟩ := headerName?_eq_some hword
        -- a wording begins with a letter, and a name with a character of names
        have hfirst : ∃ c more, wording ++ rest = c :: more ∧ isNameChar c = true := by
          rcases List.mem_cons.mp hw with rfl | hw
          · exact exists_of_takeWhile_ne_nil (headerName?_ne_nil hword)
          · rcases List.mem_cons.mp hw with rfl | hw
            · exact ⟨'N', _, rfl, rfl⟩
            · rw [List.mem_singleton.mp hw]
              exact ⟨'I', _, rfl, rfl⟩
        obtain ⟨c, more, hmore, hc⟩ := hfirst
        exact absurd ⟨c, more, by rw [hmore]; rfl, isNameChar_iff.mp hc⟩ hno

/-! ## HEAD as a branch -/

/-- **The word in front of the dots** is read as HEAD; without dots it is not. -/
theorem branchOfName_eq_head_iff {word : List Char} :
    branchOfName word = some "HEAD".toList ↔ "HEAD...".toList <+: word := by
  constructor
  · intro h
    rw [branchOfName] at h
    split at h
    · cases h
    · next hne =>
      split at h
      · cases h
      · next before after _ hcut =>
        obtain rfl := Option.some.inj h
        obtain ⟨dots, hdots, hline⟩ := (Text.cutsAtFirst_of_cut hcut).occurs
        rw [List.mem_singleton.mp hdots] at hline
        exact ⟨after, hline.symm⟩
      · exact absurd (Option.some.inj h) hne
  · rintro ⟨more, rfl⟩
    rfl

/-- What a header says of HEAD does not depend on the wording in front of it. -/
theorem headerName?_tracking {wording : List Char} (hw : wording ∈ [] :: unbornWordings)
    (more : List Char) :
    headerName? ("## ".toList ++ (wording ++ ("HEAD...".toList ++ more)))
      = some ("HEAD...".toList ++ more.takeWhile isNameChar) := by
  have hname : name? ("HEAD...".toList ++ more)
      = some ("HEAD...".toList ++ more.takeWhile isNameChar) :=
    name?_append (by decide) (List.all_eq_true.mp (by decide)) more
  show (unbornName? (wording ++ _)).or (name? (wording ++ _)) = _
  rcases List.mem_cons.mp hw with rfl | hw
  · have hnone : unbornName? ([] ++ ("HEAD...".toList ++ more)) = none := rfl
    rw [hnone, Option.none_or, List.nil_append, hname]
  · rw [unbornName?_append hw hname, Option.some_or]

/-- A line is read as HEAD just if it gives HEAD an upstream. -/
theorem tracksHead_iff {line : List Char} :
    TracksHead line ↔
      ∃ word, headerName? line = some word ∧ branchOfName word = some "HEAD".toList := by
  constructor
  · rintro ⟨wording, hw, more, rfl⟩
    refine ⟨_, ?_, branchOfName_eq_head_iff.mpr (List.prefix_append _ (more.takeWhile isNameChar))⟩
    rw [List.append_assoc, List.append_assoc]
    exact headerName?_tracking hw more
  · rintro ⟨word, hword, hbranch⟩
    obtain ⟨wording, hw, rest, rfl, rfl⟩ := headerName?_eq_some hword
    have hrest : "HEAD...".toList <+: rest :=
      (branchOfName_eq_head_iff.mp hbranch).trans (List.takeWhile_prefix _)
    refine ⟨wording, hw, ?_⟩
    rw [List.prefix_append_right_inj, List.prefix_append_right_inj]
    exact hrest

/-- **A STATUS IS READ AS HEAD** just if its first header gives HEAD an upstream. -/
theorem branch?_eq_head_iff {status : String} :
    branch? status = some "HEAD" ↔ ShowsHeadTracking status.toList := by
  have hread : branch? status = some "HEAD" ↔ ∃ word,
      (rawLines status.toList).findSome? headerName? = some word ∧
        branchOfName word = some "HEAD".toList := by
    rw [branch?, Option.map_eq_some_iff]
    constructor
    · rintro ⟨name, hname, hhead⟩
      obtain rfl : name = "HEAD".toList := by rw [← hhead, String.toList_ofList]
      exact Option.bind_eq_some_iff.mp hname
    · intro h
      exact ⟨_, Option.bind_eq_some_iff.mpr h, rfl⟩
  rw [hread, ShowsHeadTracking, rawLines, Text.split_eq_splitOnP]
  simp only [List.findSome?_eq_some_iff, tracksHead_iff, ← headerName?_eq_none_iff]
  constructor
  · rintro ⟨word, ⟨earlier, line, later, hlines, hline, hearlier⟩, hbranch⟩
    exact ⟨earlier, line, later, hlines, hearlier, word, hline, hbranch⟩
  · rintro ⟨earlier, line, later, hlines, hearlier, word, hline, hbranch⟩
    exact ⟨word, ⟨earlier, line, later, hlines, hline, hearlier⟩, hbranch⟩

/-- A commit is never read as HEAD. -/
theorem commit?_ne_head (shown : String) : commit? shown ≠ some "HEAD" := by
  intro h
  obtain ⟨word, hword, hhead⟩ := Option.map_eq_some_iff.mp h
  have hcommit := List.find?_some hword
  rw [← String.toList_ofList (l := word), hhead] at hcommit
  exact absurd hcommit (by decide)

end Head

/-! ## The way back -/

/-- A run that starts at HEAD was told so by the status. -/
theorem StartsAt.head_iff {b : Backend σ} {s : σ} {queries : List Call} {target : String}
    (h : StartsAt b s queries target) :
    target = "HEAD" ↔ (b.statusReply s).Prints Head.ShowsHeadTracking := by
  have hprints : (b.statusReply s).Prints Head.ShowsHeadTracking ↔
      (b.statusReply s).Names Head.branch? "HEAD" := by
    simp only [Reply.Prints, Reply.Names, Head.branch?_eq_head_iff]
  rw [hprints]
  constructor
  · intro hhead
    cases h with
    | branch hname => exact hhead ▸ hname
    | commit _ hcommit =>
        obtain ⟨output, -, -, hshown⟩ := hcommit
        exact absurd (hhead ▸ hshown) (Head.commit?_ne_head output.stdout)
    | unknown _ _ => exact absurd hhead (by decide)
  · intro hname
    exact (h.unique (SameStart.refl b s) (.branch hname)).2

/-- A starting point is known by its name, or by the reference to return to. -/
theorem Origin.name?_eq_some_iff {o : Origin} {name : String} (h : name ≠ "") :
    o.name? = some name ↔ o.target = name := by
  cases o with
  | branch found => exact Option.some_inj
  | commit found => exact Option.some_inj
  | unknown => exact iff_of_false nofun fun hempty => h hempty.symm

/-- **A RUN RETURNS TO HEAD** just if the status gives HEAD an upstream, and the report names HEAD
    in the same cases. -/
theorem Run.restores_head_iff (b : Backend σ) (plan : Plan) (s : σ) :
    ((Run.callsSeen b plan s).getLast? = some (.checkout "HEAD") ↔
      (b.statusReply s).Prints Head.ShowsHeadTracking) ∧
    ((Run.execute b true plan s).1.report.origin = some "HEAD" ↔
      (b.statusReply s).Prints Head.ShowsHeadTracking) := by
  obtain ⟨queries, hstart, -⟩ := Opening.startsAt_run b s
  have hlast : (Run.callsSeen b plan s).getLast? =
      some (.checkout (Opening.run b s).1.origin.target) := by
    rw [Run.callsSeen_eq, Session.calls_run, List.getLast?_concat]
  have horigin : (Run.execute b true plan s).1.report.origin =
      (Opening.run b s).1.origin.name? := rfl
  rw [hlast, horigin, ← hstart.head_iff, Option.some_inj, Call.checkout.injEq]
  exact ⟨Iff.rfl, Origin.name?_eq_some_iff (by decide)⟩

/-- A header in which HEAD has an upstream: the run ends on HEAD and counts as a success. -/
theorem Run.restores_tracking_head :
    let script : List Outcome := [.ok { stdout := "## HEAD...origin/main\n" }]
    let plan : Plan := [⟨"topic", "main"⟩]
    let report := (Run.execute Backend.scripted true plan script).1.report
    (Run.callsSeen Backend.scripted plan script).getLast? = some (.checkout "HEAD") ∧
      report.origin = some "HEAD" ∧ report.succeeded = true := by
  decide

end RebasePlan
