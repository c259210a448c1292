import RebasePlan.Proofs.PlanText
import RebasePlan.Proofs.ToldWarnings

/-! # The plan that is shown is the plan that is carried out

    Without confirmation a run only shows its rules, each in one line of text.
    The line escapes nothing, and a base may hold arrows of its own.  It can be
    taken apart nevertheless: no branch of a plan that was read holds an arrow
    (`Rule.shownAs_text`), so the first arrow of the line is the one between the
    two sides.  What is read off the lines are the rules that a confirmed run
    tells and carries out (`Run.dry_run_foretells`).

    A backend may tell events of its own.  None of them is to be taken for a
    rule that the run tells (`Backend.LeavesRules`); the version-control program
    keeps to that. -/

namespace RebasePlan

variable {σ : Type}

/-! ## What an event says -/

/-- The text in a field. -/
def FieldValue.string? : FieldValue → Option String
  | number _ => none
  | quoted s => some s
  | plain s => some s

/-- The number in a field. -/
def FieldValue.number? : FieldValue → Option Int
  | number n => some n
  | quoted _ => none
  | plain _ => none

/-- The rule that a text shows: what stands before and after its first arrow between spaces. -/
def Rule.shownAs? (text : String) : Option Rule :=
  (Text.cut [" -> ".toList] text.toList).map fun sides =>
    ⟨String.ofList sides.1, String.ofList sides.2⟩

namespace Event

/-- The text in the field of this name. -/
def string? (e : Event) (name : String) : Option String :=
  (e.fields.lookup name).bind FieldValue.string?

/-- The number in the field of this name. -/
def number? (e : Event) (name : String) : Option Int :=
  (e.fields.lookup name).bind FieldValue.number?

/-- The event shows a rule that would be carried out. -/
def IsPlanned (e : Event) : Prop :=
  e.severity = .debug ∧ e.message = "planned" ∧ (e.string? "rule").isSome

/-- The event tells that a rule is carried out. -/
def IsRebasing (e : Event) : Prop :=
  e.severity = .info ∧ e.message = "rebasing" ∧ (e.number? "step").isSome

instance (e : Event) : Decidable e.IsPlanned := inferInstanceAs (Decidable (_ ∧ _))

instance (e : Event) : Decidable e.IsRebasing := inferInstanceAs (Decidable (_ ∧ _))

/-- The rule in the text of an event that shows one. -/
def plannedRule? (e : Event) : Option Rule := (e.string? "rule").bind Rule.shownAs?

/-- The rule in the fields of an event that tells of its being carried out. -/
def rebasingRule? (e : Event) : Option Rule :=
  (e.string? "from").bind fun branch => (e.string? "onto").map fun base => ⟨branch, base⟩

/-- What a command printed has fields of its own, so its text is not taken for an event of this
    kind, whatever it says. -/
theorem isPlanned_iff {e : Event} : e.IsPlanned ↔ ∃ rule, e = .planned rule := by
  cases e <;>
    simp [IsPlanned, severity, message, string?, fields, reason, FieldValue.string?,
      List.lookup_cons]

/-- Neither is any other event taken for one that tells of a rule. -/
theorem isRebasing_iff {e : Event} : e.IsRebasing ↔ ∃ n total rule, e = .rebasing n total rule := by
  cases e <;>
    simp [IsRebasing, severity, message, number?, fields, reason, FieldValue.number?,
      List.lookup_cons]

theorem isPlanned_planned (rule : Rule) : (planned rule).IsPlanned :=
  isPlanned_iff.mpr ⟨rule, rfl⟩

theorem isRebasing_rebasing (n total : Nat) (rule : Rule) : (rebasing n total rule).IsRebasing :=
  isRebasing_iff.mpr ⟨n, total, rule, rfl⟩

theorem not_isRebasing {e : Event} (h : ∀ n total rule, e ≠ .rebasing n total rule) :
    ¬ e.IsRebasing := by
  intro hrebasing
  obtain ⟨n, total, rule, he⟩ := isRebasing_iff.mp hrebasing
  exact h n total rule he

end Event

/-! ## The line of a rule -/

/-- **A RULE IS KNOWN BY ITS LINE** if there is no arrow in its branch. -/
theorem Rule.shownAs_text {r : Rule}
    (h : ∀ arrow ∈ [['-', '>'], ['=', '>']], ¬ arrow <:+: r.branch.toList) :
    shownAs? r.text = some r := by
  have huniform : Text.Uniform [" -> ".toList] := ⟨by decide, by decide⟩
  have hcut : Text.CutsAtFirst [" -> ".toList] (line r.branch.toList r.base.toList)
      r.branch.toList r.base.toList := by
    refine ⟨⟨" -> ".toList, List.mem_singleton.mpr rfl, ?_⟩, fun p hp u v hline => ?_⟩
    · rw [List.append_assoc]
      rfl
    · -- in an earlier arrow between spaces there would be an earlier arrow
      rw [List.mem_singleton.mp hp] at hline
      have harrow : line r.branch.toList r.base.toList
          = (u ++ [' ']) ++ ['-', '>'] ++ ' ' :: v := by
        rw [hline]
        simp
      have hle := (cutsAtFirst_line h r.base.toList).first ['-', '>'] (List.mem_cons_self ..) _ _
        harrow
      rw [List.length_append, List.length_append] at hle
      exact Nat.le_of_add_le_add_right hle
  rw [shownAs?, toList_text, (Text.cut_eq_some_iff huniform).mpr hcut, Option.map_some,
    String.ofList_toList, String.ofList_toList]

/-! ## What a confirmed run tells -/

/-- The backend never tells that a rule is carried out: that is for the run to tell. -/
def Backend.LeavesRules (b : Backend σ) : Prop :=
  ∀ c s, ∀ event ∈ (b.answer c s).1.log, ¬ event.IsRebasing

/-- What the backend told during an exchange is not that a rule is carried out. -/
def Exchange.LeavesRules (e : Exchange) : Prop := ∀ event ∈ e.log, ¬ event.IsRebasing

theorem Backend.leavesRules_muted (b : Backend σ) : b.muted.LeavesRules := fun _ _ => nofun

/-- The version-control program tells of its processes only. -/
theorem Git.leavesRules_backend (computer : Computer) (programs : Programs σ) (program : Path)
    (repository : Option Path) : (backend computer programs program repository).LeavesRules := by
  intro call state event hevent
  have hteller : event.teller = .process :=
    (command program repository call).teller_run computer programs state event hevent
  refine Event.not_isRebasing fun n total rule he => ?_
  rw [he] at hteller
  exact nomatch hteller

namespace Exchange

variable {e : Exchange}

/-- A warning tells of no rule, whatever it says. -/
theorem not_isRebasing_warning : ∀ event ∈ e.warningEvent?.toList, ¬ event.IsRebasing := by
  intro event hevent
  obtain ⟨warning, -, rfl⟩ := Option.map_eq_some_iff.mp (Option.mem_toList.mp hevent)
  exact Event.not_isRebasing nofun

theorem not_isRebasing_printed : ∀ event ∈ e.printedEvent?.toList, ¬ event.IsRebasing := by
  intro event hevent
  obtain ⟨output, -, hprinted⟩ := Option.bind_eq_some_iff.mp (Option.mem_toList.mp hevent)
  split at hprinted
  · exact nomatch hprinted
  · obtain rfl := Option.some.inj hprinted
    exact Event.not_isRebasing nofun

/-- A query tells of no rule, nor does any other call. -/
theorem LeavesRules.queryEvents (h : e.LeavesRules) (hcall : e.call.isQuery = true) :
    ∀ event ∈ e.queryEvents, ¬ event.IsRebasing := by
  rw [e.queryEvents_eq hcall]
  refine List.forall_mem_append.mpr
    ⟨List.forall_mem_append.mpr ⟨h, fun event hevent => ?_⟩, not_isRebasing_warning⟩
  obtain ⟨output, -, rfl⟩ := List.mem_map.mp hevent
  exact Event.not_isRebasing nofun

end Exchange

theorem filter_isRebasing_eq_nil {events : List Event} (h : ∀ event ∈ events, ¬ event.IsRebasing) :
    events.filter (·.IsRebasing) = [] :=
  List.filter_eq_nil_iff.mpr fun event hevent hrebasing =>
    h event hevent (of_decide_eq_true hrebasing)

/-- What is told between the rules tells of no rule, if the backend leaves them alone. -/
theorem TellsActions.forall_not_isRebasing {exchanges : List Exchange} {events : List Event}
    (h : TellsActions exchanges events) (hleaves : ∀ e ∈ exchanges, e.LeavesRules) :
    ∀ event ∈ events, ¬ event.IsRebasing := by
  induction h with
  | done => exact nofun
  | action _ ih =>
      rw [List.forall_mem_cons] at hleaves
      exact List.forall_mem_append.mpr ⟨List.forall_mem_append.mpr
        ⟨List.forall_mem_append.mpr ⟨hleaves.1, Exchange.not_isRebasing_printed⟩,
          Exchange.not_isRebasing_warning⟩, ih hleaves.2⟩

/-- The events that tell the rules of a plan, the first of which is number `n` of `total`. -/
def Plan.rebasingFrom (total n : Nat) (plan : Plan) : List Event :=
  (plan.zipIdx n).map fun numbered => .rebasing numbered.2 total numbered.1

/-- The calls of the rules tell of no rule. -/
theorem TellsRules.filter_isRebasing {total n : Nat} {plan : Plan} {exchanges : List Exchange}
    {events : List Event} (h : TellsRules total n plan exchanges events)
    (hleaves : ∀ e ∈ exchanges, e.LeavesRules) :
    events.filter (·.IsRebasing) = plan.rebasingFrom total n := by
  induction h with
  | done => rfl
  | @rule n rule plan checkout rebase exchanges body events _ _ hbody _ ih =>
      have hsplit : checkout :: rebase :: exchanges = [checkout, rebase] ++ exchanges := rfl
      rw [hsplit, List.forall_mem_append] at hleaves
      have hquiet := filter_isRebasing_eq_nil (hbody.forall_not_isRebasing hleaves.1)
      rw [List.cons_append,
        List.filter_cons_of_pos (by simpa using Event.isRebasing_rebasing n total rule),
        List.filter_append, hquiet, List.nil_append, ih hleaves.2]
      rfl

/-- The opening of a run tells of no rule. -/
theorem Opening.forall_not_isRebasing {b : Backend σ} (h : b.LeavesRules) (s : σ) :
    ∀ event ∈ (Opening.run b s).1.events, ¬ event.IsRebasing := by
  have hleaves : ∀ c s, (b.exchange c s).1.LeavesRules := fun c s => h c s
  have hstatus := (hleaves .status s).queryEvents rfl
  cases hbranch : (b.exchange .status s).1.branch? with
  | some name =>
      rw [(Opening.run_of_branch (Reply.names_iff.mpr hbranch)).1, Opening.events_of_branch hbranch]
      refine List.forall_mem_append.mpr ⟨hstatus, fun event hevent => ?_⟩
      rw [List.mem_singleton.mp hevent]
      exact Event.not_isRebasing nofun
  | none =>
      have hhead := (hleaves .showHead (b.exchange .status s).2).queryEvents rfl
      rw [(Opening.run_of_no_branch (Reply.names_nothing_iff.mpr hbranch)).1,
        Opening.events_of_head hbranch]
      refine List.forall_mem_append.mpr ⟨List.forall_mem_append.mpr ⟨hstatus,
        List.forall_mem_cons.mpr ⟨Event.not_isRebasing nofun, hhead⟩⟩, fun event hevent => ?_⟩
      rw [List.mem_singleton.mp hevent]
      split <;> exact Event.not_isRebasing nofun

/-- **A CONFIRMED RUN TELLS EACH RULE ONCE**, in the order of the plan, with its number and the
    number of all. -/
theorem Run.filter_isRebasing {b : Backend σ} (h : b.LeavesRules) (plan : Plan) (s : σ) :
    (Run.execute b true plan s).1.events.filter (·.IsRebasing)
      = plan.rebasingFrom plan.length 1 := by
  obtain ⟨actions, restore, rules, closing, hexchanges, hevents, hrules, -, hclosing⟩ :=
    Run.exists_behind_opening b plan s
  have hleaves : ∀ e ∈ (Run.execute b true plan s).1.exchanges, e.LeavesRules :=
    Session.forall_exchange (P := Exchange.LeavesRules) (fun c s => h c s) plan s
  rw [hexchanges, List.forall_mem_append, List.forall_mem_append] at hleaves
  have hopening := filter_isRebasing_eq_nil (Opening.forall_not_isRebasing h s)
  have hback : ∀ event ∈ Event.restoring (Opening.run b s).1.origin.target :: closing,
      ¬ event.IsRebasing :=
    List.forall_mem_cons.mpr ⟨Event.not_isRebasing nofun, hclosing.forall_not_isRebasing hleaves.2⟩
  rw [hevents, List.filter_append, List.filter_append, hopening, filter_isRebasing_eq_nil hback,
    hrules.filter_isRebasing hleaves.1.2, List.nil_append, List.append_nil]

/-! ## The two runs of a plan -/

/-- The run shows these rules as planned, each in a line that is taken apart at its first arrow
    between spaces, and counts them. -/
structure Run.ShowsPlan (run : Run) (plan : Plan) : Prop where
  rules : (run.events.filter (·.IsPlanned)).map Event.plannedRule? = plan.map some
  count : run.events.filterMap (·.number? "rules") = [(plan.length : Int)]

/-- The run tells that these rules are carried out, and with each of them how many they are. -/
structure Run.TellsPlan (run : Run) (plan : Plan) : Prop where
  rules : (run.events.filter (·.IsRebasing)).map Event.rebasingRule? = plan.map some
  total : (run.events.filter (·.IsRebasing)).map (·.number? "total")
    = plan.map fun _ => some (plan.length : Int)

/-- An unconfirmed run shows the rules of its plan, in their order. -/
theorem Run.filter_isPlanned_dry (plan : Plan) :
    (Run.dry plan).events.filter (·.IsPlanned) = plan.map .planned := by
  have hcount : ¬ (Event.dryRun plan.length).IsPlanned := by simp [Event.isPlanned_iff]
  show (Event.dryRun plan.length :: plan.map .planned).filter (·.IsPlanned) = _
  rw [List.filter_cons_of_neg (by simpa using hcount), List.filter_eq_self]
  intro event hevent
  obtain ⟨rule, -, rfl⟩ := List.mem_map.mp hevent
  exact decide_eq_true (Event.isPlanned_planned rule)

/-- An unconfirmed run shows a plan whose rules can be printed. -/
theorem Run.showsPlan_dry {plan : Plan} (h : ∀ rule ∈ plan, rule.Printable) :
    (Run.dry plan).ShowsPlan plan where
  rules := by
    rw [filter_isPlanned_dry, List.map_map]
    exact List.map_congr_left fun rule hrule => Rule.shownAs_text (h rule hrule).branch.noArrow
  count := by
    have hrules : (plan.map Event.planned).filterMap (·.number? "rules") = [] := by
      rw [List.filterMap_map, List.filterMap_eq_nil_iff]
      intro rule _
      rfl
    show _ :: (plan.map Event.planned).filterMap _ = _
    rw [hrules]

/-- A confirmed run tells its plan, with the number of each rule and of all. -/
theorem Run.tellsPlan_confirmed {b : Backend σ} (h : b.LeavesRules) (plan : Plan) (s : σ) :
    (Run.execute b true plan s).1.TellsPlan plan where
  rules := by
    rw [filter_isRebasing h, Plan.rebasingFrom, List.map_map]
    show (plan.zipIdx 1).map (some ∘ Prod.fst) = _
    rw [← List.map_map, List.zipIdx_map_fst]
  total := by
    rw [filter_isRebasing h, Plan.rebasingFrom, List.map_map]
    show (plan.zipIdx 1).map ((fun _ => some (plan.length : Int)) ∘ Prod.fst) = _
    rw [← List.map_map, List.zipIdx_map_fst]

/-- **THE PLAN THAT IS SHOWN IS CARRIED OUT.**  The lines of an unconfirmed run show a plan, which
    is the one that the significant lines of the file tell, chain marks resolved.  Its rules are
    what a confirmed run asks the backend for between finding out where it starts and the way back,
    and they are the rules that the run tells.  Two files whose lines are shown alike lead to the
    same calls. -/
theorem Run.dry_run_foretells {content : String} {plan : Plan}
    (h : (Plan.read content).plan = .ok plan) (b : Backend σ) (s : σ) :
    let dry := (Run.execute b false plan s).1
    (∃ shown : Plan, dry.ShowsPlan shown ∧ shown.IsToldBy (Plan.significantLines content) ∧
      (∃ queries target, StartsAt b s queries target ∧
        Run.callsSeen b plan s =
          .status :: queries ++ shown.flatMap Rule.calls ++ [.checkout target]) ∧
      (Run.execute b.muted true plan s).1.TellsPlan shown ∧
      (b.LeavesRules → (Run.execute b true plan s).1.TellsPlan shown)) ∧
    ∀ other plan', (Plan.read other).plan = .ok plan' →
      ((Run.dry plan').events.filter (·.IsPlanned)).map (·.string? "rule")
        = (dry.events.filter (·.IsPlanned)).map (·.string? "rule") →
      Run.callsSeen b plan' s = Run.callsSeen b plan s := by
  intro dry
  have hprintable := Plan.rules_printable_of_read h
  refine ⟨⟨plan, showsPlan_dry hprintable, (Plan.read_eq_ok_iff.mp h).isToldBy, ?_,
    tellsPlan_confirmed b.leavesRules_muted plan s, fun hb => tellsPlan_confirmed hb plan s⟩, ?_⟩
  · obtain ⟨queries, hstart, hqueries⟩ := Opening.startsAt_run b s
    refine ⟨queries, _, hstart, ?_⟩
    rw [Run.callsSeen_eq, Session.calls_run, hqueries]
  · intro other plan' h' hsame
    have hshown := (showsPlan_dry hprintable).rules
    have hshown' := (showsPlan_dry (Plan.rules_printable_of_read h')).rules
    -- the rules are read off the texts, so equal texts show equal rules
    have hread : ∀ events : List Event, events.map Event.plannedRule?
        = (events.map (·.string? "rule")).map (·.bind Rule.shownAs?) := by
      intro events
      rw [List.map_map]
      rfl
    rw [hread, hsame, ← hread] at hshown'
    have heq : plan' = plan :=
      List.map_injective_iff.mpr (fun _ _ => Option.some.inj) (hshown'.symm.trans hshown)
    rw [heq]

/-- A base with arrows in it, and a chain mark below it.  So it is told over replies that stand
    fixed, and over the version-control program. -/
theorem Run.dry_run_foretells_arrows :
    let content := "topic -> a -> b\nnext=>^"
    let plan : Plan := [⟨"topic", "a -> b"⟩, ⟨"next", "topic"⟩]
    let git := Git.backend ⟨Disk.ofList [([], .directory)], [], []⟩ Programs.scripted
      (Path.ofString "/git") none
    (Plan.read content).plan = .ok plan ∧
      (Run.dry plan).events.filterMap (·.string? "rule") = ["topic -> a -> b", "next -> topic"] ∧
      (∃ shown : Plan, (Run.dry plan).ShowsPlan shown ∧
        (Run.execute Backend.scripted true plan []).1.TellsPlan shown) ∧
      ∃ shown : Plan, (Run.dry plan).ShowsPlan shown ∧
        (Run.execute git true plan ({}, [])).1.TellsPlan shown := by
  intro content plan git
  have hread : (Plan.read content).plan = .ok plan := by decide
  have hgit : git.LeavesRules := Git.leavesRules_backend _ Programs.scripted _ none
  obtain ⟨⟨shown, hshown, -, -, -, htold⟩, -⟩ := Run.dry_run_foretells hread Backend.scripted []
  obtain ⟨⟨shown', hshown', -, -, -, htold'⟩, -⟩ := Run.dry_run_foretells hread git ({}, [])
  exact ⟨hread, by decide, ⟨shown, hshown, htold fun _ _ => nofun⟩, shown', hshown', htold' hgit⟩

end RebasePlan
