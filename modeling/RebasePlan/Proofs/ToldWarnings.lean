import RebasePlan.Executor
import RebasePlan.Proofs.Replay

/-! # What is told of warnings

    The warnings of a run are kept in its report and told as events, in two
    different places.  `Tells` says of a stretch of events what they have to do
    with exchanges: they tell the warnings of these, one after the other, and
    besides only what is no warning (`Event.Quiet`).  Each part of a run is such
    a stretch, and so is the whole but for one event, which warns of a starting
    point that is unknown.

    A backend may tell events of its own.  What a run tells by itself is what it
    tells over a backend that is muted (`Backend.muted`); a discreet backend,
    which tells of no warnings, changes nothing about it
    (`Run.tellsWarnings_of_discreet`).  The version-control program is discreet. -/

namespace RebasePlan

variable {σ : Type}

/-! ## Events that tell warnings -/

namespace Event

/-- The event tells what a command left on its error output. -/
def TellsWarning (e : Event) : Prop := ("reason", FieldValue.quoted "stderr") ∈ e.fields

instance (e : Event) : Decidable e.TellsWarning := inferInstanceAs (Decidable (_ ∈ _))

/-- The event warns of nothing. -/
def Quiet (e : Event) : Prop := ¬ e.TellsWarning ∧ e.severity ≠ .warn

/-- A warning is told by the event for warnings and by no other, whatever it shows. -/
theorem tellsWarning_iff {e : Event} :
    e.TellsWarning ↔ ∃ severity warning, e = .warned severity warning := by
  cases e <;> simp [TellsWarning, fields, reason]

theorem quiet_of {e : Event} (htells : ∀ severity warning, e ≠ .warned severity warning)
    (hseverity : e.severity ≠ .warn) : e.Quiet := by
  refine ⟨fun h => ?_, hseverity⟩
  obtain ⟨severity, warning, he⟩ := tellsWarning_iff.mp h
  exact htells severity warning he

end Event

/-- The call asks for something and changes nothing. -/
def Call.isQuery : Call → Bool
  | status | showHead => true
  | checkout _ | rebase _ => false

namespace Exchange

/-- How serious the warning of an exchange is: a query that did not fail is only worth a note. -/
def warningSeverity (e : Exchange) (w : Warning) : Severity :=
  if e.call.isQuery = true ∧ w.isFailure = false then .debug else .warn

/-- The event for the warning of an exchange, if there is a warning. -/
def warningEvent? (e : Exchange) : Option Event :=
  e.reply.warning?.map fun w => .warned (e.warningSeverity w) w

/-- The event for what a checkout or a rebase printed, unless it is blank. -/
def printedEvent? (e : Exchange) : Option Event :=
  e.reply.output?.bind fun output =>
    if trimmed output.stdout = "" then none
    else some (.printed .info e.reply.command (trimmed output.stdout))

theorem tellsWarning_of_mem {e : Exchange} {event : Event} (h : event ∈ e.warningEvent?.toList) :
    event.TellsWarning := by
  obtain ⟨warning, -, rfl⟩ := Option.map_eq_some_iff.mp (Option.mem_toList.mp h)
  exact Event.tellsWarning_iff.mpr ⟨_, _, rfl⟩

/-- A checkout or a rebase tells what it printed, and then its warning. -/
theorem actionEvents_eq {e : Exchange} (h : e.call.isQuery = false) :
    e.actionEvents = e.log ++ e.printedEvent?.toList ++ e.warningEvent?.toList := by
  have hprinted : (e.reply.output?.toList.flatMap fun output =>
      if (trimmed output.stdout).isEmpty then []
      else [Event.printed .info e.reply.command (trimmed output.stdout)])
        = e.printedEvent?.toList := by
    rw [printedEvent?]
    cases e.reply.output? with
    | none => rfl
    | some output =>
        simp only [Option.toList_some, List.flatMap_singleton, Option.bind_some,
          String.isEmpty_iff]
        split <;> rfl
  have hwarned : (e.reply.warning?.toList.map fun w => Event.warned .warn w)
      = e.warningEvent?.toList := by
    simp only [warningEvent?, warningSeverity, h, Bool.false_eq_true, false_and, if_false]
    cases e.reply.warning? <;> rfl
  rw [← hprinted, ← hwarned]
  rfl

/-- A query tells the first line that it printed, and then its warning. -/
theorem queryEvents_eq {e : Exchange} (h : e.call.isQuery = true) :
    e.queryEvents = e.log ++ (e.reply.output?.toList.map fun output =>
      Event.printed .debug e.reply.command (Text.firstLine output.stdout)) ++
        e.warningEvent?.toList := by
  have hwarned : (e.reply.warning?.toList.map fun w =>
      Event.warned (if w.isFailure then .warn else .debug) w) = e.warningEvent?.toList := by
    simp only [warningEvent?, warningSeverity, h, true_and]
    cases e.reply.warning? with
    | none => rfl
    | some w => cases hw : w.isFailure <;> simp [hw]
  rw [← hwarned]
  rfl

end Exchange

/-- Events that tell the warnings of exchanges, one after the other, and besides nothing to warn
    of. -/
inductive Tells : List Exchange → List Event → Prop where
  | done : Tells [] []
  | quiet {event : Event} {exchanges : List Exchange} {events : List Event} :
      event.Quiet → Tells exchanges events → Tells exchanges (event :: events)
  | warning {e : Exchange} {exchanges : List Exchange} {events : List Event} :
      Tells exchanges events → Tells (e :: exchanges) (e.warningEvent?.toList ++ events)

namespace Tells

variable {exchanges exchanges' : List Exchange} {events events' : List Event}

/-- What tells two runs of calls, one behind the other, tells them together. -/
theorem append (h : Tells exchanges events) (h' : Tells exchanges' events') :
    Tells (exchanges ++ exchanges') (events ++ events') := by
  induction h with
  | done => exact h'
  | quiet hq _ ih => exact .quiet hq ih
  | warning _ ih =>
      rw [List.append_assoc]
      exact .warning ih

theorem of_quiet (h : ∀ event ∈ events, event.Quiet) : Tells [] events := by
  induction events with
  | nil => exact .done
  | cons event events ih =>
      rw [List.forall_mem_cons] at h
      exact .quiet h.1 (ih h.2)

/-- Quiet events in front of a warning belong to its exchange. -/
theorem single {e : Exchange} (h : ∀ event ∈ events, event.Quiet) :
    Tells [e] (events ++ e.warningEvent?.toList) := by
  have hwarning : Tells [e] (e.warningEvent?.toList ++ []) := .warning .done
  rw [List.append_nil] at hwarning
  exact (of_quiet h).append hwarning

/-- What is told of warnings are the warnings of the exchanges. -/
theorem filter_tellsWarning (h : Tells exchanges events) :
    events.filter (·.TellsWarning) = exchanges.filterMap Exchange.warningEvent? := by
  induction h with
  | done => rfl
  | quiet hq _ ih =>
      rw [List.filter_cons_of_neg (by simpa using hq.1)]
      exact ih
  | @warning e exchanges events _ ih =>
      have hall : e.warningEvent?.toList.filter (·.TellsWarning) = e.warningEvent?.toList :=
        List.filter_eq_self.mpr fun event hevent =>
          decide_eq_true (Exchange.tellsWarning_of_mem hevent)
      rw [List.filter_append, hall, ih]
      cases he : e.warningEvent? with
      | none => rw [List.filterMap_cons_none he, Option.toList_none, List.nil_append]
      | some event => rw [List.filterMap_cons_some he, Option.toList_some, List.singleton_append]

/-- There is nothing else to warn of. -/
theorem filter_other (h : Tells exchanges events) :
    events.filter (fun event => event.severity = .warn ∧ ¬ event.TellsWarning) = [] := by
  rw [List.filter_eq_nil_iff]
  induction h with
  | done => exact nofun
  | quiet hq _ ih =>
      refine List.forall_mem_cons.mpr ⟨fun hwarn => ?_, ih⟩
      exact hq.2 (of_decide_eq_true hwarn).1
  | warning _ ih =>
      refine List.forall_mem_append.mpr ⟨fun event hevent hwarn => ?_, ih⟩
      exact (of_decide_eq_true hwarn).2 (Exchange.tellsWarning_of_mem hevent)

end Tells

/-! ## One exchange -/

/-- A backend tells nothing to warn of by itself. -/
def Backend.Discreet (b : Backend σ) : Prop :=
  ∀ c s, ∀ event ∈ (b.answer c s).1.log, event.Quiet

/-- What the backend told during an exchange warns of nothing. -/
def Exchange.Discreet (e : Exchange) : Prop := ∀ event ∈ e.log, event.Quiet

/-- A query tells its own warning and nothing else to warn of. -/
theorem Exchange.Discreet.tells_query {e : Exchange} (h : e.Discreet)
    (hcall : e.call.isQuery = true) : Tells [e] e.queryEvents := by
  rw [e.queryEvents_eq hcall]
  refine .single (List.forall_mem_append.mpr ⟨h, fun event hevent => ?_⟩)
  obtain ⟨output, -, rfl⟩ := List.mem_map.mp hevent
  exact Event.quiet_of nofun nofun

/-- The events of calls that change something, one call after the other: behind what the backend
    told comes what the call printed, and then its warning. -/
inductive TellsActions : List Exchange → List Event → Prop where
  | done : TellsActions [] []
  | action {e : Exchange} {exchanges : List Exchange} {events : List Event} :
      TellsActions exchanges events →
      TellsActions (e :: exchanges)
        (e.log ++ e.printedEvent?.toList ++ e.warningEvent?.toList ++ events)

theorem TellsActions.of_action {e : Exchange} {exchanges : List Exchange} {events : List Event}
    (hcall : e.call.isQuery = false) (h : TellsActions exchanges events) :
    TellsActions (e :: exchanges) (e.actionEvents ++ events) := by
  rw [Exchange.actionEvents_eq hcall]
  exact .action h

theorem TellsActions.single {e : Exchange} (hcall : e.call.isQuery = false) :
    TellsActions [e] e.actionEvents := by
  have h := TellsActions.of_action hcall .done
  rw [List.append_nil] at h
  exact h

/-- What the calls tell are their warnings, and besides nothing to warn of. -/
theorem TellsActions.tells {exchanges : List Exchange} {events : List Event}
    (h : TellsActions exchanges events) (hdiscreet : ∀ e ∈ exchanges, e.Discreet) :
    Tells exchanges events := by
  induction h with
  | done => exact .done
  | @action e exchanges events _ ih =>
      rw [List.forall_mem_cons] at hdiscreet
      have hquiet : ∀ event ∈ e.log ++ e.printedEvent?.toList, event.Quiet := by
        refine List.forall_mem_append.mpr ⟨hdiscreet.1, fun event hevent => ?_⟩
        obtain ⟨output, -, hprinted⟩ := Option.bind_eq_some_iff.mp (Option.mem_toList.mp hevent)
        split at hprinted
        · exact nomatch hprinted
        · obtain rfl := Option.some.inj hprinted
          exact Event.quiet_of nofun nofun
      exact (Tells.single hquiet).append (ih hdiscreet.2)

/-! ## The rules -/

/-- The events of a plan's rules, the first of which is number `n` of `total`: each rule is told
    with its number, and behind it the checkout and the rebase that it asks for. -/
inductive TellsRules (total : Nat) : Nat → Plan → List Exchange → List Event → Prop where
  | done {n : Nat} : TellsRules total n [] [] []
  | rule {n : Nat} {rule : Rule} {plan : Plan} {checkout rebase : Exchange}
      {exchanges : List Exchange} {body events : List Event} :
      checkout.call = .checkout rule.branch → rebase.call = .rebase rule.base →
      TellsActions [checkout, rebase] body → TellsRules total (n + 1) plan exchanges events →
      TellsRules total n (rule :: plan) (checkout :: rebase :: exchanges)
        (.rebasing n total rule :: body ++ events)

/-- The rules tell the warnings of their calls, by induction on the plan. -/
theorem TellsRules.tells {total n : Nat} {plan : Plan} {exchanges : List Exchange}
    {events : List Event} (h : TellsRules total n plan exchanges events)
    (hdiscreet : ∀ e ∈ exchanges, e.Discreet) : Tells exchanges events := by
  induction h with
  | done => exact .done
  | @rule n rule plan checkout rebase exchanges body events _ _ hbody _ ih =>
      have hsplit : checkout :: rebase :: exchanges = [checkout, rebase] ++ exchanges := rfl
      rw [hsplit, List.forall_mem_append] at hdiscreet
      have hfirst : Tells [checkout, rebase] (.rebasing n total rule :: body) :=
        .quiet (Event.quiet_of nofun nofun) (hbody.tells hdiscreet.1)
      exact hfirst.append (ih hdiscreet.2)

theorem RuleStep.length_runAll (b : Backend σ) (plan : Plan) (s : σ) :
    (RuleStep.runAll b plan s).1.length = plan.length := by
  induction plan generalizing s with
  | nil => rfl
  | cons rule plan ih => rw [RuleStep.runAll_cons, List.length_cons, List.length_cons, ih]

/-- **THE RULES ARE TOLD ONE BY ONE**, with the calls that carry them out. -/
theorem RuleStep.tellsRules_runAll (b : Backend σ) (total n : Nat) (plan : Plan) (s : σ) :
    TellsRules total n plan ((RuleStep.runAll b plan s).1.flatMap RuleStep.exchanges)
      (RuleStep.eventsFrom total n (RuleStep.runAll b plan s).1) := by
  induction plan generalizing n s with
  | nil => exact .done
  | cons rule plan ih =>
      obtain ⟨checkout, rebase, hstep, hcheckout, hrebase⟩ : ∃ checkout rebase,
          (RuleStep.step b rule s).1 = ⟨rule, checkout, rebase⟩ ∧
            checkout.call = .checkout rule.branch ∧ rebase.call = .rebase rule.base :=
        ⟨_, _, rfl, rfl, rfl⟩
      have hbody : TellsActions [checkout, rebase]
          (checkout.actionEvents ++ rebase.actionEvents) := by
        have hlast := TellsActions.single (e := rebase) (by rw [hrebase]; rfl)
        exact .of_action (by rw [hcheckout]; rfl) hlast
      rw [RuleStep.runAll_cons, List.flatMap_cons, hstep]
      exact .rule hcheckout hrebase hbody (ih (n + 1) _)

/-! ## The opening -/

theorem Opening.events_of_branch {status : Exchange} {name : String}
    (h : status.branch? = some name) :
    Opening.events ⟨status, none⟩ = status.queryEvents ++ [.startingBranch name] := by
  simp only [Opening.events, Opening.origin, h]

/-- An opening without a branch tells both queries, and what is known of the head. -/
theorem Opening.events_of_head {status : Exchange} (h : status.branch? = none) (head : Exchange) :
    Opening.events ⟨status, some head⟩ = status.queryEvents ++ .noBranch :: head.queryEvents ++
      [match head.commit? with
        | some name => .startingCommit name
        | none => .headUnknown] := by
  simp only [Opening.events, Opening.origin, h, Option.bind_some, Option.toList_some,
    List.flatMap_singleton]
  cases head.commit? with
  | none => simp
  | some name => simp

/-- **THE QUERIES ARE TOLD**, and then where the run starts.  That is a warning just if it is not
    known. -/
theorem Opening.tells_run {b : Backend σ} (h : b.Discreet) (s : σ) :
    let opening := (Opening.run b s).1
    ∃ told last, opening.events = told ++ [last] ∧ Tells opening.exchanges told ∧
      ((opening.origin.name? = none ∧ last = .headUnknown) ∨
        (opening.origin.name? ≠ none ∧ last.Quiet)) := by
  intro opening
  have hnoBranch : Event.noBranch.Quiet := Event.quiet_of nofun nofun
  have hquiet : ∀ name, (Event.startingBranch name).Quiet ∧ (Event.startingCommit name).Quiet :=
    fun _ => ⟨Event.quiet_of nofun nofun, Event.quiet_of nofun nofun⟩
  have hdiscreet : ∀ c s, (b.exchange c s).1.Discreet := fun c s => h c s
  have hstatus : Tells [(b.exchange .status s).1] (b.exchange .status s).1.queryEvents :=
    (hdiscreet .status s).tells_query rfl
  cases hbranch : (b.exchange .status s).1.branch? with
  | some name =>
      have hopening : opening = ⟨(b.exchange .status s).1, none⟩ :=
        (Opening.run_of_branch (Reply.names_iff.mpr hbranch)).1
      rw [hopening, Opening.events_of_branch hbranch]
      refine ⟨_, _, rfl, hstatus, Or.inr ⟨?_, (hquiet name).1⟩⟩
      simp [Opening.origin, hbranch, Origin.name?]
  | none =>
      have hopening : opening = ⟨(b.exchange .status s).1,
          some (b.exchange .showHead (b.exchange .status s).2).1⟩ :=
        (Opening.run_of_no_branch (Reply.names_nothing_iff.mpr hbranch)).1
      have hhead := (hdiscreet .showHead (b.exchange .status s).2).tells_query rfl
      rw [hopening, Opening.events_of_head hbranch]
      refine ⟨_, _, rfl, hstatus.append (.quiet hnoBranch hhead), ?_⟩
      simp only [Opening.origin, hbranch, Option.bind_some]
      cases (b.exchange .showHead (b.exchange .status s).2).1.commit? with
      | none => exact Or.inl ⟨rfl, rfl⟩
      | some name => exact Or.inr ⟨Option.some_ne_none name, (hquiet name).2⟩

/-- The opening tells the warnings of its queries. -/
theorem Opening.filter_tellsWarning {b : Backend σ} (h : b.Discreet) (s : σ) :
    let opening := (Opening.run b s).1
    opening.events.filter (·.TellsWarning) =
      opening.exchanges.filterMap Exchange.warningEvent? := by
  intro opening
  obtain ⟨told, last, hevents, htold, hlast⟩ := Opening.tells_run h s
  have hlastTells : ¬ last.TellsWarning := by
    rcases hlast with ⟨-, rfl⟩ | ⟨-, hquiet⟩
    · decide
    · exact hquiet.1
  rw [hevents, List.filter_append, htold.filter_tellsWarning,
    List.filter_cons_of_neg (by simpa using hlastTells), List.filter_nil, List.append_nil]

/-- The opening warns of nothing else but a starting point that is not known. -/
theorem Opening.filter_other {b : Backend σ} (h : b.Discreet) (s : σ) :
    let opening := (Opening.run b s).1
    opening.events.filter (fun event => event.severity = .warn ∧ ¬ event.TellsWarning) =
      if opening.origin.name? = none then [.headUnknown] else [] := by
  intro opening
  obtain ⟨told, last, hevents, htold, hlast⟩ := Opening.tells_run h s
  rw [hevents, List.filter_append, htold.filter_other, List.nil_append]
  rcases hlast with ⟨hnone, rfl⟩ | ⟨hsome, hquiet⟩
  · rw [if_pos hnone]
    rfl
  · rw [if_neg hsome, List.filter_cons_of_neg (by simpa using fun hwarn => absurd hwarn hquiet.2)]
    rfl

/-- The opening only asks. -/
theorem Opening.isQuery_run (b : Backend σ) (s : σ) :
    ∀ e ∈ (Opening.run b s).1.exchanges, e.call.isQuery = true := by
  obtain ⟨queries, hstart, hcalls⟩ := Opening.startsAt_run b s
  have hall : ∀ c ∈ (Opening.run b s).1.exchanges.map Exchange.call, c.isQuery = true := by
    rw [hcalls]
    rcases hstart.queries_eq with ⟨rfl, -⟩ | ⟨rfl, -⟩
    · decide
    · decide
  exact fun e he => hall e.call (List.mem_map_of_mem he)

/-! ## Whole runs -/

/-- The events of a run come in order: first those of the queries, then those of the rules, each
    behind its own number, and behind the reference that is returned to those of the way back. -/
def Run.ToldInOrder (run : Run) (plan : Plan) : Prop :=
  ∃ queries actions restore opening rules closing target,
    run.exchanges = queries ++ actions ++ [restore] ∧
    run.events = opening ++ rules ++ .restoring target :: closing ∧
    (∀ e ∈ queries, e.call.isQuery = true) ∧
    opening.filter (·.TellsWarning) = queries.filterMap Exchange.warningEvent? ∧
    TellsRules plan.length 1 plan actions rules ∧
    restore.call = .checkout target ∧ TellsActions [restore] closing

/-- A run tells the warnings of its report, in the same words and order, each once and as serious as
    its call makes it; and it warns of nothing else but a starting point that is not known. -/
structure Run.TellsWarnings (run : Run) (plan : Plan) : Prop where
  texts : (run.events.filter (·.TellsWarning)).map Event.message =
    run.report.warnings.map Warning.message
  severities : run.events.filter (·.TellsWarning) =
    run.exchanges.filterMap Exchange.warningEvent?
  others : run.events.filter (fun event => event.severity = .warn ∧ ¬ event.TellsWarning) =
    if run.report.origin = none then [.headUnknown] else []
  inOrder : run.ToldInOrder plan

/-- The text of an event for a warning is that of the warning. -/
theorem Exchange.map_message_filterMap (exchanges : List Exchange) :
    (exchanges.filterMap Exchange.warningEvent?).map Event.message =
      (exchanges.filterMap fun e => e.reply.warning?).map Warning.message := by
  rw [List.map_filterMap, List.map_filterMap]
  refine List.filterMap_congr fun e _ => ?_
  rw [Exchange.warningEvent?, Option.map_map]
  rfl

/-- What comes behind the opening of a run: the rules of its plan, and the way back. -/
theorem Run.exists_behind_opening (b : Backend σ) (plan : Plan) (s : σ) :
    let run := (Run.execute b true plan s).1
    let opening := (Opening.run b s).1
    ∃ actions restore rules closing,
      run.exchanges = opening.exchanges ++ actions ++ [restore] ∧
      run.events = opening.events ++ rules ++ .restoring opening.origin.target :: closing ∧
      TellsRules plan.length 1 plan actions rules ∧
      restore.call = .checkout opening.origin.target ∧ TellsActions [restore] closing := by
  intro run opening
  have hrules := RuleStep.tellsRules_runAll b plan.length 1 plan (Opening.run b s).2
  obtain ⟨restore, hrun, hcall⟩ : ∃ restore, run = Run.ofSession
      ⟨opening, (RuleStep.runAll b plan (Opening.run b s).2).1, restore⟩ ∧
        restore.call = .checkout opening.origin.target := ⟨_, rfl, rfl⟩
  refine ⟨_, restore, _, restore.actionEvents, by rw [hrun]; rfl, ?_, hrules, hcall,
    .single (by rw [hcall]; rfl)⟩
  rw [hrun]
  show Session.events _ = _
  rw [Session.events, RuleStep.length_runAll]

/-- **A RUN OVER A DISCREET BACKEND TELLS ITS WARNINGS.** -/
theorem Run.tellsWarnings_of_discreet {b : Backend σ} (h : b.Discreet) (plan : Plan) (s : σ) :
    (Run.execute b true plan s).1.TellsWarnings plan := by
  obtain ⟨actions, restore, rules, closing, hexchanges, hevents, hrules, hcall, hclosing⟩ :=
    Run.exists_behind_opening b plan s
  have hdiscreet : ∀ e ∈ (Run.execute b true plan s).1.exchanges, e.Discreet :=
    Session.forall_exchange (P := Exchange.Discreet) (fun c s => h c s) plan s
  have horigin : (Run.execute b true plan s).1.report.origin =
    (Opening.run b s).1.origin.name? := rfl
  have hwarnings : (Run.execute b true plan s).1.report.warnings =
    (Run.execute b true plan s).1.exchanges.filterMap fun e => e.reply.warning? := rfl
  generalize (Run.execute b true plan s).1 = run at *
  rw [hexchanges, List.forall_mem_append, List.forall_mem_append] at hdiscreet
  have hback : Tells (actions ++ [restore])
      (rules ++ .restoring (Opening.run b s).1.origin.target :: closing) :=
    (hrules.tells hdiscreet.1.2).append
      (.quiet (Event.quiet_of nofun nofun) (hclosing.tells hdiscreet.2))
  have hseverities : run.events.filter (·.TellsWarning) =
      run.exchanges.filterMap Exchange.warningEvent? := by
    rw [hevents, List.append_assoc, List.filter_append, Opening.filter_tellsWarning h,
      hback.filter_tellsWarning, ← List.filterMap_append, ← List.append_assoc, ← hexchanges]
  refine ⟨?_, hseverities, ?_, ?_⟩
  · rw [hseverities, hwarnings, Exchange.map_message_filterMap]
  · rw [hevents, List.append_assoc, List.filter_append, Opening.filter_other h,
      hback.filter_other, List.append_nil, horigin]
  · exact ⟨_, actions, restore, _, rules, closing, _, hexchanges, hevents,
      Opening.isQuery_run b s, Opening.filter_tellsWarning h s, hrules, hcall, hclosing⟩

/-! ## Backends that tell events of their own -/

/-- A backend that answers as before and tells nothing by itself. -/
def Backend.muted (b : Backend σ) : Backend σ where
  answer c s := (⟨(b.answer c s).1.reply, []⟩, (b.answer c s).2)

theorem Backend.discreet_muted (b : Backend σ) : b.muted.Discreet := fun _ _ => nofun

/-- An exchange without what the backend told. -/
def Exchange.muted (e : Exchange) : Exchange := { e with log := [] }

/-- An exchange with a muted backend is the exchange, less what was told. -/
theorem Backend.exchange_muted (b : Backend σ) (c : Call) (s : σ) :
    b.muted.exchange c s = ((b.exchange c s).1.muted, (b.exchange c s).2) := rfl

def Opening.muted (o : Opening) : Opening := ⟨o.status.muted, o.showHead.map Exchange.muted⟩

/-- So is an opening, since the way that it takes depends on the outcomes alone. -/
theorem Opening.run_muted (b : Backend σ) (s : σ) :
    Opening.run b.muted s = ((Opening.run b s).1.muted, (Opening.run b s).2) := by
  have hsame : (b.exchange .status s).1.muted.branch? = (b.exchange .status s).1.branch? := rfl
  simp only [Opening.run, Backend.exchange_muted, hsame]
  cases (b.exchange .status s).1.branch? with
  | some name => rfl
  | none => rfl

theorem Opening.origin_muted (o : Opening) : o.muted.origin = o.origin := by
  obtain ⟨status, showHead⟩ := o
  cases showHead with
  | none => rfl
  | some head => rfl

def RuleStep.muted (r : RuleStep) : RuleStep := ⟨r.rule, r.checkout.muted, r.rebase.muted⟩

/-- So are the steps of a plan, by induction on its rules. -/
theorem RuleStep.runAll_muted (b : Backend σ) (plan : Plan) (s : σ) :
    RuleStep.runAll b.muted plan s =
      ((RuleStep.runAll b plan s).1.map RuleStep.muted, (RuleStep.runAll b plan s).2) := by
  induction plan generalizing s with
  | nil => rfl
  | cons rule plan ih =>
      rw [RuleStep.runAll_cons, RuleStep.runAll_cons]
      simp only [RuleStep.step, Backend.exchange_muted, ih]
      rfl

theorem RuleStep.exchanges_map_muted (steps : List RuleStep) :
    (steps.map RuleStep.muted).flatMap RuleStep.exchanges =
      (steps.flatMap RuleStep.exchanges).map Exchange.muted := by
  rw [List.flatMap_map, List.map_flatMap]
  rfl

def Session.muted (session : Session) : Session :=
  ⟨session.opening.muted, session.steps.map RuleStep.muted, session.restore.muted⟩

/-- **A MUTED BACKEND LEADS THE SAME SESSION**, less what it told. -/
theorem Session.run_muted (b : Backend σ) (plan : Plan) (s : σ) :
    Session.run b.muted plan s = ((Session.run b plan s).1.muted, (Session.run b plan s).2) := by
  simp only [Session.run, Opening.run_muted, Opening.origin_muted, RuleStep.runAll_muted,
    Backend.exchange_muted]
  rfl

theorem Session.exchanges_muted (session : Session) :
    session.muted.exchanges = session.exchanges.map Exchange.muted := by
  obtain ⟨⟨status, showHead⟩, steps, restore⟩ := session
  simp only [exchanges, muted, RuleStep.exchanges_map_muted, List.map_append]
  cases showHead with
  | none => rfl
  | some head => rfl

/-- The report has nothing of what a backend told. -/
theorem Session.report_muted (session : Session) : session.muted.report = session.report := by
  have horigin : session.muted.opening.origin = session.opening.origin :=
    session.opening.origin_muted
  simp only [report, exchanges_muted, horigin, List.length_map, List.filterMap_map]
  rfl

/-- The report of a run does not depend on what the backend told. -/
theorem Run.report_muted (b : Backend σ) (plan : Plan) (s : σ) :
    (Run.execute b.muted true plan s).1.report = (Run.execute b true plan s).1.report := by
  show (Session.run b.muted plan s).1.report = (Session.run b plan s).1.report
  rw [Session.run_muted, Session.report_muted]

/-- What is told of a command is told by the part of the program that runs processes. -/
theorem Command.teller_run (command : Command) (computer : Computer) (programs : Programs σ)
    (state : Capture × σ) :
    ∀ event ∈ (command.run computer programs state).1.2, event.teller = .process := by
  have hstart : ∀ event ∈ command.startEvents, event.teller = .process := by
    refine List.forall_mem_append.mpr ⟨fun event hevent => ?_, fun event hevent => ?_⟩
    · obtain ⟨p, -, rfl⟩ := List.mem_map.mp hevent
      rfl
    · rw [List.mem_singleton.mp hevent]
      rfl
  rw [run]
  cases computer.start command with
  | error e => exact hstart
  | ok launch =>
      refine List.forall_mem_append.mpr ⟨hstart, fun event hevent => ?_⟩
      rw [List.mem_singleton.mp hevent]
      rfl

/-- What is told of processes warns of nothing. -/
theorem Event.quiet_of_process {e : Event} (h : e.teller = .process) : e.Quiet := by
  cases e <;> cases h <;> exact quiet_of nofun nofun

/-- So the version-control program is discreet. -/
theorem Git.discreet_backend (computer : Computer) (programs : Programs σ) (program : Path)
    (repository : Option Path) : (backend computer programs program repository).Discreet :=
  fun call state event hevent => Event.quiet_of_process
    ((command program repository call).teller_run computer programs state event hevent)

/-- **WARNINGS ARE TOLD ONCE**, in the words and the order of the report, each as serious as its
    call makes it.  So it is over any backend with what the run tells by itself, and with all that
    is told if the backend is discreet. -/
theorem Run.warnings_told_once (b : Backend σ) (plan : Plan) (s : σ) :
    (Run.execute b.muted true plan s).1.TellsWarnings plan ∧
    (Run.execute b.muted true plan s).1.report = (Run.execute b true plan s).1.report ∧
    (b.Discreet → (Run.execute b true plan s).1.TellsWarnings plan) :=
  ⟨Run.tellsWarnings_of_discreet b.discreet_muted plan s, Run.report_muted b plan s,
    fun h => Run.tellsWarnings_of_discreet h plan s⟩

/-- Chatter of a query, a query that fails, an exit that counts as an error, chatter of a rebase,
    and a starting point that stays unknown.  The version-control program leads such a run as well,
    here where there is none to be started. -/
theorem Run.warnings_told_of_trouble :
    let plan : Plan := [⟨"topic", "main"⟩]
    let script : List Outcome := [.ok { stderr := "hint: slow" }, .ok { exitCode := 128 },
      .error (.badExit "git checkout topic" 1), .ok { stdout := " done\n", stderr := "note\n" }]
    let run := (Run.execute Backend.scripted true plan script).1
    let git := Git.backend ⟨Disk.ofList [([], .directory)], [], []⟩ Programs.scripted
      (Path.ofString "/git") none
    Backend.scripted.Discreet ∧ run.TellsWarnings plan ∧
      (Run.execute git true plan ({}, [])).1.TellsWarnings plan ∧
      run.events.filter (·.severity = .warn) =
        [.warned .warn ⟨"git show --pretty=oneline HEAD", some 128, ""⟩, .headUnknown,
          .warned .warn ⟨"git checkout topic", some 1, ""⟩,
          .warned .warn ⟨"git rebase main", some 0, "note"⟩] := by
  intro plan script run git
  have hdiscreet : Backend.scripted.Discreet := fun _ _ => nofun
  have hgit : git.Discreet := Git.discreet_backend _ Programs.scripted _ none
  exact ⟨hdiscreet, (Run.warnings_told_once Backend.scripted plan script).2.2 hdiscreet,
    (Run.warnings_told_once git plan ({}, [])).2.2 hgit, by decide⟩

end RebasePlan
