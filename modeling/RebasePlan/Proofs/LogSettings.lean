import Mathlib.Data.List.Forall2
import RebasePlan.Proofs.JobOutcome

/-! # What the settings of the logs change

    Of the settings, three say where a run is told and how much of it.  Two
    settings that differ in these alone lead the same job: the same calls, the
    same processes, the same result (`Job.DoneAlike`).  The heart is that a job
    opens its settings at two places only, where it shows them, and where it
    looks for the program and the repository.

    What is told is then the same event by event, but for the lines that show
    the three (`Event.Alike`).  Each sink passes these events through a filter of
    its own, named after its least serious severity, and a lower verbosity passes
    a part of what a higher one passes (`Event.passing_eq_filter`). -/

namespace RebasePlan

variable {σ : Type}

/-! ## Two settings -/

/-- The settings differ in nothing but the logs. -/
structure Settings.WorkAlike (a b : Settings) : Prop where
  program : a.program = b.program
  repository : a.repository = b.repository

/-- The events are the same, or both show the same setting of the logs. -/
inductive Event.Alike : Event → Event → Prop where
  | same (e : Event) : Alike e e
  | setting {key : String} (global : "global.".toList <+: key.toList) (width : Nat)
      (value other : String) :
      Alike (.optionShown s!"{Settings.pad width key} = {value}")
        (.optionShown s!"{Settings.pad width key} = {other}")

/-- Events that are alike are equally serious. -/
theorem Event.Alike.severity_eq {e e' : Event} (h : e.Alike e') : e.severity = e'.severity := by
  cases h with
  | same => rfl
  | setting => rfl

theorem Event.forall₂_alike_self (events : List Event) : List.Forall₂ Event.Alike events events :=
  List.forall₂_same.mpr fun e _ => .same e

namespace Settings

variable {a b : Settings}

/-- The entries of the logs come first, and the others are the same. -/
theorem WorkAlike.forall₂_entries (h : a.WorkAlike b) :
    List.Forall₂ (fun e e' => e = e' ∨ e.1 = e'.1 ∧ "global.".toList <+: e.1.toList)
      a.entries b.entries := by
  have hfile : "global.".toList <+: "global.file_log_level".toList := by decide
  have hpath : "global.".toList <+: "global.log_file".toList := by decide
  have hconsole : "global.".toList <+: "global.output_log_level".toList := by decide
  rw [entries, entries, h.program, h.repository]
  exact .cons (Or.inr ⟨rfl, hfile⟩) (.cons (Or.inr ⟨rfl, hpath⟩)
    (.cons (Or.inr ⟨rfl, hconsole⟩) (.cons (Or.inl rfl) (.cons (Or.inl rfl) .nil))))

/-- The lines of two settings are the same, but for those that show the logs. -/
theorem WorkAlike.forall₂_lines (h : a.WorkAlike b) :
    List.Forall₂ Event.Alike (a.lines.map Event.optionShown) (b.lines.map Event.optionShown) := by
  -- the keys are those of any settings, and so is the width to which they are filled up
  have hkeys : (a.entries.map fun e => e.1.length) = b.entries.map fun e => e.1.length := rfl
  rw [lines, lines, hkeys, List.map_map, List.map_map, List.forall₂_map_left_iff,
    List.forall₂_map_right_iff]
  refine h.forall₂_entries.imp ?_
  rintro ⟨key, value⟩ ⟨key', value'⟩ hentry
  rcases hentry with heq | ⟨hkey, hglobal⟩
  · rw [heq]
    exact .same _
  · obtain rfl : key = key' := hkey
    exact .setting hglobal _ value value'

end Settings

/-! ## What is done -/

namespace Job

/-- Two jobs make the same calls with the same answers, start the same processes and come to the
    same result; and what they tell are the same events, but for the settings of the logs. -/
structure DoneAlike (j k : Job) (c : Computer) (programs : Programs σ) (s : σ) : Prop where
  calls : ∀ plan program start,
    j.runWith c programs plan program start = k.runWith c programs plan program start
  launches : j.launches c programs s = k.launches c programs s
  state : (j.run c programs s).2 = (k.run c programs s).2
  result : (j.run c programs s).1.result = (k.run c programs s).1.result
  told : List.Forall₂ Event.Alike (j.run c programs s).1.events (k.run c programs s).1.events

variable {a b : Settings}

/-- A plan is carried out without a look at the logs. -/
theorem apply_of_workAlike (h : a.WorkAlike b) (file : Path) (confirmed : Bool) (c : Computer)
    (programs : Programs σ) (plan : Plan) (s : σ) :
    apply ⟨a, file, confirmed⟩ c programs plan s
      = apply ⟨b, file, confirmed⟩ c programs plan s := by
  simp only [apply, h.program, h.repository]

/-- What a job tells before it does anything: its settings, and what there is to tell of the plan
    file. -/
def openingEvents (j : Job) (c : Computer) : List Event :=
  j.settings.lines.map Event.optionShown ++ (Plan.load c.disk c.directory j.plan).2

section Run

variable {j : Job} {c : Computer} {plan : Plan}

theorem run_eq_of_error (programs : Programs σ) (s : σ) {e : InputError}
    (h : (Plan.load c.disk c.directory j.plan).1 = .error e) :
    j.run c programs s = (⟨.error (.input e), j.openingEvents c⟩, s) := by
  rw [run_eq, h]
  rfl

theorem run_eq_of_unconfirmed (programs : Programs σ) (s : σ)
    (h : (Plan.load c.disk c.directory j.plan).1 = .ok plan) (hj : j.confirmed = false) :
    j.run c programs s = (⟨.ok (), j.openingEvents c ++ (Run.dry plan).events⟩, s) := by
  rw [run_eq, h, hj]
  rfl

/-- A confirmed job tells its opening and applies the plan. -/
theorem run_eq_of_confirmed (programs : Programs σ) (s : σ)
    (h : (Plan.load c.disk c.directory j.plan).1 = .ok plan) (hj : j.confirmed = true) :
    j.run c programs s = (⟨(j.apply c programs plan s).1.result,
      j.openingEvents c ++ (j.apply c programs plan s).1.events⟩,
      (j.apply c programs plan s).2) := by
  rw [run_eq, h, hj]
  rfl

end Run

/-- Settings that differ in the logs alone lead a job to the same result and the same state, and it
    tells the same but for the lines that show them. -/
theorem run_of_workAlike (h : a.WorkAlike b) (file : Path) (confirmed : Bool) (c : Computer)
    (programs : Programs σ) (s : σ) :
    let j : Job := ⟨a, file, confirmed⟩
    let k : Job := ⟨b, file, confirmed⟩
    (j.run c programs s).1.result = (k.run c programs s).1.result ∧
      (j.run c programs s).2 = (k.run c programs s).2 ∧
      List.Forall₂ Event.Alike (j.run c programs s).1.events (k.run c programs s).1.events := by
  intro j k
  have hopening : List.Forall₂ Event.Alike (j.openingEvents c) (k.openingEvents c) :=
    List.rel_append h.forall₂_lines (Event.forall₂_alike_self _)
  have htold := fun behind => List.rel_append hopening (Event.forall₂_alike_self behind)
  cases hload : (Plan.load c.disk c.directory file).1 with
  | error e =>
      rw [run_eq_of_error (j := j) programs s hload, run_eq_of_error (j := k) programs s hload]
      exact ⟨rfl, rfl, hopening⟩
  | ok plan =>
      cases hconfirmed : confirmed with
      | false =>
          rw [run_eq_of_unconfirmed (j := j) programs s hload hconfirmed,
            run_eq_of_unconfirmed (j := k) programs s hload hconfirmed]
          exact ⟨rfl, rfl, htold _⟩
      | true =>
          rw [run_eq_of_confirmed (j := j) programs s hload hconfirmed,
            run_eq_of_confirmed (j := k) programs s hload hconfirmed,
            apply_of_workAlike h file confirmed c programs plan s]
          exact ⟨rfl, rfl, htold _⟩

/-- **THE LOGS CHANGE NOTHING ABOUT A JOB** but the lines that show their settings. -/
theorem doneAlike_of_workAlike (h : a.WorkAlike b) (file : Path) (confirmed : Bool) (c : Computer)
    (programs : Programs σ) (s : σ) :
    DoneAlike ⟨a, file, confirmed⟩ ⟨b, file, confirmed⟩ c programs s := by
  obtain ⟨hresult, hstate, htold⟩ := run_of_workAlike h file confirmed c programs s
  refine ⟨?_, ?_, hstate, hresult, htold⟩
  · intro plan program start
    simp only [runWith, h.repository]
  · have hrecorded := (run_of_workAlike h file confirmed c programs.recorded (s, [])).2.1
    exact congrArg (fun state => state.2) hrecorded

end Job

/-! ## What is shown -/

/-- The severity with a name. -/
def Severity.named? : String → Option Severity
  | "error" => some .error
  | "warn" => some .warn
  | "info" => some .info
  | "debug" => some .debug
  | "trace" => some .trace
  | _ => none

namespace Event

/-- What a filter passes that is given by a name alone: the events that are at least as serious as
    the severity of this name.  A name that is none, as `off`, passes nothing. -/
def passing (name : String) (events : List Event) : List Event :=
  events.filter fun e => (Severity.named? name).any fun least => e.severity.rank ≤ least.rank

/-- What a verbosity shows is what the filter of its name passes. -/
theorem passing_filterName (v : Verbosity) (events : List Event) :
    passing v.filterName events = shownAt v events := by
  refine List.filter_congr fun e _ => ?_
  obtain ⟨n, hn⟩ := v
  have hrank : 1 ≤ e.severity.rank := by cases e.severity <;> decide
  show _ = decide (e.severity.rank ≤ n)
  match n, hn with
  | 0, _ => exact (decide_eq_false (by omega)).symm
  | 1, _ | 2, _ | 3, _ | 4, _ | 5, _ => rfl

/-- **A LOWER VERBOSITY SHOWS A PART**: of what a higher one shows, the events whose rank it
    reaches. -/
theorem passing_eq_filter {v w : Verbosity} (h : v.value ≤ w.value) (events : List Event) :
    passing v.filterName events
      = (passing w.filterName events).filter fun e => e.severity.rank ≤ v.value := by
  rw [passing_filterName, passing_filterName, shownAt, shownAt, List.filter_filter]
  refine List.filter_congr fun e _ => ?_
  rw [Verbosity.shows, Verbosity.shows, Bool.eq_iff_iff, Bool.and_eq_true, decide_eq_true_eq,
    decide_eq_true_eq]
  constructor
  · intro hv
    exact ⟨hv, hv.trans h⟩
  · rintro ⟨hv, -⟩
    exact hv

/-- A filter does not tell events that are alike from each other. -/
theorem forall₂_passing (name : String) {told told' : List Event}
    (h : List.Forall₂ Alike told told') :
    List.Forall₂ Alike (passing name told) (passing name told') := by
  refine List.rel_filter ?_ h
  intro e e' halike
  show _ ↔ (Severity.named? name).any (fun least => e'.severity.rank ≤ least.rank) = true
  rw [← halike.severity_eq]

end Event

/-! ## The program -/

/-- What the program leaves behind tells these events, on the console and in the log file, each as
    far as its verbosity goes.  Some last lines on the console are no events. -/
structure Finish.Tells (f : Finish) (a : Settings) (c : Computer) (events : List Event)
    (last : List String) : Prop where
  console : f.stderr =
    Log.text ((Event.passing a.console.filterName events).map Event.consoleLine ++ last)
  file : ∀ p, a.logFile = some p → ∀ d,
    c.disk.write c.directory (Path.ofString p) (Text.encode (Log.text
      ((Event.passing a.file.filterName events).map Event.fileLine))) = .ok d → f.disk = d
  noFile : a.logFile = none → f.disk = c.disk

namespace Program

variable {a b : Settings} {c : Computer}

/-- The exit code of a result, and what is said of it on the console. -/
def ending : Except (List String) Unit → Nat × List String
  | .ok _ => (0, [])
  | .error chain => (failed, [s!"Error: {chainText chain}"])

/-- The events of a run. -/
def events (o : Options) (settings : Settings) (listing : List String) (c : Computer)
    (programs : Programs σ) (s : σ) : List Event :=
  listing.map Event.sourceShown ++ (dispatch o settings c programs s).1.2

theorem code_work (o : Options) (settings : Settings) (listing : List String)
    (programs : Programs σ) (s : σ) :
    (work o settings listing c programs s).1.code
      = (ending (dispatch o settings c programs s).1.1).1 := by
  rw [work]
  rcases dispatch o settings c programs s with ⟨⟨result, told⟩, s⟩
  cases result <;> rfl

/-- The program's work leaves behind what tells its events, and a last line if it fails. -/
theorem work_tells (o : Options) (settings : Settings) (listing : List String)
    (programs : Programs σ) (s : σ) :
    (work o settings listing c programs s).1.Tells settings c
      (events o settings listing c programs s)
      (ending (dispatch o settings c programs s).1.1).2 := by
  rw [work, events]
  rcases dispatch o settings c programs s with ⟨⟨result, told⟩, s⟩
  refine ⟨?_, ?_, ?_⟩
  · rw [Event.passing_filterName]
    cases result <;> rfl
  · intro p hp d hd
    rw [Event.passing_filterName] at hd
    simp only [hp, Log.file]
    rw [hd]
    rfl
  · intro hp
    simp only [hp]

theorem dispatch_eq (o : Options) (settings : Settings) (c : Computer) (programs : Programs σ)
    (s : σ) :
    dispatch o settings c programs s =
      match job? o settings with
      | some j => (((j.run c programs s).1.result.mapError JobError.chain,
          (j.run c programs s).1.events), (j.run c programs s).2)
      | none => ((.error [noPlan], []), s) := rfl

/-- Settings that differ in the logs alone lead the program to the same job, or to none. -/
theorem dispatch_of_workAlike (h : a.WorkAlike b) {o o' : Options} (hplan : o.plan = o'.plan)
    (hconfirmed : o.confirmed = o'.confirmed) (c : Computer) (programs : Programs σ) (s : σ) :
    let f := dispatch o a c programs s
    let g := dispatch o' b c programs s
    f.1.1 = g.1.1 ∧ f.2 = g.2 ∧ List.Forall₂ Event.Alike f.1.2 g.1.2 := by
  intro f g
  have hf : f = _ := dispatch_eq o a c programs s
  have hg : g = _ := dispatch_eq o' b c programs s
  rw [hf, hg, job?, job?, hplan, hconfirmed]
  cases o'.plan with
  | none => exact ⟨rfl, rfl, .nil⟩
  | some file =>
      obtain ⟨hresult, hstate, htold⟩ := Job.run_of_workAlike h file o'.confirmed c programs s
      exact ⟨congrArg (Except.mapError JobError.chain) hresult, hstate, htold⟩

/-- So neither the exit code nor the last state depends on the logs or on the list of sources. -/
theorem work_of_workAlike (h : a.WorkAlike b) {o o' : Options} (hplan : o.plan = o'.plan)
    (hconfirmed : o.confirmed = o'.confirmed) (listing listing' : List String) (c : Computer)
    (programs : Programs σ) (s : σ) :
    (work o a listing c programs s).1.code = (work o' b listing' c programs s).1.code ∧
      (work o a listing c programs s).2 = (work o' b listing' c programs s).2 := by
  obtain ⟨hresult, hstate, -⟩ := dispatch_of_workAlike h hplan hconfirmed c programs s
  refine ⟨?_, ?_⟩
  · rw [code_work, code_work, hresult]
  · exact hstate

/-- A log file that is the same for both is opened for both, or for none. -/
theorem carryOut_of_workAlike (h : a.WorkAlike b) (hfile : a.logFile = b.logFile) {o o' : Options}
    (hplan : o.plan = o'.plan) (hconfirmed : o.confirmed = o'.confirmed)
    (ha : (loader o).load c = .ok a) (hb : (loader o').load c = .ok b)
    (programs : Programs σ) (s : σ) :
    (carryOut o c programs s).1.code = (carryOut o' c programs s).1.code ∧
      (carryOut o c programs s).2 = (carryOut o' c programs s).2 := by
  rw [carryOut, carryOut, ha, hb]
  dsimp only
  rw [hfile]
  split
  · exact ⟨rfl, rfl⟩
  · exact work_of_workAlike h hplan hconfirmed _ _ _ programs s

end Program

/-- **THE LOGS CHANGE NOTHING THAT IS DONE**, only what is shown: settings that differ in the logs
    alone lead the same jobs, and the events are the same but for the lines that show the logs.  A
    lower verbosity passes a part of them, in their order, and the lowest none.  The console and the
    log file pass them by themselves, and neither has a part in the exit code. -/
theorem Settings.logs_change_nothing_done {a b : Settings} (h : a.WorkAlike b) (c : Computer)
    (programs : Programs σ) (s : σ) :
    (∀ file confirmed,
      Job.DoneAlike ⟨a, file, confirmed⟩ ⟨b, file, confirmed⟩ c programs s) ∧
    (∀ (v w : Verbosity) (events : List Event), v.value ≤ w.value →
      Event.passing v.filterName events
        = (Event.passing w.filterName events).filter (fun e => e.severity.rank ≤ v.value) ∧
      (Event.passing v.filterName events).Sublist (Event.passing w.filterName events)) ∧
    (∀ events, Event.passing Verbosity.silent.filterName events = []) ∧
    (∀ o listing,
      let f := Program.work o a listing c programs s
      let g := Program.work o b listing c programs s
      let told := Program.events o a listing c programs s
      let told' := Program.events o b listing c programs s
      let last := (Program.ending (Program.dispatch o a c programs s).1.1).2
      f.1.code = g.1.code ∧ f.2 = g.2 ∧ List.Forall₂ Event.Alike told told' ∧
        (∀ name, List.Forall₂ Event.Alike (Event.passing name told) (Event.passing name told')) ∧
        f.1.Tells a c told last ∧ g.1.Tells b c told' last) ∧
    (∀ o o' : Options, o.plan = o'.plan → o.confirmed = o'.confirmed → a.logFile = b.logFile →
      (Program.loader o).load c = .ok a → (Program.loader o').load c = .ok b →
      (Program.carryOut o c programs s).1.code = (Program.carryOut o' c programs s).1.code ∧
        (Program.carryOut o c programs s).2 = (Program.carryOut o' c programs s).2) := by
  refine ⟨?_, ?_, ?_, ?_, ?_⟩
  · intro file confirmed
    exact Job.doneAlike_of_workAlike h file confirmed c programs s
  · intro v w events hvw
    have hpart := Event.passing_eq_filter hvw events
    refine ⟨hpart, ?_⟩
    rw [hpart]
    exact List.filter_sublist
  · intro events
    exact List.filter_eq_nil_iff.mpr fun e _ => Bool.false_ne_true
  · intro o listing f g told told' last
    obtain ⟨hresult, -, htold⟩ := Program.dispatch_of_workAlike h (o := o) rfl rfl c programs s
    obtain ⟨hcode, hstate⟩ :=
      Program.work_of_workAlike h (o := o) rfl rfl listing listing c programs s
    have hevents : List.Forall₂ Event.Alike told told' :=
      List.rel_append (Event.forall₂_alike_self _) htold
    -- both runs end with the same result, so their last lines are the same as well
    have hlast : last = (Program.ending (Program.dispatch o b c programs s).1.1).2 :=
      congrArg (fun result => (Program.ending result).2) hresult
    refine ⟨hcode, hstate, hevents, fun name => Event.forall₂_passing name hevents,
      Program.work_tells o a listing programs s, ?_⟩
    rw [hlast]
    exact Program.work_tells o b listing programs s
  · intro o o' hplan hconfirmed hfile ha hb
    exact Program.carryOut_of_workAlike h hfile hplan hconfirmed ha hb programs s

/-- The same job without a word and with all of them: a checkout fails, and the exit code says so
    both times. -/
theorem Settings.logs_change_nothing_done_silent :
    let c : Computer := ⟨Disk.ofList [([], .directory), ([Text.encode "tmp"], .directory),
      ([Text.encode "git"], .file [] .program),
      ([Text.encode "rules"], .file (Text.encode "topic -> main") .data)], [], []⟩
    let silent : Settings := { program := some "/git", console := .silent, file := .silent }
    let talking : Settings := { program := some "/git", console := .trace }
    let o : Options := { plan := some (Path.ofString "rules"), confirmed := true }
    let script : List Performance := [⟨.exited 0, Text.encode "## main", []⟩, ⟨.exited 1, [], []⟩]
    let told (a : Settings) := (Program.work o a [] c Programs.scripted script).1
    silent.WorkAlike talking ∧ (told silent).code = (told talking).code ∧
      (told silent).stderr = "Error: 1 of 4 git invocations failed\n" ∧
      (told talking).code = Program.failed := by
  intro c silent talking o script told
  have halike : silent.WorkAlike talking := ⟨rfl, rfl⟩
  obtain ⟨-, -, -, hwork, -⟩ :=
    Settings.logs_change_nothing_done halike c Programs.scripted script
  exact ⟨halike, (hwork o []).1, by decide +kernel, by decide +kernel⟩

end RebasePlan
