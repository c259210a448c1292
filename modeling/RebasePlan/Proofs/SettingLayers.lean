import Mathlib
import RebasePlan.Proofs.LoaderCalls
import RebasePlan.Proofs.SettingVariables
import RebasePlan.Proofs.SourceTables

/-! # Layers of settings

    What a setting comes to is decided in layers: by the last value set for it, else by
    its variable, else by the last file or text that holds it, else by its default
    (`load_layered`).  Whether there are settings at all hangs on these values alone
    (`exists_load_eq_ok_iff`, `exists_chosen_iff`). -/

namespace RebasePlan.Settings

/-! ## What each layer says -/

/-- The value set directly for a setting: the last one. -/
def fromCall? (calls : List LoaderCall) (k : Setting) : Option Scalar :=
  ((assignmentsOf calls).filterMap fun e => if e.1 = k.path then some e.2 else none).getLast?

/-- The value of the variable for a setting. -/
def fromVariable? (c : Computer) (calls : List LoaderCall) (k : Setting) : Option Scalar :=
  (beginningOf calls).bind fun beginning =>
    (c.environment.filterMap fun e => if variableKey? beginning e.1 = some k.path
      then (Text.strict e.2).map guess else none).getLast?

/-- The value of a setting in the files and texts: the last one. -/
def fromSource? (c : Computer) (calls : List LoaderCall) (k : Setting) : Option Scalar :=
  ((sourcesOf calls).filterMap fun s => (s.table? c).bind fun table => tableValue? table k).getLast?

/-- The value for a setting: the one set directly, else that of its variable, else that of the files
    and texts. -/
def given? (c : Computer) (calls : List LoaderCall) (k : Setting) : Option Scalar :=
  (fromCall? calls k).or ((fromVariable? c calls k).or (fromSource? c calls k))

/-- Files, texts, variables and calls give values only to settings, and only such as these
    accept. -/
structure WellFormed (accepts : Setting → Scalar → Prop) (c : Computer)
    (calls : List LoaderCall) : Prop where
  assignments : ∀ e ∈ assignmentsOf calls, ∃ k : Setting, e.1 = k.path ∧ accepts k e.2
  environment : ∀ beginning, beginningOf calls = some beginning → ∀ e ∈ c.environment,
    ∀ key, variableKey? beginning e.1 = some key →
      ∃ (k : Setting) (text : String), key = k.path ∧ Text.strict e.2 = some text ∧
        accepts k (guess text)
  sources : ∀ s ∈ sourcesOf calls, ∃ table, s.table? c = some table ∧ HoldsSettings accepts table

variable {accepts : Setting → Scalar → Prop} {c : Computer} {calls : List LoaderCall}

/-! ## Variables -/

/-- The values of variables, put on top of others. -/
theorem exists_variableEntries {beginning : String} {entries : Entries} (hentries : entries.Orderly)
    (h : ∀ e ∈ c.environment, ∀ key, variableKey? beginning e.1 = some key →
      ∃ (k : Setting) (text : String), key = k.path ∧ Text.strict e.2 = some text ∧
        accepts k (guess text)) :
    ∃ given, entriesOfEnvironment beginning c.environment = .ok given ∧
      (entries.putAll given).Orderly ∧
      ∀ k, (entries.putAll given).at? k = (c.environment.filterMap fun e =>
        if variableKey? beginning e.1 = some k.path then (Text.strict e.2).map guess
        else none).getLast?.or (entries.at? k) := by
  have hlegible : Legible beginning c.environment := by
    intro e he hkey
    obtain ⟨key, hkey⟩ := Option.isSome_iff_exists.mp hkey
    obtain ⟨-, text, -, htext, -⟩ := h e he key hkey
    exact Option.isSome_iff_exists.mpr ⟨text, htext⟩
  have hgiven : ∀ d ∈ c.environment.filterMap (variableAssignment? beginning),
      (Key.ofName d.1).Fits d.2 := by
    intro d hd
    obtain ⟨e, he, hassign⟩ := List.mem_filterMap.mp hd
    obtain ⟨key, hkey, htext⟩ := Option.bind_eq_some_iff.mp hassign
    obtain ⟨text, -, rfl⟩ := Option.map_eq_some_iff.mp htext
    obtain ⟨k, -, rfl, -⟩ := h e he key hkey
    rw [Setting.ofName_path]
    exact .single k rfl
  have hgives : ∀ e ∈ c.environment, ∀ k : Setting,
      ((variableAssignment? beginning e).bind fun d => (Key.ofName d.1).gives? d.2 k)
        = if variableKey? beginning e.1 = some k.path then (Text.strict e.2).map guess
          else none := by
    intro e he k
    rw [variableAssignment?]
    cases hkey : variableKey? beginning e.1 with
    | none => rfl
    | some key =>
        obtain ⟨k', text, rfl, htext, -⟩ := h e he key hkey
        rw [Option.bind_some, htext]
        show (Key.ofName k'.path).gives? _ k = _
        rw [Setting.ofName_path, Key.gives?_path]
        by_cases hk : k' = k
        · rw [if_pos hk, if_pos (by rw [hk])]
          rfl
        · rw [if_neg hk, if_neg fun heq => hk (Setting.path_injective (Option.some.inj heq))]
  obtain ⟨horderly, hat⟩ := Entries.putAll_fits hentries hgiven
  refine ⟨_, entriesOfEnvironment_eq hlegible, horderly, fun k => ?_⟩
  rw [hat, List.filterMap_filterMap]
  congr 2
  exact List.filterMap_congr fun e he => hgives e he k

/-! ## All layers -/

/-- **LAYER BY LAYER**: calls that give values only to settings make a loader, and its values stand
    at the places of settings, for each what the highest layer gives. -/
theorem exists_entries (h : WellFormed accepts c calls) :
    ∃ (l : Loader) (entries : Entries), Loader.made? calls = some l ∧ l.entries c = .ok entries ∧
      entries.Orderly ∧ ∀ k, entries.at? k = given? c calls k := by
  obtain ⟨written, hwritten, hwritten_orderly, hwritten_at⟩ :=
    exists_sourceEntries h.sources Entries.orderly_nil
  obtain ⟨overrides, hoverrides, hdirect, hlast⟩ := Loader.exists_foldlM_assign?
    (fun e he => (h.assignments e he).imp fun _ hk => hk.1) Loader.Direct.nil
  have hvariables : ∃ given,
      (Loader.mk (sourcesOf calls) (beginningOf calls) overrides).variableEntries c = .ok given ∧
        (written.putAll given).Orderly ∧
        ∀ k, (written.putAll given).at? k = (fromVariable? c calls k).or (written.at? k) := by
    cases hbeginning : beginningOf calls with
    | none =>
        refine ⟨[], rfl, hwritten_orderly, fun k => ?_⟩
        rw [fromVariable?, hbeginning]
        rfl
    | some beginning =>
        obtain ⟨given, hgiven, horderly, hat⟩ :=
          exists_variableEntries hwritten_orderly (h.environment beginning hbeginning)
        refine ⟨given, hgiven, horderly, fun k => ?_⟩
        rw [hat, fromVariable?, hbeginning, Option.bind_some]
  obtain ⟨given, hgiven, hgiven_orderly, hgiven_at⟩ := hvariables
  obtain ⟨horderly, hat⟩ := Entries.putEach_fits hgiven_orderly hdirect.fits
  -- the values set directly are put on top of the variables, these on top of files and texts
  refine ⟨⟨sourcesOf calls, beginningOf calls, overrides⟩,
    (written.putAll given).putEach overrides, ?_, ?_, horderly, fun k => ?_⟩
  · rw [Loader.made?_eq, hoverrides]
    rfl
  · rw [Loader.entries, hwritten, hgiven]
    rfl
  · have hcalls : (overrides.lookup k.key).bind Value.scalar? = fromCall? calls k := by
      rw [hlast, fromCall?]
      exact Option.or_none
    have hsources : written.at? k = fromSource? c calls k := by
      rw [hwritten_at, fromSource?]
      exact Option.or_none
    rw [hat, hdirect.getLast?_gives?, hcalls, hgiven_at, hsources, given?]

/-! ## Loading -/

/-- The repository, if there is one, is no file. -/
def Usable (s : Settings) (c : Computer) : Prop :=
  ∀ p, s.repository = some p → c.disk.holds c.directory (Path.ofString p) = true →
    c.disk.holdsDirectory c.directory (Path.ofString p) = true

/-- The check lets settings pass that can be used, and leaves them as they are. -/
theorem check_eq_ok_iff {s t : Settings} {c : Computer} :
    s.check c.disk c.directory = .ok t ↔ s = t ∧ s.Usable c := by
  rw [check, Usable]
  cases s.repository with
  | none => exact ⟨fun h => ⟨Except.ok.inj h, fun _ hp => nomatch hp⟩, fun h => congrArg _ h.1⟩
  | some p =>
      dsimp only
      split
      · next hfile =>
        rw [Bool.and_eq_true, Bool.not_eq_true'] at hfile
        refine ⟨fun h => (nomatch h), fun h => ?_⟩
        rw [h.2 p rfl hfile.1] at hfile
        exact nomatch hfile.2
      · next hfile =>
        rw [Bool.and_eq_true, Bool.not_eq_true', not_and, Bool.not_eq_false] at hfile
        exact ⟨fun h => ⟨Except.ok.inj h, fun _ hp => Option.some.inj hp ▸ hfile⟩,
          fun h => congrArg _ h.1⟩

/-- Settings load just if they are read from the merged values and can be used. -/
theorem Loader.load_eq_ok_iff {l : Loader} {c : Computer} {s : Settings} :
    l.load c = .ok s ↔ ∃ entries, l.entries c = .ok entries ∧ ofEntries entries = .ok s ∧
      s.Usable c := by
  rw [Loader.load]
  constructor
  · intro h
    obtain ⟨entries, hentries, h⟩ := bind_eq_ok_iff.mp h
    obtain ⟨t, ht, h⟩ := bind_eq_ok_iff.mp h
    cases hcheck : t.check c.disk c.directory with
    | error e =>
        rw [hcheck] at h
        have h : Except.error (LoadError.unusable e) = Except.ok s := h
        cases h
    | ok t' =>
        rw [hcheck] at h
        obtain rfl := Except.ok.inj h
        obtain ⟨rfl, husable⟩ := check_eq_ok_iff.mp hcheck
        exact ⟨entries, hentries, ht, husable⟩
  · rintro ⟨entries, hentries, hs, husable⟩
    refine bind_eq_ok_iff.mpr ⟨entries, hentries, bind_eq_ok_iff.mpr ⟨s, hs, ?_⟩⟩
    rw [check_eq_ok_iff.mpr ⟨rfl, husable⟩]
    rfl

/-- **SETTINGS ARE WHAT IS GIVEN**: calls that give values only to settings load just those settings
    in which each is what its value stands for, or its default. -/
theorem exists_load_eq_ok_iff (h : WellFormed accepts c calls) :
    ∃ l, Loader.made? calls = some l ∧ ∀ s : Settings, l.load c = .ok s ↔
      (∀ k : Setting, k.chosen (given? c calls k) = some (s.get k)) ∧ s.Usable c := by
  obtain ⟨l, entries, hl, hentries, horderly, hat⟩ := exists_entries h
  refine ⟨l, hl, fun s => ?_⟩
  rw [Loader.load_eq_ok_iff]
  constructor
  · rintro ⟨entries', hentries', hs, husable⟩
    obtain rfl := Except.ok.inj (hentries.symm.trans hentries')
    refine ⟨fun k => ?_, husable⟩
    rw [← hat]
    exact (ofEntries_eq_ok_iff horderly).mp hs k
  · rintro ⟨hchosen, husable⟩
    refine ⟨entries, hentries, (ofEntries_eq_ok_iff horderly).mpr fun k => ?_, husable⟩
    rw [hat]
    exact hchosen k

/-! ## Values that can stand -/

/-- A value can stand at a setting: it can be read, and as a repository it is no file. -/
def Setting.Accepts (c : Computer) (k : Setting) (v : Scalar) : Prop :=
  (k.read? v).isSome ∧ (k = .repository → ∀ p, v.printed = some p →
    c.disk.holds c.directory (Path.ofString p) = true →
      c.disk.holdsDirectory c.directory (Path.ofString p) = true)

/-- What is given to a setting is accepted by it. -/
theorem WellFormed.accepts_of_given? (h : WellFormed accepts c calls) {k : Setting} {v : Scalar}
    (hv : given? c calls k = some v) : accepts k v := by
  rcases Option.or_eq_some_iff.mp hv with hcall | ⟨-, hv⟩
  · obtain ⟨e, he, hvalue⟩ := List.mem_filterMap.mp (List.mem_of_getLast? hcall)
    obtain ⟨k', hk', haccepts⟩ := h.assignments e he
    split at hvalue
    · next hpath =>
      obtain rfl := Setting.path_injective (hpath.symm.trans hk')
      exact Option.some.inj hvalue ▸ haccepts
    · exact nomatch hvalue
  · rcases Option.or_eq_some_iff.mp hv with hvariable | ⟨-, hsource⟩
    · obtain ⟨beginning, hbeginning, hlast⟩ := Option.bind_eq_some_iff.mp hvariable
      obtain ⟨e, he, hvalue⟩ := List.mem_filterMap.mp (List.mem_of_getLast? hlast)
      split at hvalue
      · next hkey =>
        obtain ⟨k', text, hpath, htext, haccepts⟩ := h.environment beginning hbeginning e he _ hkey
        obtain rfl := Setting.path_injective hpath
        rw [htext] at hvalue
        exact Option.some.inj hvalue ▸ haccepts
      · exact nomatch hvalue
    · obtain ⟨s, hs, hvalue⟩ := List.mem_filterMap.mp (List.mem_of_getLast? hsource)
      obtain ⟨table, htable, hholds⟩ := h.sources s hs
      rw [htable] at hvalue
      exact hholds.accepts_of_tableValue? hvalue

/-- There are settings in which each is what is given just if all that is given can stand. -/
theorem exists_chosen_iff {given : Setting → Option Scalar} :
    (∃ s : Settings, (∀ k, k.chosen (given k) = some (s.get k)) ∧ s.Usable c) ↔
      ∀ k v, given k = some v → k.Accepts c v := by
  constructor
  · rintro ⟨s, hchosen, husable⟩ k v hv
    have hread (k : Setting) (v : Scalar) (hv : given k = some v) : k.read? v = some (s.get k) := by
      have hk := hchosen k
      rwa [hv] at hk
    refine ⟨Option.isSome_iff_exists.mpr ⟨_, hread k v hv⟩, ?_⟩
    rintro rfl p hp
    exact husable p ((Option.some.inj (hread _ v hv)).symm.trans hp)
  · intro haccepts
    have hsome (k : Setting) : ∃ content, k.chosen (given k) = some content := by
      cases hgiven : given k with
      | none => exact ⟨k.default, rfl⟩
      | some v => exact Option.isSome_iff_exists.mp (haccepts k v hgiven).1
    choose content hcontent using hsome
    refine ⟨ofContents content, fun k => ?_, fun p hp => ?_⟩
    · rw [get_ofContents]
      exact hcontent k
    · have hrepository : Setting.repository.chosen (given .repository) = some (some p) :=
        (hcontent .repository).trans (congrArg some hp)
      cases hgiven : given .repository with
      | none =>
          rw [hgiven] at hrepository
          exact nomatch hrepository
      | some v =>
          rw [hgiven] at hrepository
          exact (haccepts _ v hgiven).2 rfl p (Option.some.inj hrepository)

/-- **SETTINGS COME IN LAYERS**: calls, variables, files and texts that give settings only values
    that can stand there load settings.  Each setting by itself is what was last set for it, else
    what its variable says, else what the last file or text with it says, else its default.  So the
    calls of different kinds may stand among each other in any order. -/
theorem load_layered (h : WellFormed (Setting.Accepts c) c calls) :
    (∃ (l : Loader) (s : Settings), Loader.made? calls = some l ∧ l.load c = .ok s ∧
      ∀ k : Setting, k.chosen (given? c calls k) = some (s.get k)) ∧
    ∀ calls' : List LoaderCall, sourcesOf calls' = sourcesOf calls →
      beginningOf calls' = beginningOf calls → assignmentsOf calls' = assignmentsOf calls →
        Loader.made? calls' = Loader.made? calls := by
  constructor
  · obtain ⟨l, hl, hload⟩ := exists_load_eq_ok_iff h
    obtain ⟨s, hs⟩ := exists_chosen_iff.mpr fun _ _ => h.accepts_of_given?
    exact ⟨l, s, hl, (hload s).mpr hs, hs.1⟩
  · intro calls' hsources hbeginning hassignments
    rw [Loader.made?_eq, Loader.made?_eq, hsources, hbeginning, hassignments]

/-- A computer with settings in a file and in a variable. -/
def layersComputer : Computer where
  disk := Disk.ofList [([], .directory),
    ([Text.encode "a.toml"], .file (Text.encode "tools.git='a'") .data)]
  directory := []
  environment := [(Text.encode "GRR_GLOBAL__OUTPUT_LOG_LEVEL", Text.encode "4")]

/-- Calls of every kind: a file named without its ending, a text, and a file that is missing. -/
def layersCalls : List LoaderCall := [
  .set "global.log_file" (.text "x.log"),
  .add (.file (Path.ofString "a") true),
  .environment "GRR",
  .add (.text "tools.git='b'"),
  .add (.file (Path.ofString "missing") false)]

theorem table?_layersComputer :
    (Source.file (Path.ofString "a") true).table? layersComputer
        = some [("tools", .table [("git", .string "a")])] ∧
      (Source.text "tools.git='b'").table? layersComputer
        = some [("tools", .table [("git", .string "b")])] ∧
      (Source.file (Path.ofString "missing") false).table? layersComputer = some [] := by
  have hfile : fileOf? layersComputer (Path.ofString "a") = some (Path.ofString "/a.toml") := by
    decide +kernel
  have hread : layersComputer.disk.read layersComputer.directory (Path.ofString "/a.toml")
      = .ok (Text.encode "tools.git='a'") := by
    decide +kernel
  have hlossy : Text.lossy (withoutMarkBytes (Text.encode "tools.git='a'")) = "tools.git='a'" := by
    decide +kernel
  have hmissing : fileOf? layersComputer (Path.ofString "missing") = none := by
    decide +kernel
  refine ⟨?_, ?_, ?_⟩
  · rw [Source.table?, hfile]
    dsimp only
    rw [hread, Except.toOption, Option.bind_some, hlossy]
    cbv
  · rw [Source.table?]
    cbv
  · rw [Source.table?, hmissing]
    dsimp only
    rw [if_neg Bool.false_ne_true]

/-- The last call and the last source count, each for its own setting. -/
theorem given?_layersCalls (k : Setting) : given? layersComputer layersCalls k =
    match k with
    | .console => some (.integer 4)
    | .logFile => some (.text "x.log")
    | .program => some (.text "b")
    | .file | .repository => none := by
  obtain ⟨hfile, htext, hmissing⟩ := table?_layersComputer
  have hsources : sourcesOf layersCalls = [.file (Path.ofString "a") true, .text "tools.git='b'",
      .file (Path.ofString "missing") false] := rfl
  have hcall : fromCall? layersCalls k = if k = .logFile then some (.text "x.log") else none := by
    cases k <;> decide +kernel
  have hvariable : fromVariable? layersComputer layersCalls k
      = if k = .console then some (.integer 4) else none := by
    cases k <;> decide +kernel
  rw [given?, hcall, hvariable, fromSource?, hsources]
  simp only [List.filterMap_cons, List.filterMap_nil, hfile, htext, hmissing, Option.bind_some]
  cases k <;> rfl

theorem wellFormed_layersCalls :
    WellFormed (Setting.Accepts layersComputer) layersComputer layersCalls where
  assignments := by
    intro e he
    obtain rfl : e = ("global.log_file", .text "x.log") := List.mem_singleton.mp he
    exact ⟨.logFile, by decide, rfl, fun h => nomatch h⟩
  environment := by
    intro beginning hbeginning e he key hkey
    obtain rfl : "GRR" = beginning := Option.some.inj hbeginning
    obtain rfl := List.mem_singleton.mp he
    have hconsole : variableKey? "GRR" (Text.encode "GRR_GLOBAL__OUTPUT_LOG_LEVEL")
        = some Setting.console.path := by decide +kernel
    have hguess : guess "4" = .integer 4 := by decide +kernel
    refine ⟨.console, "4", (Option.some.inj (hconsole.symm.trans hkey)).symm,
      Text.strict_eq_some_iff.mpr rfl, ?_, fun h => nomatch h⟩
    rw [hguess]
    rfl
  sources := by
    obtain ⟨hfile, htext, hmissing⟩ := table?_layersComputer
    have hgit (git : String) : HoldsSettings (Setting.Accepts layersComputer)
        [("tools", .table [("git", .string git)])] := by
      intro e he
      obtain rfl := List.mem_singleton.mp he
      refine ⟨⟨.program, rfl⟩, _, rfl, fun d hd => ?_⟩
      obtain rfl := List.mem_singleton.mp hd
      exact ⟨.program, _, rfl, rfl, rfl, rfl, fun h => nomatch h⟩
    intro s hs
    have hs : s ∈ [Source.file (Path.ofString "a") true, .text "tools.git='b'",
      .file (Path.ofString "missing") false] := hs
    simp only [List.mem_cons, List.not_mem_nil, or_false] at hs
    rcases hs with rfl | rfl | rfl
    · exact ⟨_, hfile, hgit "a"⟩
    · exact ⟨_, htext, hgit "b"⟩
    · exact ⟨_, hmissing, fun _ he => nomatch he⟩

/-- Settings from every layer, one of them in two texts, and the call that sets one moved behind
    all others. -/
theorem load_layered_every_kind :
    WellFormed (Setting.Accepts layersComputer) layersComputer layersCalls ∧
      ∃ l, Loader.made? layersCalls = some l ∧
        l.load layersComputer = .ok {
          console := ⟨4, by decide⟩, logFile := some "x.log", program := some "b" } ∧
        Loader.made? (layersCalls.tail ++ layersCalls.take 1) = some l := by
  obtain ⟨⟨l, s, hl, hload, hchosen⟩, horder⟩ := load_layered wellFormed_layersCalls
  have hs : s = { console := ⟨4, by decide⟩, logFile := some "x.log", program := some "b" } := by
    refine eq_of_get fun k => Option.some.inj ?_
    rw [← hchosen, given?_layersCalls]
    cases k <;> rfl
  exact ⟨wellFormed_layersCalls, l, hl, hs ▸ hload, (horder _ rfl rfl rfl).trans hl⟩

end RebasePlan.Settings
