import RebasePlan.Program
import RebasePlan.Proofs.SettingVerbosities

/-! # The settings of a run of the program

    The program takes settings from the switches of its command line, from variables, from
    the settings files that are named, and from the default file.  Of these the higher one
    decides, for each setting by itself (`Decides`); the switch for the console goes for the
    log file too, unless that has one of its own.

    The loader of a command line is one that calls make (`made?_loaderCalls`), so the law of
    layers says what it loads.  What is left is what the switches set: a text for each
    setting that they speak of (`fromCall?_loaderCalls`). -/

namespace RebasePlan

open Settings

namespace Program

/-! ## What decides a setting -/

/-- The default file as a source. -/
def defaultSource : Source := .file defaultSettings false

/-- The files that a command line names, as sources. -/
def namedSources (o : Options) : List Source := o.settingsFiles.map fun p => .file p true

/-- What the variable for a setting says. -/
def inEnvironment? (c : Computer) (k : Setting) : Option Scalar :=
  (c.environment.filterMap fun e => if variableKey? variableStart e.1 = some k.path
    then (Text.strict e.2).map guess else none).getLast?

/-- What a settings file says of a setting. -/
def inFile? (c : Computer) (k : Setting) (s : Source) : Option Scalar :=
  (s.table? c).bind fun table => tableValue? table k

/-- What a setting comes to without switches: what its variable says, or else the last of the named
    files that speaks of it, or else the default file. -/
def below? (o : Options) (c : Computer) (k : Setting) : Option k.Content :=
  ((inEnvironment? c k).or
    (((namedSources o).filterMap (inFile? c k)).getLast?.or (inFile? c k defaultSource))).bind
      k.read?

/-- The text of a path as it was typed, if it is one. -/
def typed (p : Path) : Option String := Text.strict p.bytes

/-- Settings as the switches decide them, or else what stands below them, or else the defaults. -/
structure Decides (o : Options) (c : Computer) (s : Settings) : Prop where
  console : s.console = (o.console.or (below? o c .console)).getD ⟨3, by decide⟩
  file : s.file = (o.file.or (o.console.or (below? o c .file))).getD ⟨5, by decide⟩
  logFile : s.logFile = ((o.logFile.map typed).or (below? o c .logFile)).getD none
  program : s.program = ((o.program.map typed).or (below? o c .program)).getD none
  repository : s.repository = ((o.repository.map typed).or (below? o c .repository)).getD none

/-- The paths that become settings are texts. -/
def LegiblePaths (o : Options) : Prop :=
  ∀ p ∈ o.logFile.toList ++ o.program.toList ++ o.repository.toList, (typed p).isSome

/-- Variables and files give values only to settings, and only such as these can have. -/
structure GoodLayers (o : Options) (c : Computer) : Prop where
  environment : ∀ e ∈ c.environment, ∀ key, variableKey? variableStart e.1 = some key →
    ∃ (k : Setting) (text : String), key = k.path ∧ Text.strict e.2 = some text ∧
      (k.read? (guess text)).isSome
  files : ∀ s ∈ defaultSource :: namedSources o, ∃ table, s.table? c = some table ∧
    HoldsSettings (fun k v => (k.read? v).isSome) table

/-! ## What the switches set -/

/-- The text that the switches set a setting to. -/
def switchText? (o : Options) : Setting → Option String
  | .console => o.console.map fun v => toString v.value
  | .file => (o.file.or o.console).map fun v => toString v.value
  | .logFile => o.logFile.map Path.text
  | .program => o.program.map Path.text
  | .repository => o.repository.map Path.text

/-- All settings, in the order in which the switches set them. -/
def settingsInOrder : List Setting := [.console, .file, .logFile, .program, .repository]

/-- What the switches set is made setting by setting, in their order. -/
theorem overrides_eq (o : Options) :
    o.overrides = settingsInOrder.flatMap fun k =>
      (switchText? o k).toList.map fun text => (k.path, text) := by
  have hfile : (o.file <|> o.console) = o.file.or o.console := by
    cases o.file <;> rfl
  have hconsole_path : Setting.console.path = "global.output_log_level" := by decide
  have hfile_path : Setting.file.path = "global.file_log_level" := by decide
  have hlogFile_path : Setting.logFile.path = "global.log_file" := by decide
  have hprogram_path : Setting.program.path = "tools.git" := by decide
  have hrepository_path : Setting.repository.path = "repo.path" := by decide
  simp only [Options.overrides, settingsInOrder, List.flatMap_cons, List.flatMap_nil, switchText?,
    hfile, hconsole_path, hfile_path, hlogFile_path, hprogram_path, hrepository_path,
    List.append_nil, List.append_assoc]

/-- A text is set only for a setting. -/
theorem exists_of_mem_overrides {o : Options} {e : String × String} (he : e ∈ o.overrides) :
    ∃ k : Setting, e.1 = k.path ∧ switchText? o k = some e.2 := by
  rw [overrides_eq] at he
  obtain ⟨k, -, he⟩ := List.mem_flatMap.mp he
  obtain ⟨text, htext, rfl⟩ := List.mem_map.mp he
  exact ⟨k, rfl, Option.mem_toList.mp htext⟩

/-- What the switches say of a setting. -/
def switched? (o : Options) : (k : Setting) → Option k.Content
  | .console => o.console
  | .file => o.file.or o.console
  | .logFile => o.logFile.map typed
  | .program => o.program.map typed
  | .repository => o.repository.map typed

theorem verbosity?_numeral (v : Verbosity) :
    (Scalar.text (toString v.value)).verbosity? = some v :=
  (@Scalar.Writes.digits v.value).verbosity?_eq_some_iff.mpr rfl

/-- A path that is a text is shown as it was typed. -/
theorem typed_eq_text {p : Path} (h : (typed p).isSome) : typed p = some p.text := by
  obtain ⟨text, htext⟩ := Option.isSome_iff_exists.mp h
  obtain ⟨cs, hcs, rfl⟩ := Option.map_eq_some_iff.mp htext
  have hshown : cs.map (Text.Piece.shown ∘ Text.Piece.character) = cs := List.map_id' cs
  rw [htext, Path.text, Text.lossy, Text.eq_map_of_characters? hcs, List.map_map, hshown]

/-- The text that the switches set a setting to stands for what they say of it. -/
theorem read?_switchText {o : Options} (hlegible : LegiblePaths o) (k : Setting) :
    ((switchText? o k).map Scalar.text).bind k.read? = switched? o k := by
  have hlevel (level : Option Verbosity) :
      ((level.map fun v => toString v.value).map Scalar.text).bind Scalar.verbosity? = level := by
    cases level with
    | none => rfl
    | some v => rw [Option.map_some, Option.map_some, Option.bind_some, verbosity?_numeral]
  have hpath {path : Option Path} (hmem : ∀ p ∈ path, (typed p).isSome) :
      ((path.map Path.text).map Scalar.text).bind (fun v => some v.printed) = path.map typed := by
    cases path with
    | none => rfl
    | some p => exact congrArg some (typed_eq_text (hmem p rfl)).symm
  cases k with
  | console | file => exact hlevel _
  | logFile => exact hpath fun p hp => hlegible p (by simp [Option.mem_def.mp hp])
  | program => exact hpath fun p hp => hlegible p (by simp [Option.mem_def.mp hp])
  | repository => exact hpath fun p hp => hlegible p (by simp [Option.mem_def.mp hp])

/-- A setting that is set to a text is one of which the switches say something. -/
theorem isSome_switched? {o : Options} {k : Setting} (h : (switchText? o k).isSome) :
    (switched? o k).isSome := by
  cases k <;> simpa [switchText?, switched?] using h

/-! ## The loader of a command line -/

/-- The calls that make the loader of a command line. -/
def loaderCalls (o : Options) : List LoaderCall :=
  (defaultSource :: namedSources o).map .add ++ .environment variableStart ::
    o.overrides.map fun e => .set e.1 (.text e.2)

/-- What is kept of the calls: of the sources, of the variables, and of the values that are set. -/
theorem filterMap_loaderCalls {α : Type} (f : LoaderCall → Option α) (o : Options) :
    (loaderCalls o).filterMap f =
      (defaultSource :: namedSources o).filterMap (fun s => f (.add s)) ++
        ((f (.environment variableStart)).toList ++
          o.overrides.filterMap fun e => f (.set e.1 (.text e.2))) := by
  have hset : (o.overrides.map fun e => LoaderCall.set e.1 (.text e.2)).filterMap f
      = o.overrides.filterMap fun e => f (.set e.1 (.text e.2)) := List.filterMap_map
  have hadded : ((defaultSource :: namedSources o).map LoaderCall.add).filterMap f
      = (defaultSource :: namedSources o).filterMap fun s => f (.add s) := List.filterMap_map
  have hvariables (rest : List LoaderCall) :
      (.environment variableStart :: rest : List LoaderCall).filterMap f
        = (f (.environment variableStart)).toList ++ rest.filterMap f := by
    rw [List.filterMap_cons]
    cases f (.environment variableStart) <;> rfl
  rw [loaderCalls, List.filterMap_append, hadded, hvariables, hset]

/-- The loader reads the default file first, and then the files that were named. -/
theorem sourcesOf_loaderCalls (o : Options) :
    sourcesOf (loaderCalls o) = defaultSource :: namedSources o := by
  rw [sourcesOf, filterMap_loaderCalls]
  simp [LoaderCall.source?]

theorem beginningOf_loaderCalls (o : Options) :
    beginningOf (loaderCalls o) = some variableStart := by
  rw [beginningOf, filterMap_loaderCalls]
  simp [LoaderCall.beginning?]

theorem assignmentsOf_loaderCalls (o : Options) :
    assignmentsOf (loaderCalls o) = o.overrides.map fun e => (e.1, .text e.2) := by
  rw [assignmentsOf, filterMap_loaderCalls]
  simp [LoaderCall.assignment?]

/-- Values that are set one after the other, as calls would set them. -/
theorem foldl_set {es : List (String × String)} (hes : ∀ e ∈ es, ∃ k : Setting, e.1 = k.path)
    (l : Loader) :
    ((es.map fun e => (e.1, Scalar.text e.2)).foldlM Loader.assign? l.overrides).map
        (fun overrides => { l with overrides })
      = some (es.foldl (fun l e => (l.set? e.1 (.text e.2)).getD l) l) := by
  induction es generalizing l with
  | nil => rfl
  | cons e es ih =>
      obtain ⟨k, hk⟩ := hes e List.mem_cons_self
      have hnext := ih (fun e he => hes e (List.mem_cons_of_mem _ he))
        { l with overrides := Loader.override k.key (.scalar none (.text e.2)) l.overrides }
      rw [List.map_cons, List.foldlM_cons, List.foldl_cons, Loader.assign?, Loader.set?, hk,
        k.read?_path]
      exact hnext

/-- The loader of a command line is the one that its calls make. -/
theorem made?_loaderCalls (o : Options) : Loader.made? (loaderCalls o) = some (loader o) := by
  rw [Loader.made?_eq, sourcesOf_loaderCalls, beginningOf_loaderCalls, assignmentsOf_loaderCalls]
  exact foldl_set (fun e he => (exists_of_mem_overrides he).imp fun _ hk => hk.1)
    ⟨defaultSource :: namedSources o, some variableStart, []⟩

/-- What a call gives to a setting is the text that a switch set it to. -/
theorem fromCall?_loaderCalls (o : Options) (k : Setting) :
    fromCall? (loaderCalls o) k = (switchText? o k).map Scalar.text := by
  have hentry (k' : Setting) : ((switchText? o k').toList.map fun text => (k'.path, text)).filterMap
      (fun e => if e.1 = k.path then some (Scalar.text e.2) else none)
        = if k' = k then ((switchText? o k).map Scalar.text).toList else [] := by
    by_cases hk : k' = k
    · subst hk
      rw [if_pos rfl]
      cases switchText? o k' <;> simp
    · have hpath : k'.path ≠ k.path := fun h => hk (Setting.path_injective h)
      rw [if_neg hk]
      cases switchText? o k' <;> simp [hpath]
  have hoverrides : (o.overrides.map fun e => (e.1, Scalar.text e.2)).filterMap
      (fun e => if e.1 = k.path then some e.2 else none)
        = settingsInOrder.flatMap fun k' =>
          if k' = k then ((switchText? o k).map Scalar.text).toList else [] := by
    rw [List.filterMap_map, overrides_eq, List.filterMap_flatMap]
    exact congrArg (settingsInOrder.flatMap ·) (funext hentry)
  have hone : settingsInOrder.flatMap (fun k' =>
      if k' = k then ((switchText? o k).map Scalar.text).toList else [])
        = ((switchText? o k).map Scalar.text).toList := by
    cases k <;> simp [settingsInOrder]
  rw [fromCall?, assignmentsOf_loaderCalls, hoverrides, hone]
  cases switchText? o k <;> rfl

/-! ## Loading -/

variable {o : Options} {c : Computer}

/-- Layers that are good make the calls well formed, since the paths of the switches are legible. -/
theorem GoodLayers.wellFormed (h : GoodLayers o c) (hlegible : LegiblePaths o) :
    WellFormed (fun k v => (k.read? v).isSome) c (loaderCalls o) where
  assignments := by
    rw [assignmentsOf_loaderCalls]
    intro e he
    obtain ⟨entry, hentry, rfl⟩ := List.mem_map.mp he
    obtain ⟨k, hk, htext⟩ := exists_of_mem_overrides hentry
    refine ⟨k, hk, ?_⟩
    have hread := read?_switchText hlegible k
    rw [htext, Option.map_some, Option.bind_some] at hread
    rw [hread]
    exact isSome_switched? (Option.isSome_iff_exists.mpr ⟨_, htext⟩)
  environment := by
    intro beginning hbeginning
    rw [beginningOf_loaderCalls] at hbeginning
    obtain rfl := Option.some.inj hbeginning
    exact h.environment
  sources := by
    rw [sourcesOf_loaderCalls]
    exact h.files

/-- What is given to a setting: what the switches set it to, or else what stands below them. -/
theorem given?_loaderCalls (k : Setting) :
    given? c (loaderCalls o) k = ((switchText? o k).map Scalar.text).or
      ((inEnvironment? c k).or
        (((namedSources o).filterMap (inFile? c k)).getLast?.or (inFile? c k defaultSource))) := by
  have hfiles : fromSource? c (loaderCalls o) k
      = ((namedSources o).filterMap (inFile? c k)).getLast?.or (inFile? c k defaultSource) := by
    show ((sourcesOf (loaderCalls o)).filterMap (inFile? c k)).getLast? = _
    rw [sourcesOf_loaderCalls, List.filterMap_cons]
    cases inFile? c k defaultSource with
    | none => exact (Option.or_none).symm
    | some v => exact (Option.or_none).symm.trans (getLast?_cons_or v _ none)
  have hvariable : fromVariable? c (loaderCalls o) k = inEnvironment? c k := by
    rw [fromVariable?, beginningOf_loaderCalls, Option.bind_some]
    rfl
  rw [given?, fromCall?_loaderCalls, hvariable, hfiles]

/-- What a setting comes to is what the switches say, or else what stands below them, or else the
    default. -/
theorem get_eq_of_chosen (hlegible : LegiblePaths o) {k : Setting} {content : k.Content}
    (h : k.chosen (given? c (loaderCalls o) k) = some content) :
    content = ((switched? o k).or (below? o c k)).getD k.default := by
  rw [given?_loaderCalls] at h
  rw [← read?_switchText hlegible, below?]
  generalize (switchText? o k).map Scalar.text = switched at h ⊢
  generalize (inEnvironment? c k).or _ = below at h ⊢
  cases switched with
  | some v =>
      have hread : k.read? v = some content := h
      rw [Option.bind_some, hread]
      rfl
  | none =>
      cases below with
      | some v =>
          have hread : k.read? v = some content := h
          rw [Option.bind_none, Option.none_or, Option.bind_some, hread]
          rfl
      | none => exact (Option.some.inj h).symm

/-- Settings that are chosen one by one are decided by the layers, the file's verbosity by that of
    the console where nothing else is said. -/
theorem decides_of_chosen (hlegible : LegiblePaths o) {s : Settings}
    (h : ∀ k : Setting, k.chosen (given? c (loaderCalls o) k) = some (s.get k)) :
    Decides o c s where
  console := get_eq_of_chosen hlegible (h .console)
  file := by
    have hfile := get_eq_of_chosen hlegible (h .file)
    rw [switched?, Option.or_assoc] at hfile
    exact hfile
  logFile := get_eq_of_chosen hlegible (h .logFile)
  program := get_eq_of_chosen hlegible (h .program)
  repository := get_eq_of_chosen hlegible (h .repository)

theorem sources_loader (o : Options) : (loader o).sources = defaultSource :: namedSources o := by
  have hmade := made?_loaderCalls o
  rw [Loader.made?_eq] at hmade
  obtain ⟨overrides, -, hloader⟩ := Option.map_eq_some_iff.mp hmade
  rw [← hloader]
  exact sourcesOf_loaderCalls o

/-- The sources that are listed: the default file where it exists, and the named files. -/
theorem listing_loader (o : Options) (c : Computer) :
    (loader o).listing c = ((if c.disk.holds c.directory defaultSettings
      then ["[optional] git-rebase-rules.toml"] else []) ++
        o.settingsFiles.map fun p => s!"[file] {p.text}").zipIdx.map
          fun (line, i) => s!"{i + 1}. {line}" := by
  have hnamed : (namedSources o).filterMap (Source.listed c)
      = o.settingsFiles.map fun p => s!"[file] {p.text}" := by
    rw [namedSources, List.filterMap_map, ← List.filterMap_eq_map]
    rfl
  have hname : defaultSettings.text = "git-rebase-rules.toml" := by decide +kernel
  have hdefault : defaultSource.listed c = if c.disk.holds c.directory defaultSettings
      then some "[optional] git-rebase-rules.toml" else none := by
    rw [defaultSource, Source.listed, hname]
    rfl
  rw [Loader.listing, sources_loader, List.filterMap_cons, hnamed, hdefault]
  cases c.disk.holds c.directory defaultSettings <;> rfl

/-- Settings with a file for a repository cannot be loaded. -/
theorem load_of_repository_file {l : Loader} {entries : Entries} {s : Settings} {p : String}
    (hentries : l.entries c = .ok entries) (hs : ofEntries entries = .ok s)
    (hp : s.repository = some p) (hholds : c.disk.holds c.directory (Path.ofString p) = true)
    (hfile : c.disk.holdsDirectory c.directory (Path.ofString p) = false) :
    l.load c
      = .error (.unusable (.invalidSetting "repo" "path" s!"'{p}' is not a directory")) := by
  have hcheck : s.check c.disk c.directory
      = .error (.invalidSetting "repo" "path" s!"'{p}' is not a directory") := by
    rw [check, hp]
    dsimp only
    rw [hholds, hfile]
    rfl
  rw [Loader.load, hentries]
  show (ofEntries entries).bind _ = _
  rw [hs]
  dsimp only [Except.bind]
  rw [hcheck]
  rfl

/-- **THE HIGHER SOURCE DECIDES**: where variables and files give settings only what these can have,
    each setting is what its switch says, as it was typed, or else its variable, the last named file
    that speaks of it, the default file, or the default.  Nothing but a repository that is a file
    keeps these settings from being loaded.  Listed are the default file, where it exists, and the
    named files. -/
theorem load_follows_precedence (h : GoodLayers o c) (hlegible : LegiblePaths o) :
    ∃ s : Settings, Decides o c s ∧
      (s.Usable c → (loader o).load c = .ok s) ∧
      (∀ p, s.repository = some p → c.disk.holds c.directory (Path.ofString p) = true →
        c.disk.holdsDirectory c.directory (Path.ofString p) = false →
          (loader o).load c
            = .error (.unusable (.invalidSetting "repo" "path" s!"'{p}' is not a directory"))) ∧
      (loader o).listing c = ((if c.disk.holds c.directory defaultSettings
        then ["[optional] git-rebase-rules.toml"] else []) ++
          o.settingsFiles.map fun p => s!"[file] {p.text}").zipIdx.map
            fun (line, i) => s!"{i + 1}. {line}" := by
  have hwell := h.wellFormed hlegible
  obtain ⟨l, entries, hl, hentries, horderly, hat⟩ := exists_entries hwell
  obtain rfl := Option.some.inj (hl.symm.trans (made?_loaderCalls o))
  have hchosen (k : Setting) :
      ∃ content, k.chosen (given? c (loaderCalls o) k) = some content := by
    cases hgiven : given? c (loaderCalls o) k with
    | none => exact ⟨k.default, rfl⟩
    | some v => exact Option.isSome_iff_exists.mp (hwell.accepts_of_given? hgiven)
  choose content hcontent using hchosen
  have hs : ∀ k : Setting, k.chosen (given? c (loaderCalls o) k)
      = some ((ofContents content).get k) := fun k => by rw [get_ofContents, hcontent]
  have hload : ofEntries entries = .ok (ofContents content) :=
    (ofEntries_eq_ok_iff horderly).mpr fun k => by rw [hat, hs]
  refine ⟨ofContents content, decides_of_chosen hlegible hs, fun husable => ?_,
    fun p hp hholds hfile => ?_, listing_loader o c⟩
  · exact Loader.load_eq_ok_iff.mpr ⟨entries, hentries, hload, husable⟩
  · exact load_of_repository_file hentries hload hp hholds hfile

/-- A computer with a default file, another settings file, and a variable. -/
def fourLayers : Computer where
  disk := Disk.ofList [([], .directory),
    ([Text.encode "git-rebase-rules.toml"], .file (Text.encode "repo.path='r'") .data),
    ([Text.encode "a.toml"], .file (Text.encode "tools.git='a'") .data)]
  directory := []
  environment :=
    [(Text.encode "GIT_REBASE_RULES_GLOBAL__OUTPUT_LOG_LEVEL", Text.encode "4")]

/-- Options that name a file, and set the console and the repository. -/
def fourLayersOptions : Options where
  plan := some (Path.ofString "plan")
  settingsFiles := [Path.ofString "a.toml"]
  console := some ⟨1, by decide⟩
  repository := some (Path.ofString "wd")

theorem table?_fourLayers :
    defaultSource.table? fourLayers = some [("repo", .table [("path", .string "r")])] ∧
      (Source.file (Path.ofString "a.toml") true).table? fourLayers
        = some [("tools", .table [("git", .string "a")])] := by
  have htable {p found : Path} {content : String} {required : Bool}
      {table : List (String × Toml.Value)} (hfile : fileOf? fourLayers p = some found)
      (hread : fourLayers.disk.read fourLayers.directory found
        = .ok (Text.encode content))
      (hlossy : Text.lossy (withoutMarkBytes (Text.encode content)) = content)
      (htoml : Toml.read? content = some table) :
      (Source.file p required).table? fourLayers = some table := by
    rw [Source.table?, hfile]
    dsimp only
    rw [hread, Except.toOption, Option.bind_some, hlossy, htoml]
  constructor
  · exact @htable _ (Path.ofString "/git-rebase-rules.toml") "repo.path='r'" _ _
      (by decide +kernel) (by decide +kernel) (by decide +kernel) (by cbv)
  · exact @htable _ (Path.ofString "/a.toml") "tools.git='a'" _ _
      (by decide +kernel) (by decide +kernel) (by decide +kernel) (by cbv)

theorem variableKey?_fourLayers :
    variableKey? variableStart (Text.encode "GIT_REBASE_RULES_GLOBAL__OUTPUT_LOG_LEVEL")
      = some Setting.console.path := by
  decide +kernel

theorem guess_four : (Text.strict (Text.encode "4")).map guess = some (.integer 4) := by
  decide +kernel

theorem inEnvironment?_fourLayers (k : Setting) :
    inEnvironment? fourLayers k = if k = .console then some (.integer 4) else none := by
  rw [inEnvironment?, show fourLayers.environment = [(_, _)] from rfl, List.filterMap_cons,
    variableKey?_fourLayers, guess_four, List.filterMap_nil]
  by_cases hk : k = .console
  · rw [hk, if_pos rfl, if_pos rfl]
    rfl
  · rw [if_neg hk, if_neg fun heq => hk (Setting.path_injective (Option.some.inj heq)).symm]
    rfl

/-- Below the switches each layer gives one setting, and two are given by none. -/
theorem below?_fourLayers (k : Setting) : below? fourLayersOptions fourLayers k =
    match k with
      | .console => some ⟨4, by decide⟩
      | .program => some (some "a")
      | .repository => some (some "r")
      | .file | .logFile => none := by
  obtain ⟨hdefault, hnamed⟩ := table?_fourLayers
  have hsources : namedSources fourLayersOptions = [.file (Path.ofString "a.toml") true] := rfl
  rw [below?, inEnvironment?_fourLayers, hsources, List.filterMap_cons, List.filterMap_nil, inFile?,
    hnamed, inFile?, hdefault]
  cases k <;> decide +kernel

/-- All of these layers are good. -/
theorem goodLayers_fourLayers : GoodLayers fourLayersOptions fourLayers where
  environment := by
    intro e he key hkey
    obtain rfl := List.mem_singleton.mp he
    obtain ⟨text, htext, hguess⟩ := Option.map_eq_some_iff.mp guess_four
    obtain rfl := Option.some.inj (variableKey?_fourLayers.symm.trans hkey)
    refine ⟨.console, text, rfl, htext, ?_⟩
    rw [hguess]
    rfl
  files := by
    obtain ⟨hdefault, hnamed⟩ := table?_fourLayers
    have hone (k : Setting) (hk : ∀ s, (k.read? (.text s)).isSome) (s : String) :
        HoldsSettings (fun k v => (k.read? v).isSome)
          [(k.home.name, .table [(k.name, .string s)])] := by
      intro e he
      obtain rfl := List.mem_singleton.mp he
      refine ⟨⟨k, rfl⟩, _, rfl, fun d hd => ?_⟩
      obtain rfl := List.mem_singleton.mp hd
      exact ⟨k, _, rfl, rfl, rfl, hk s⟩
    intro s hs
    rcases List.mem_cons.mp hs with rfl | hs
    · exact ⟨_, hdefault, hone .repository (fun _ => rfl) "r"⟩
    · obtain rfl := List.mem_singleton.mp hs
      exact ⟨_, hnamed, hone .program (fun _ => rfl) "a"⟩

/-- The switch for the console is over its variable, and goes for the log file too; the switch for
    the repository is over the default file. -/
theorem load_follows_precedence_four_layers :
    GoodLayers fourLayersOptions fourLayers ∧ LegiblePaths fourLayersOptions ∧
      (loader fourLayersOptions).load fourLayers = .ok {
        console := ⟨1, by decide⟩, file := ⟨1, by decide⟩, program := some "a",
        repository := some "wd" } ∧
      (loader fourLayersOptions).listing fourLayers
        = ["1. [optional] git-rebase-rules.toml", "2. [file] a.toml"] := by
  have hlegible : LegiblePaths fourLayersOptions := by
    intro p hp
    obtain rfl := List.mem_singleton.mp hp
    decide +kernel
  obtain ⟨s, hdecides, hload, -, hlisting⟩ :=
    load_follows_precedence goodLayers_fourLayers hlegible
  have hs : s = {
      console := ⟨1, by decide⟩, file := ⟨1, by decide⟩, program := some "a",
      repository := some "wd" } := by
    have hwd : typed (Path.ofString "wd") = some "wd" := by decide +kernel
    refine eq_of_get fun k => ?_
    cases k with
    | console => exact hdecides.console
    | file => exact hdecides.file
    | logFile => exact hdecides.logFile.trans (by rw [below?_fourLayers]; rfl)
    | program => exact hdecides.program.trans (by rw [below?_fourLayers]; rfl)
    | repository => exact hdecides.repository.trans hwd
  subst hs
  refine ⟨goodLayers_fourLayers, hlegible, hload ?_, ?_⟩
  · intro p hp
    obtain rfl := Option.some.inj hp
    decide +kernel
  · rw [hlisting]
    decide +kernel

end Program

end RebasePlan
