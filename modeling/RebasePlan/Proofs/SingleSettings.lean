import RebasePlan.Settings.Loader

/-! # The settings one by one

    There are five settings, each with a place of its own: a name in a section.
    Values that keep to these places, single values in the tables of their sections,
    come to settings just if each of the five is chosen well, and then to what was
    chosen: what the value at its place stands for, or the default where there is
    none (`ofEntries_eq_ok_iff`).  No setting looks at the place of another. -/

namespace RebasePlan

theorem Verbosity.ofNat?_eq_some_iff {n : Nat} {v : Verbosity} :
    Verbosity.ofNat? n = some v ↔ v.value = n := by
  rw [Verbosity.ofNat?]
  split
  · exact ⟨fun h => Option.some.inj h ▸ rfl, fun h => congrArg some (by cases v; cases h; rfl)⟩
  · next hlarge =>
    refine ⟨fun h => (nomatch h), fun h => ?_⟩
    exact (hlarge (h ▸ v.value_le)).elim

/-- A number passes the check just if it stands for a verbosity. -/
theorem Verbosity.check_eq_ok_iff {n : Nat} {v : Verbosity} :
    Verbosity.check n = .ok v ↔ Verbosity.ofNat? n = some v := by
  rw [Verbosity.check]
  cases Verbosity.ofNat? n <;> simp

namespace Settings

/-- One of the things that can be set. -/
inductive Setting where
  | console
  | file
  | logFile
  | program
  | repository
  deriving DecidableEq, Repr

namespace Setting

/-- What a setting is set to. -/
@[reducible] def Content : Setting → Type
  | console | file => Verbosity
  | logFile | program | repository => Option String

/-- The section that a setting belongs to. -/
def home : Setting → Section
  | console | file | logFile => globalSection
  | program => toolsSection
  | repository => repoSection

/-- The name of a setting in its section. -/
def name : Setting → String
  | console => "output_log_level"
  | file => "file_log_level"
  | logFile => "log_file"
  | program => "git"
  | repository => "path"

theorem name_mem (k : Setting) : k.name ∈ k.home.settings := by
  cases k <;> decide

/-- The steps to a setting: its section, and its name there. -/
def key (k : Setting) : Key := ⟨k.home.name, [.name k.name]⟩

/-- The key of a setting as it is written. -/
def path (k : Setting) : String := k.home.name ++ "." ++ k.name

/-- The path of a setting is read as its key. -/
theorem read?_path (k : Setting) : Key.read? k.path = some k.key := by
  cases k <;> decide +kernel

theorem ofName_path (k : Setting) : Key.ofName k.path = k.key := by
  rw [Key.ofName, read?_path, Option.getD_some]

/-- The name of a section is read as one name. -/
theorem ofName_home (k : Setting) : Key.ofName k.home.name = ⟨k.home.name, []⟩ := by
  cases k <;> decide +kernel

/-- No two settings have their name and their section in common. -/
theorem eq_of_place {k k' : Setting} (hhome : k.home.name = k'.home.name)
    (hname : k.name = k'.name) : k = k' := by
  revert hhome hname
  cases k <;> cases k' <;> decide

/-- A setting is known by its key. -/
theorem key_injective {k k' : Setting} (h : k.key = k'.key) : k = k' := by
  obtain ⟨hhome, hsteps⟩ := Key.mk.inj h
  exact eq_of_place hhome (Step.name.inj (List.cons.inj hsteps).1)

theorem path_injective {k k' : Setting} (h : k.path = k'.path) : k = k' :=
  key_injective (by rw [← ofName_path, ← ofName_path, h])

theorem home_eq_of_name {k k' : Setting} (h : k.home.name = k'.home.name) : k.home = k'.home := by
  cases k <;> cases k' <;> simp_all [home, globalSection, toolsSection, repoSection]

end Setting

/-- What one of the settings is set to. -/
def get (s : Settings) : (k : Setting) → k.Content
  | .console => s.console
  | .file => s.file
  | .logFile => s.logFile
  | .program => s.program
  | .repository => s.repository

/-- The settings with these contents. -/
def ofContents (content : (k : Setting) → k.Content) : Settings where
  console := content .console
  file := content .file
  logFile := content .logFile
  program := content .program
  repository := content .repository

@[simp] theorem get_ofContents (content : (k : Setting) → k.Content) (k : Setting) :
    (ofContents content).get k = content k := by
  cases k <;> rfl

theorem ofContents_get (s : Settings) : ofContents s.get = s := rfl

/-- Settings are the same if all five are set to the same. -/
theorem eq_of_get {s t : Settings} (h : ∀ k, s.get k = t.get k) : s = t := by
  rw [← ofContents_get s, ← ofContents_get t, funext h]

/-- What a setting is set to where nothing says otherwise. -/
def Setting.default (k : Setting) : k.Content := ({} : Settings).get k

theorem bind_eq_ok_iff {α β : Type} {x : Except LoadError α} {f : α → Except LoadError β} {b : β} :
    x.bind f = .ok b ↔ ∃ a, x = .ok a ∧ f a = .ok b := by
  cases x with
  | error e => exact ⟨fun h => (nomatch h), fun ⟨_, h, _⟩ => nomatch h⟩
  | ok a => exact ⟨fun h => ⟨a, rfl, h⟩, fun ⟨_, ha, h⟩ => Except.ok.inj ha ▸ h⟩

/-! ## What single values stand for -/

/-- The number without sign that a single value stands for. -/
def Scalar.number? : Scalar → Option Nat
  | .nothing => none
  | .boolean b => some (if b then 1 else 0)
  | .integer n => if n < 0 then none else some n.toNat
  | .unsigned n => some n
  | .float x => some x.toUnsigned
  | .text s => numberOfText? s

/-- The verbosity that a single value stands for. -/
def Scalar.verbosity? (s : Scalar) : Option Verbosity := s.number?.bind Verbosity.ofNat?

/-- The text that a single value is printed as; nothing is no text. -/
def Scalar.printed : Scalar → Option String
  | .nothing => none
  | .boolean b => some (toString b)
  | .integer n => some (toString n)
  | .unsigned n => some (toString n)
  | .float x => some x.text
  | .text s => some s

/-- What a single value sets a setting to, if it can stand there. -/
def Setting.read? : (k : Setting) → Scalar → Option k.Content
  | .console, s | .file, s => s.verbosity?
  | .logFile, s | .program, s | .repository, s => some s.printed

/-- What a setting comes to with a value that is given to it, or without one. -/
def Setting.chosen (k : Setting) : Option Scalar → Option k.Content
  | none => some k.default
  | some s => k.read? s

variable {name place : String} {origin : Option String} {s : Scalar}

/-- A single value among those of a section is read as the number that it is. -/
theorem Member.number_eq_ok_iff {n : Nat} :
    (Member.mk name place (.scalar origin s)).number = .ok n ↔ s.number? = some n := by
  cases s with
  | integer i =>
      rw [Member.number, Scalar.number?]
      dsimp only
      split <;> simp
  | text t =>
      rw [Member.number, Scalar.number?]
      dsimp only
      cases numberOfText? t <;> simp
  | nothing | boolean | unsigned | float => simp [Member.number, Scalar.number?]

/-- The bound of a byte, which is looked at first, lies above all verbosities. -/
theorem Member.verbosity_eq_ok_iff_of_number {m : Member} {n : Nat} {v : Verbosity}
    (hn : m.number = .ok n) : m.verbosity = .ok v ↔ Verbosity.ofNat? n = some v := by
  rw [Member.verbosity, hn, ← Verbosity.check_eq_ok_iff]
  show ((if n > 255 then _ else _) : Except LoadError Verbosity) = .ok v ↔ _
  split
  · next hlarge =>
    rw [Verbosity.check_eq_ok_iff, Verbosity.ofNat?, dif_neg (by omega)]
    exact ⟨fun h => (nomatch h), fun h => nomatch h⟩
  · cases Verbosity.check n with
    | ok w =>
        exact ⟨fun h => congrArg Except.ok (Except.ok.inj h),
          fun h => congrArg Except.ok (Except.ok.inj h)⟩
    | error e => exact ⟨fun h => (nomatch h), fun h => nomatch h⟩

/-- It is read as the verbosity that it is. -/
theorem Member.verbosity_eq_ok_iff {v : Verbosity} :
    (Member.mk name place (.scalar origin s)).verbosity = .ok v ↔ s.verbosity? = some v := by
  rw [Scalar.verbosity?, Option.bind_eq_some_iff]
  cases hn : (Member.mk name place (.scalar origin s)).number with
  | error e =>
      rw [Member.verbosity, hn]
      constructor
      · exact fun h => nomatch h
      · rintro ⟨n, h, -⟩
        rw [Member.number_eq_ok_iff.mpr h] at hn
        exact nomatch hn
  | ok n =>
      rw [Member.verbosity_eq_ok_iff_of_number hn]
      rw [Member.number_eq_ok_iff] at hn
      exact ⟨fun h => ⟨n, hn, h⟩, fun ⟨m, hm, h⟩ => Option.some.inj (hn.symm.trans hm) ▸ h⟩

/-- It is always read as a text, the one that it is printed as. -/
theorem Member.text_scalar :
    (Member.mk name place (.scalar origin s)).text = .ok s.printed := by
  cases s <;> rfl

/-! ## Values that keep to the places of settings -/

/-- A value without parts. -/
def Value.scalar? : Value → Option Scalar
  | .scalar _ s => some s
  | _ => none

/-- The entries of a table. -/
def Value.entries? : Value → Option Entries
  | .table _ entries => some entries
  | _ => none

/-- The entries in the table of a section. -/
def Entries.within (entries : Entries) (home : Section) : Entries :=
  ((entries.lookup home.name).bind Value.entries?).getD []

/-- The single value at the place of a setting. -/
def Entries.at? (entries : Entries) (k : Setting) : Option Scalar :=
  ((entries.within k.home).lookup k.name).bind Value.scalar?

/-- Entries give settings of a section single values, and nothing else. -/
structure Section.Keeps (home : Section) (entries : Entries) : Prop where
  known : ∀ e ∈ entries, e.1 ∈ home.settings
  single : ∀ e ∈ entries, e.2.scalar?.isSome

/-- Every value is the table of a section and keeps to it. -/
def Entries.Orderly (entries : Entries) : Prop :=
  ∀ e ∈ entries, ∃ (k : Setting) (inner : Entries),
    e.1 = k.home.name ∧ e.2.entries? = some inner ∧ k.home.Keeps inner

/-- What has a single value is one. -/
theorem Value.eq_scalar_of_scalar? {v : Value} (h : v.scalar? = some s) :
    ∃ origin, v = .scalar origin s := by
  cases v with
  | scalar origin t => exact ⟨origin, by rw [Option.some.inj h]⟩
  | list | table => exact nomatch h

/-- What has entries is a table. -/
theorem Value.eq_table_of_entries? {v : Value} {entries : Entries} (h : v.entries? = some entries) :
    ∃ origin, v = .table origin entries := by
  cases v with
  | table origin inner => exact ⟨origin, by rw [Option.some.inj h]⟩
  | scalar | list => exact nomatch h

theorem mem_of_lookup {entries : Entries} {v : Value} (h : entries.lookup name = some v) :
    (name, v) ∈ entries := by
  obtain ⟨before, after, rfl, -⟩ := List.lookup_eq_some_iff.mp h
  exact List.mem_append_right _ List.mem_cons_self

theorem Section.keeps_nil (home : Section) : home.Keeps [] :=
  ⟨fun _ he => (nomatch he), fun _ he => nomatch he⟩

theorem Entries.orderly_nil : Entries.Orderly [] := fun _ he => nomatch he

/-- What stands at the place of a section is a table that keeps to this section. -/
theorem Entries.Orderly.entries?_lookup {entries : Entries} (h : entries.Orderly) {k : Setting}
    {v : Value} (hv : entries.lookup k.home.name = some v) :
    v.entries? = some (entries.within k.home) ∧ k.home.Keeps (entries.within k.home) := by
  obtain ⟨k', inner, hname, hinner, hkeeps⟩ := h _ (mem_of_lookup hv)
  have hwithin : entries.within k.home = inner := by
    rw [within, hv, Option.bind_some, hinner, Option.getD_some]
  rw [hwithin, Setting.home_eq_of_name hname]
  exact ⟨hinner, hkeeps⟩

/-- The table of a section keeps to it, be it there or not. -/
theorem Entries.Orderly.keeps_within {entries : Entries} (h : entries.Orderly) (k : Setting) :
    k.home.Keeps (entries.within k.home) := by
  cases hv : entries.lookup k.home.name with
  | none =>
      rw [within, hv]
      exact k.home.keeps_nil
  | some v => exact (h.entries?_lookup hv).2

/-- What is found among the values of a section is what stands there under the name. -/
theorem member?_map (place : String → String) (setting : String) (entries : Entries) :
    member? (entries.map fun e => ⟨e.1, place e.1, e.2⟩) setting
      = (entries.lookup setting).map fun v => ⟨setting, place setting, v⟩ := by
  induction entries with
  | nil => rfl
  | cons e rest ih =>
      obtain ⟨n, v⟩ := e
      by_cases hn : n = setting
      · subst hn
        simp [member?]
      · have hn' : (setting == n) = false := beq_eq_false_iff_ne.mpr (Ne.symm hn)
        rw [List.lookup_cons, hn', ← ih]
        simp [member?, hn]

/-- What is found among the values of a section, against the single value that was given. -/
inductive Member.Shows (name : String) : Option Member → Option Scalar → Prop where
  | nothing : Shows name none none
  | single (place : String) (origin : Option String) (s : Scalar) :
      Shows name (some ⟨name, place, .scalar origin s⟩) (some s)

/-- What a setting comes to among the values of its section. -/
def Setting.ofMembers (members : List Member) : (k : Setting) → Except LoadError k.Content
  | .console => verbosityOf members "output_log_level" .info
  | .file => verbosityOf members "file_log_level" .trace
  | .logFile => textOf members "log_file"
  | .program => textOf members "git"
  | .repository => textOf members "path"

/-- A setting comes to what is chosen for it, given the single value that is found, if one is. -/
theorem Setting.ofMembers_eq_ok_iff {members : List Member} {given : Option Scalar} {k : Setting}
    (h : Member.Shows k.name (member? members k.name) given) {v : k.Content} :
    k.ofMembers members = .ok v ↔ k.chosen given = some v := by
  have hverbosity {name : String} {default v : Verbosity}
      (h : Member.Shows name (member? members name) given) :
      verbosityOf members name default = .ok v ↔
        given.elim (some default) Scalar.verbosity? = some v := by
    rw [verbosityOf]
    generalize member? members name = found at h
    cases h with
    | nothing => exact ⟨fun h => congrArg some (Except.ok.inj h),
        fun h => congrArg Except.ok (Option.some.inj h)⟩
    | single => exact Member.verbosity_eq_ok_iff
  have htext {name : String} {v : Option String}
      (h : Member.Shows name (member? members name) given) :
      textOf members name = .ok v ↔ given.elim (some none) (fun s => some s.printed) = some v := by
    rw [textOf]
    generalize member? members name = found at h
    cases h with
    | nothing => exact ⟨fun h => congrArg some (Except.ok.inj h),
        fun h => congrArg Except.ok (Option.some.inj h)⟩
    | single =>
        dsimp only
        rw [Member.text_scalar]
        exact ⟨fun h => congrArg some (Except.ok.inj h),
          fun h => congrArg Except.ok (Option.some.inj h)⟩
  cases k with
  | console | file => exact (hverbosity h).trans (by cases given <;> rfl)
  | logFile | program | repository => exact (htext h).trans (by cases given <;> rfl)

/-- Values come to settings just if each setting comes to its content among the values of its
    section, and there are no others. -/
theorem ofEntries_eq_ok_iff_ofMembers {entries : Entries} {s : Settings} :
    ofEntries entries = .ok s ↔ (entries.find? fun e => !sectionNames.contains e.1) = none ∧
      ∀ k : Setting, ∃ members, k.home.members (entries.lookup k.home.name) = .ok members ∧
        k.ofMembers members = .ok (s.get k) := by
  rw [ofEntries]
  cases entries.find? fun e => !sectionNames.contains e.1 with
  | some e => exact ⟨fun h => (nomatch h), fun h => nomatch h.1⟩
  | none =>
      show ((globalSection.members (entries.lookup globalSection.name)).bind fun logging =>
        (toolsSection.members (entries.lookup toolsSection.name)).bind fun tools =>
          (repoSection.members (entries.lookup repoSection.name)).bind fun repo =>
            (Setting.console.ofMembers logging).bind fun console =>
              (Setting.file.ofMembers logging).bind fun file =>
                (Setting.logFile.ofMembers logging).bind fun logFile =>
                  (Setting.program.ofMembers tools).bind fun program =>
                    (Setting.repository.ofMembers repo).bind fun repository =>
                      .ok ⟨console, file, logFile, program, repository⟩) = .ok s ↔ _
      simp only [bind_eq_ok_iff]
      constructor
      · rintro ⟨logging, hlogging, tools, htools, repo, hrepo, console, hconsole, file, hfile,
          logFile, hlogFile, program, hprogram, repository, hrepository, heq⟩
        obtain rfl := Except.ok.inj heq
        refine ⟨trivial, fun k => ?_⟩
        cases k with
        | console => exact ⟨logging, hlogging, hconsole⟩
        | file => exact ⟨logging, hlogging, hfile⟩
        | logFile => exact ⟨logging, hlogging, hlogFile⟩
        | program => exact ⟨tools, htools, hprogram⟩
        | repository => exact ⟨repo, hrepo, hrepository⟩
      · rintro ⟨-, hall⟩
        obtain ⟨logging, hlogging, hconsole⟩ := hall .console
        obtain ⟨logging', hlogging', hfile⟩ := hall .file
        obtain ⟨logging'', hlogging'', hlogFile⟩ := hall .logFile
        obtain ⟨tools, htools, hprogram⟩ := hall .program
        obtain ⟨repo, hrepo, hrepository⟩ := hall .repository
        obtain rfl := Except.ok.inj (hlogging.symm.trans hlogging')
        obtain rfl := Except.ok.inj (hlogging.symm.trans hlogging'')
        exact ⟨logging, hlogging, tools, htools, repo, hrepo, _, hconsole, _, hfile, _, hlogFile, _,
          hprogram, _, hrepository, rfl⟩

/-- Among the values of a section stand those at the places of its settings. -/
theorem exists_members {entries : Entries} (h : entries.Orderly) (k : Setting) :
    ∃ members, k.home.members (entries.lookup k.home.name) = .ok members ∧
      Member.Shows k.name (member? members k.name) (entries.at? k) := by
  have hkeeps := h.keeps_within k
  refine ⟨(entries.within k.home).map fun e => ⟨e.1, s!"{k.home.name}.{e.1}", e.2⟩, ?_, ?_⟩
  · cases hv : entries.lookup k.home.name with
    | none =>
        rw [Entries.within, hv]
        rfl
    | some v =>
        obtain ⟨origin, rfl⟩ := Value.eq_table_of_entries? (h.entries?_lookup hv).1
        have hfind :
            ((entries.within k.home).find? fun e => !k.home.settings.contains e.1) = none :=
          List.find?_eq_none.mpr fun e he => by simpa using hkeeps.known e he
        rw [Section.members, hfind]
  · rw [member?_map (fun n => s!"{k.home.name}.{n}"), Entries.at?]
    cases hw : (entries.within k.home).lookup k.name with
    | none => exact .nothing
    | some w =>
        obtain ⟨s, hs⟩ := Option.isSome_iff_exists.mp (hkeeps.single _ (mem_of_lookup hw))
        obtain ⟨o, rfl⟩ := Value.eq_scalar_of_scalar? hs
        exact .single _ o s

/-- **EACH SETTING BY ITSELF**: values that keep to the places of settings come to the settings in
    which each is what was chosen for it, and to none where one cannot be what was chosen. -/
theorem ofEntries_eq_ok_iff {entries : Entries} (h : entries.Orderly) {s : Settings} :
    ofEntries entries = .ok s ↔ ∀ k, k.chosen (entries.at? k) = some (s.get k) := by
  have hknown : (entries.find? fun e => !sectionNames.contains e.1) = none := by
    refine List.find?_eq_none.mpr fun e he => ?_
    obtain ⟨k, -, hname, -⟩ := h e he
    rw [hname]
    cases k <;> decide
  rw [ofEntries_eq_ok_iff_ofMembers, and_iff_right hknown]
  refine forall_congr' fun k => ?_
  obtain ⟨members, hmembers, hshows⟩ := exists_members h k
  constructor
  · rintro ⟨members', hmembers', hk⟩
    obtain rfl := Except.ok.inj (hmembers.symm.trans hmembers')
    exact (Setting.ofMembers_eq_ok_iff hshows).mp hk
  · exact fun hk => ⟨members, hmembers, (Setting.ofMembers_eq_ok_iff hshows).mpr hk⟩

end Settings

end RebasePlan
