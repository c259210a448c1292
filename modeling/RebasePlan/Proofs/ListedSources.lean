import RebasePlan.Proofs.SettingLayers

/-! # Listed sources and read sources

    A loader lists its sources by what their paths lead to, and reads them by a
    search of its own: for the file itself, and else for one whose name has an
    ending more.  A source can be listed and not be read, as an optional path
    that leads to a directory; it can be read and not be listed, as an optional
    path that leads nowhere without its ending; and it can be listed by another
    path than that of its file (`Source.Misleads`).

    Without such sources the list is what was read, and with one it never is
    (`Loader.lists_what_is_read_iff`).  Two mistakes do not make up for each
    other: what is listed but leads to no file is not read for any source, so
    the list is a part of what is read, and no source that is missing in it can
    be hidden (`filterMap_eq_filterMap_iff`). -/

namespace RebasePlan.Settings

variable {c : Computer}

/-! ## The two searches -/

/-- A path as it is searched for: one that is seen from the current directory, from the root. -/
def fullPath (c : Computer) (p : Path) : Path := c.directoryPath.join p

/-- If there is a file at the path itself, the search ends with it. -/
theorem fileOf?_of_holdsFile {p : Path} (h : c.disk.holdsFile c.directory (fullPath c p) = true) :
    fileOf? c p = some (fullPath c p) := if_pos h

/-- What is found is a file. -/
theorem holdsFile_of_fileOf? {p found : Path} (h : fileOf? c p = some found) :
    c.disk.holdsFile c.directory found = true := by
  rw [fileOf?] at h
  dsimp only at h
  split at h
  · next hfile =>
    obtain rfl := Option.some.inj h
    exact hfile
  · split at h
    · next hlonger =>
      obtain rfl := Option.some.inj h
      exact hlonger
    · exact nomatch h

namespace Source

/-- A source with its path from the root. -/
def inPlace (c : Computer) : Source → Source
  | .text content => .text content
  | .file p required => .file (fullPath c p) required

/-- Whether a source is in the list. -/
def isListed (c : Computer) (s : Source) : Bool := (s.listed c).isSome

/-- How a source is listed. -/
def line : Source → String
  | .text _ => "[string] <string>"
  | .file p true => s!"[file] {p.text}"
  | .file p false => s!"[optional] {p.text}"

/-- A source that is listed, with its path from the root. -/
def listedAs? (c : Computer) (s : Source) : Option Source :=
  if s.isListed c then some (s.inPlace c) else none

/-- What is read for a source: the text itself, or the file that is found, by its path from the
    root. -/
def readAs? (c : Computer) : Source → Option Source
  | .text content => some (.text content)
  | .file p required => (fileOf? c p).map fun found => .file found required

/-- The values in what is read. -/
def content (c : Computer) : Source → Except LoadError Entries
  | .text content => entriesOfText none content
  | .file found _ => entriesOfFile c found

/-- Puts the values of all that is read on top of others, one after the other. -/
def merge (c : Computer) (read : List Source) (entries : Entries) : Except LoadError Entries :=
  read.foldlM (fun entries s => (s.content c).map entries.putAll) entries

/-- A source for which the list says something else than what is read. -/
inductive Misleads (c : Computer) : Source → Prop where
  /-- An optional path leads somewhere, but no file is found for it. -/
  | listedOnly {p : Path} (leads : c.disk.holds c.directory p = true)
      (missing : fileOf? c p = none) : Misleads c (.file p false)
  /-- An optional path leads nowhere, but a file is found for it. -/
  | readOnly {p found : Path} (nowhere : c.disk.holds c.directory p = false)
      (finds : fileOf? c p = some found) : Misleads c (.file p false)
  /-- A path is listed, but the file that is found for it has another one. -/
  | otherFile {p found : Path} {required : Bool} (shown : (file p required).isListed c = true)
      (finds : fileOf? c p = some found) (other : found ≠ fullPath c p) :
      Misleads c (.file p required)

theorem listed_eq (s : Source) : s.listed c = if s.isListed c then some s.line else none := by
  cases s with
  | text content => rfl
  | file p required =>
      cases required with
      | true => rfl
      | false =>
          rw [isListed, listed]
          cases c.disk.holds c.directory p <;> rfl

/-- An optional path is listed just if it leads somewhere, be it a file or a directory. -/
theorem isListed_optional (p : Path) : (file p false).isListed c = c.disk.holds c.directory p := by
  rw [isListed, listed]
  cases c.disk.holds c.directory p <;> rfl

theorem listedAs?_eq_none_iff {s : Source} : s.listedAs? c = none ↔ s.isListed c = false := by
  rw [listedAs?, ite_eq_right_iff, Bool.eq_false_iff]
  exact forall_congr' fun _ => iff_of_false (Option.some_ne_none _) id

theorem listedAs?_eq_some_iff {s shown : Source} :
    s.listedAs? c = some shown ↔ s.isListed c = true ∧ s.inPlace c = shown := by
  rw [listedAs?, Option.ite_none_right_eq_some, Option.some_inj]

variable {p found : Path} {required : Bool}

theorem readAs?_of_missing (h : fileOf? c p = none) : (file p required).readAs? c = none := by
  rw [readAs?, h, Option.map_none]

theorem readAs?_of_found (h : fileOf? c p = some found) :
    (file p required).readAs? c = some (.file found required) := by
  rw [readAs?, h, Option.map_some]

/-- What is listed and read for other sources too is read for this one. -/
theorem readAs?_of_listedAs? {s shown : Source} (h : s.listedAs? c = some shown)
    (hread : ∃ other : Source, other.readAs? c = some shown) : s.readAs? c = some shown := by
  obtain ⟨-, rfl⟩ := listedAs?_eq_some_iff.mp h
  obtain ⟨other, hother⟩ := hread
  cases s with
  | text content => rfl
  | file p required =>
      cases other with
      | text content => exact nomatch hother
      | file q required' =>
          obtain ⟨found, hfound, hsame⟩ := Option.map_eq_some_iff.mp hother
          obtain ⟨hpath, -⟩ := file.inj hsame
          -- it is the path of a file, so the search ends at the path itself
          have hfile := holdsFile_of_fileOf? hfound
          rw [hpath] at hfile
          exact readAs?_of_found (fileOf?_of_holdsFile hfile)

/-- If no file is found for it, an optional path misleads just if it is listed. -/
theorem misleads_iff_of_missing (h : fileOf? c p = none) :
    (file p false).Misleads c ↔ (file p false).isListed c = true := by
  rw [isListed_optional]
  constructor
  · intro hmisleads
    cases hmisleads with
    | listedOnly leads _ => exact leads
    | readOnly _ finds => exact nomatch finds.symm.trans h
    | otherFile _ finds _ => exact nomatch finds.symm.trans h
  · intro hleads
    exact .listedOnly hleads h

/-- If a file is found, a path misleads unless it is listed and is the path of that file. -/
theorem misleads_iff_of_found (h : fileOf? c p = some found) :
    (file p required).Misleads c ↔
      ¬ ((file p required).isListed c = true ∧ fullPath c p = found) := by
  constructor
  · rintro hmisleads ⟨hshown, hpath⟩
    cases hmisleads with
    | listedOnly _ missing => exact nomatch missing.symm.trans h
    | readOnly nowhere _ =>
        rw [isListed_optional, nowhere] at hshown
        exact Bool.false_ne_true hshown
    | otherFile _ finds other =>
        obtain rfl := Option.some.inj (finds.symm.trans h)
        exact other hpath.symm
  · intro hnot
    cases hshown : (file p required).isListed c with
    | true => exact .otherFile hshown h fun hpath => hnot ⟨hshown, hpath.symm⟩
    | false =>
        cases required with
        | true => exact absurd hshown (Bool.false_ne_true ∘ Eq.symm)
        | false =>
            rw [isListed_optional] at hshown
            exact .readOnly hshown h

/-- A source is listed as it is read, unless it misleads.  A required one is read. -/
theorem listedAs?_eq_readAs?_iff {s : Source}
    (h : ∀ p, s = .file p true → (fileOf? c p).isSome) :
    s.listedAs? c = s.readAs? c ↔ ¬ s.Misleads c := by
  cases s with
  | text content => exact iff_of_true rfl nofun
  | file p required =>
      cases hfound : fileOf? c p with
      | none =>
          have hoptional : required = false := by
            rw [Bool.eq_false_iff]
            rintro rfl
            have hsome := h p rfl
            rw [hfound] at hsome
            exact Bool.false_ne_true hsome
          rw [hoptional, readAs?_of_missing hfound, listedAs?_eq_none_iff,
            misleads_iff_of_missing hfound, Bool.not_eq_true]
      | some found =>
          rw [readAs?_of_found hfound, listedAs?_eq_some_iff, misleads_iff_of_found hfound, not_not,
            inPlace, file.injEq, and_iff_left rfl]

end Source

/-! ## Lists of sources -/

section FilterMap

variable {α β : Type} {f g : α → Option β} {l : List α}

/-- Where something is left out, the list is no longer. -/
theorem length_filterMap_le (h : ∀ a ∈ l, f a = none ∨ f a = g a) :
    (l.filterMap f).length ≤ (l.filterMap g).length := by
  induction l with
  | nil => exact Nat.le_refl 0
  | cons a l ih =>
      obtain ⟨ha, hl⟩ := List.forall_mem_cons.mp h
      have hle := ih hl
      rcases ha with hnone | hsame
      · rw [List.filterMap_cons_none hnone]
        exact hle.trans ((List.sublist_cons_self a l).filterMap g).length_le
      · rw [List.filterMap_cons, List.filterMap_cons, hsame]
        cases g a with
        | none => exact hle
        | some b => exact Nat.succ_le_succ hle

/-- Two lists are read off the same list, and the one leaves something out: they are the same just
    if it leaves nothing out. -/
theorem filterMap_eq_filterMap_iff (h : ∀ a ∈ l, f a = none ∨ f a = g a) :
    l.filterMap f = l.filterMap g ↔ ∀ a ∈ l, f a = g a := by
  refine ⟨?_, List.filterMap_congr⟩
  intro heq
  induction l with
  | nil =>
      intro a ha
      exact absurd ha List.not_mem_nil
  | cons a l ih =>
      obtain ⟨ha, hl⟩ := List.forall_mem_cons.mp h
      have hfirst : f a = g a := by
        rcases ha with hnone | hsame
        · cases hg : g a with
          | none => exact hnone
          | some b =>
              -- the one list would be longer by what the other leaves out
              rw [List.filterMap_cons_none hnone, List.filterMap_cons_some hg] at heq
              have hle := length_filterMap_le hl
              rw [heq] at hle
              exact absurd hle (Nat.not_succ_le_self _)
        · exact hsame
      rw [List.filterMap_cons, List.filterMap_cons, hfirst] at heq
      refine List.forall_mem_cons.mpr ⟨hfirst, ih hl ?_⟩
      cases hg : g a with
      | none =>
          rw [hg] at heq
          exact heq
      | some b =>
          rw [hg] at heq
          exact (List.cons.inj heq).2

end FilterMap

namespace Loader

/-- The sources in the list, each with its path from the root, are those that are read, in the same
    order. -/
def ListsWhatIsRead (c : Computer) (sources : List Source) : Prop :=
  (sources.filter (Source.isListed c)).map (Source.inPlace c) = sources.filterMap (Source.readAs? c)

theorem filter_isListed_map {α : Type} (f : Source → α) (sources : List Source) :
    (sources.filter (Source.isListed c)).map f
      = sources.filterMap fun s => if s.isListed c then some (f s) else none := by
  induction sources with
  | nil => rfl
  | cons s sources ih =>
      rw [List.filter_cons, List.filterMap_cons]
      cases s.isListed c with
      | true =>
          rw [if_pos rfl, List.map_cons, ih]
          rfl
      | false => exact ih

/-- **THE LIST IS WHAT IS READ** just if no source misleads. -/
theorem listsWhatIsRead_iff {sources : List Source}
    (h : ∀ p, .file p true ∈ sources → (fileOf? c p).isSome) :
    ListsWhatIsRead c sources ↔ ∀ s ∈ sources, ¬ s.Misleads c := by
  have hsource : ∀ s ∈ sources, (s.listedAs? c = s.readAs? c ↔ ¬ s.Misleads c) := by
    intro s hs
    refine Source.listedAs?_eq_readAs?_iff ?_
    rintro p rfl
    exact h p hs
  rw [ListsWhatIsRead, filter_isListed_map]
  show sources.filterMap (Source.listedAs? c) = _ ↔ _
  constructor
  · intro heq s hs
    rw [← hsource s hs]
    refine (filterMap_eq_filterMap_iff ?_).mp heq s hs
    intro s hs
    cases hlisted : s.listedAs? c with
    | none => exact Or.inl rfl
    | some shown =>
        have hmem : shown ∈ sources.filterMap (Source.readAs? c) := by
          rw [← heq]
          exact List.mem_filterMap.mpr ⟨s, hs, hlisted⟩
        obtain ⟨other, -, hread⟩ := List.mem_filterMap.mp hmem
        exact Or.inr (Source.readAs?_of_listedAs? hlisted ⟨other, hread⟩).symm
  · intro hnone
    exact List.filterMap_congr fun s hs => (hsource s hs).mpr (hnone s hs)

/-- A loader's list numbers the lines of the sources that are listed. -/
theorem listing_eq (l : Loader) (c : Computer) :
    l.listing c = ((l.sources.filter (Source.isListed c)).map Source.line).zipIdx.map
      fun (line, i) => s!"{i + 1}. {line}" := by
  have hlines : l.sources.filterMap (Source.listed c)
      = (l.sources.filter (Source.isListed c)).map Source.line := by
    rw [filter_isListed_map]
    exact List.filterMap_congr fun s _ => s.listed_eq
  rw [listing, hlines]

/-! ## What is merged -/

theorem sourceEntries_cons (s : Source) (sources : List Source) (entries : Entries) :
    sourceEntries c (s :: sources) entries
      = (s.entries c).bind fun more => sourceEntries c sources (entries.putAll more) := rfl

/-- Sources that can be merged have a file for each path that needs one. -/
theorem found_of_sourceEntries {sources : List Source} {entries merged : Entries}
    (h : sourceEntries c sources entries = .ok merged) :
    ∀ p, .file p true ∈ sources → (fileOf? c p).isSome := by
  induction sources generalizing entries with
  | nil =>
      intro p hp
      exact absurd hp List.not_mem_nil
  | cons s sources ih =>
      rw [sourceEntries_cons] at h
      obtain ⟨more, hmore, hrest⟩ := bind_eq_ok_iff.mp h
      intro p hp
      rcases List.mem_cons.mp hp with rfl | hp
      · rw [Source.entries] at hmore
        cases hfound : fileOf? c p with
        | some found => rfl
        | none =>
            rw [hfound] at hmore
            cases hmore
      · exact ih hrest p hp

/-- What is merged is what is read. -/
theorem sourceEntries_eq_merge {sources : List Source}
    (h : ∀ p, .file p true ∈ sources → (fileOf? c p).isSome) (entries : Entries) :
    sourceEntries c sources entries
      = Source.merge c (sources.filterMap (Source.readAs? c)) entries := by
  induction sources generalizing entries with
  | nil => rfl
  | cons s sources ih =>
      have hrest := ih fun p hp => h p (List.mem_cons_of_mem _ hp)
      have hread : ∀ read : Source, s.readAs? c = some read → s.entries c = read.content c →
          sourceEntries c (s :: sources) entries
            = Source.merge c ((s :: sources).filterMap (Source.readAs? c)) entries := by
        intro read hsome hentries
        rw [sourceEntries_cons, hentries, List.filterMap_cons_some hsome, Source.merge,
          List.foldlM_cons]
        cases read.content c with
        | error e => rfl
        | ok more => exact hrest _
      cases s with
      | text content => exact hread _ rfl rfl
      | file p required =>
          cases hfound : fileOf? c p with
          | some found =>
              refine hread (.file found required) (Source.readAs?_of_found hfound) ?_
              rw [Source.entries, hfound]
              rfl
          | none =>
              -- nothing is read for it, and it counts for nothing
              have hoptional : required = false := by
                rw [Bool.eq_false_iff]
                rintro rfl
                have hsome := h p List.mem_cons_self
                rw [hfound] at hsome
                exact absurd hsome Bool.false_ne_true
              have hempty : (Source.file p required).entries c = .ok [] := by
                rw [Source.entries, hfound, hoptional]
                rfl
              rw [sourceEntries_cons, hempty,
                List.filterMap_cons_none (Source.readAs?_of_missing hfound)]
              exact hrest entries

/-- **THE LIST SAYS WHAT WAS READ** just if no source misleads.  Settings that can be loaded are
    merged from what is read for the sources, in their order; and the list numbers the sources that
    are listed, in the same order. -/
theorem lists_what_is_read_iff {calls : List LoaderCall} {l : Loader} {settings : Settings}
    (hmade : made? calls = some l) (hload : l.load c = .ok settings) :
    let sources := sourcesOf calls
    let read := sources.filterMap (Source.readAs? c)
    (ListsWhatIsRead c sources ↔ ∀ s ∈ sources, ¬ s.Misleads c) ∧
    l.listing c = ((sources.filter (Source.isListed c)).map Source.line).zipIdx.map
      (fun (line, i) => s!"{i + 1}. {line}") ∧
    sourceEntries c l.sources [] = Source.merge c read [] ∧
    (beginningOf calls = none → assignmentsOf calls = [] →
      l.entries c = Source.merge c read []) := by
  intro sources read
  have hloader : l.sources = sources ∧ (beginningOf calls = none → l.variableStart = none) ∧
      (assignmentsOf calls = [] → l.overrides = []) := by
    rw [made?_eq] at hmade
    obtain ⟨overrides, hoverrides, rfl⟩ := Option.map_eq_some_iff.mp hmade
    refine ⟨rfl, id, ?_⟩
    intro hnone
    rw [hnone] at hoverrides
    exact (Option.some.inj hoverrides).symm
  obtain ⟨hsources, hstart, hoverrides⟩ := hloader
  obtain ⟨all, hall, -⟩ := load_eq_ok_iff.mp hload
  obtain ⟨written, hwritten, -⟩ := bind_eq_ok_iff.mp hall
  have hfound := found_of_sourceEntries hwritten
  have hmerged := sourceEntries_eq_merge hfound []
  have hlisting := l.listing_eq c
  rw [hsources] at hfound hmerged hlisting
  refine ⟨listsWhatIsRead_iff hfound, hlisting, hsources ▸ hmerged, ?_⟩
  intro hbeginning hassignments
  rw [← hmerged, entries, hsources, variableEntries, hstart hbeginning, hoverrides hassignments]
  cases sourceEntries c sources [] <;> rfl

/-- A directory, and a file that lacks its ending in the path by which it is asked for. -/
def misleadingComputer : Computer where
  disk := Disk.ofList [([], .directory), ([Text.encode "conf"], .directory),
    ([Text.encode "more.toml"], .file [] .data)]
  directory := []
  environment := []

/-- Three sources without any values: the list names the directory, where there was nothing to read,
    and not the file that was read. -/
theorem lists_what_is_read_iff_misleading :
    let sources : List Source := [.file (Path.ofString "conf") false,
      .file (Path.ofString "more") false, .text ""]
    let l : Loader := { sources }
    made? (sources.map LoaderCall.add) = some l ∧
      l.load misleadingComputer = .ok {} ∧
      ¬ ListsWhatIsRead misleadingComputer sources ∧
      l.listing misleadingComputer = ["1. [optional] conf", "2. [string] <string>"] ∧
      sources.filterMap (Source.readAs? misleadingComputer)
        = [.file (Path.ofString "/more.toml") false, .text ""] := by
  intro sources l
  have hmade : made? (sources.map LoaderCall.add) = some l := rfl
  have hload : l.load misleadingComputer = .ok {} := by decide +kernel
  have hmisleads : Source.Misleads misleadingComputer (.file (Path.ofString "conf") false) :=
    .listedOnly (by decide +kernel) (by decide +kernel)
  have hlist := (lists_what_is_read_iff hmade hload).1
  refine ⟨hmade, hload, ?_, by decide +kernel, by decide +kernel⟩
  intro hsame
  exact hlist.mp hsame _ List.mem_cons_self hmisleads

/-- A path that leads to a directory is listed, though nothing is read for it. -/
theorem directory_listed_unread :
    let sources : List Source := [.file (Path.ofString "conf") false]
    let l : Loader := { sources }
    made? (sources.map LoaderCall.add) = some l ∧
      l.load misleadingComputer = .ok {} ∧
      l.listing misleadingComputer = ["1. [optional] conf"] ∧
      sources.filterMap (Source.readAs? misleadingComputer) = [] := by
  intro sources l
  exact ⟨rfl, by decide +kernel, by decide +kernel, by decide +kernel⟩

end Loader

end RebasePlan.Settings
