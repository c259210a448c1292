import Mathlib.Data.List.Perm.Basic
import Mathlib.Tactic.IntervalCases
import RebasePlan.CommandLine.Parser
import RebasePlan.Proofs.Utf8Reading

/-! # Options and their spellings

    Options can be asked for switch by switch (`Options.items`), and a switch with its
    value can be spelled in up to three ways (`Spells`).  A command line that spells
    each switch of some options once is read back as these options, in whatever order
    the switches stand; only the settings files keep theirs (`parse_renders`).

    A value that stands as an argument of its own is judged late, so that the reader is
    seldom at a place where nothing is pending.  The induction over the arguments goes
    along what it would have read if it were asked to settle (`exists_read_spelled`):
    these are the options without the switches to come (`Options.upTo`). -/

namespace RebasePlan

/-- A verbosity as the value of a switch. -/
def Verbosity.numeral (v : Verbosity) : List UInt8 := Text.encode (toString v.value)

/-- A switch of a command line with its value, which is empty where it takes none. -/
structure CommandLine.Item where
  switch : Switch
  value : List UInt8
  deriving DecidableEq

namespace Options

open CommandLine (Item)

/-- The value with which options hold a switch that stands at most once. -/
def value? (o : Options) : Switch → Option (List UInt8)
  | .git => o.program.map Path.bytes
  | .repo => o.repository.map Path.bytes
  | .logLevel => o.console.map Verbosity.numeral
  | .fileLogLevel => o.file.map Verbosity.numeral
  | .logFile => o.logFile.map Path.bytes
  | .conf => o.plan.map Path.bytes
  | .doit => if o.confirmed then some [] else none
  | .version => if o.version then some [] else none
  | .settings | .help => none

/-- The switches that options hold: the settings files, and those that stand at most once. -/
def items (o : Options) : List Item :=
  o.settingsFiles.map (fun p => ⟨.settings, p.bytes⟩) ++
    Switch.all.filterMap fun s => (o.value? s).map (Item.mk s)

/-- No path in options is empty. -/
def NoEmptyPath (o : Options) : Prop :=
  ∀ p ∈ o.settingsFiles ++ o.program.toList ++ o.repository.toList ++ o.logFile.toList ++
    o.plan.toList, p.bytes ≠ []

end Options

namespace CommandLine

/-! ## Spellings -/

/-- The arguments that spell a switch with its value: attached to the long name, or, unless it
    begins with a dash, behind the long name or behind the letter. -/
inductive Spells : Item → List (List UInt8) → Prop where
  | joined {s : Switch} (v : List UInt8) (takes : s.takesValue = true) :
      Spells ⟨s, v⟩ [dash :: dash :: (Text.encode s.long ++ equalsSign :: v)]
  | apart {s : Switch} {v : List UInt8} (takes : s.takesValue = true)
      (noDash : v.head? ≠ some dash) : Spells ⟨s, v⟩ [dash :: dash :: Text.encode s.long, v]
  | letter {s : Switch} {c : Char} {v : List UInt8} (takes : s.takesValue = true)
      (letter : s.letter? = some c) (noDash : v.head? ≠ some dash) :
      Spells ⟨s, v⟩ [dash :: Text.encode c.toString, v]
  | flag {s : Switch} (takes : s.takesValue = false) :
      Spells ⟨s, []⟩ [dash :: dash :: Text.encode s.long]
  | flagLetter {s : Switch} {c : Char} (takes : s.takesValue = false)
      (letter : s.letter? = some c) : Spells ⟨s, []⟩ [dash :: Text.encode c.toString]

/-- Switches with their values, each next to the arguments that spell it. -/
abbrev Parts := List (Item × List (List UInt8))

/-- The arguments of a command line, in their order. -/
def Parts.arguments (parts : Parts) : List (List UInt8) := parts.flatMap Prod.snd

/-- The settings files of a command line, in their order. -/
def Parts.settingsFiles (parts : Parts) : List Path :=
  ((parts.map Prod.fst).filter fun item => item.switch = .settings).map fun item => ⟨item.value⟩

/-- A command line spells the switches that options hold, each of them once, and the settings files
    in their order. -/
structure Renders (o : Options) (parts : Parts) : Prop where
  spelled : ∀ part ∈ parts, Spells part.1 part.2
  each : (parts.map Prod.fst).Perm o.items
  inOrder : parts.settingsFiles = o.settingsFiles

/-! ## Reading one argument -/

/-- A switch is known by its long name. -/
theorem ofLong?_long (s : Switch) : Switch.ofLong? s.long = some s := by
  cases s <;> rfl

theorem equalsSign_not_mem_long (s : Switch) : equalsSign ∉ Text.encode s.long := by
  cases s <;> decide

theorem strict_encode (text : String) : Text.strict (Text.encode text) = some text :=
  Text.strict_eq_some_iff.mpr rfl

/-- Behind two dashes, the long name of a switch goes up to the equals sign. -/
theorem takeWhile_long (s : Switch) {tail : List UInt8}
    (htail : ∀ b ∈ tail.head?, b = equalsSign) :
    (Text.encode s.long ++ tail).takeWhile (· != equalsSign) = Text.encode s.long ∧
      (Text.encode s.long ++ tail).dropWhile (· != equalsSign) = tail := by
  have hname : ∀ b ∈ Text.encode s.long, (b != equalsSign) = true := fun b hb =>
    bne_iff_ne.mpr fun heq => equalsSign_not_mem_long s (heq ▸ hb)
  have hends : tail.takeWhile (· != equalsSign) = [] ∧ tail.dropWhile (· != equalsSign) = tail := by
    cases tail with
    | nil => exact ⟨rfl, rfl⟩
    | cons b rest =>
        obtain rfl : b = equalsSign := htail b rfl
        exact ⟨rfl, rfl⟩
  rw [List.takeWhile_append_of_pos hname, List.dropWhile_append_of_pos hname, hends.1, hends.2,
    List.append_nil]
  exact ⟨rfl, rfl⟩

variable {p : Progress} {s : Switch} {v : List UInt8}

/-- A long name with an equals sign takes what stands behind it. -/
theorem argument_joined (takes : s.takesValue = true) :
    argument p (dash :: dash :: (Text.encode s.long ++ equalsSign :: v)) = p.apply s v := by
  obtain ⟨hname, hvalue⟩ := @takeWhile_long s (equalsSign :: v) fun _ hb =>
    (Option.some.inj hb).symm
  show longName p (Text.encode s.long ++ equalsSign :: v) = _
  rw [longName, hname, hvalue, strict_encode, Option.bind_some, ofLong?_long]
  dsimp only
  rw [takes]

/-- A long name alone takes its value from the next argument, if it takes one. -/
theorem argument_long (hs : s ≠ .help) :
    argument p (dash :: dash :: Text.encode s.long)
      = if s.takesValue then p.await s else p.apply s [] := by
  obtain ⟨hname, hvalue⟩ := @takeWhile_long s [] fun _ hb => nomatch hb
  rw [List.append_nil] at hname hvalue
  show longName p (Text.encode s.long) = _
  rw [longName, hname, hvalue, strict_encode, Option.bind_some, ofLong?_long]
  dsimp only
  cases s.takesValue with
  | true => rfl
  | false => exact if_neg hs

/-- So does a letter. -/
theorem argument_letter {c : Char} (hs : s ≠ .help) (letter : s.letter? = some c) :
    argument p (dash :: Text.encode c.toString)
      = if s.takesValue then p.await s else p.apply s [] := by
  cases s with
  | settings | git | fileLogLevel | logFile | doit => exact nomatch letter
  | help => exact absurd rfl hs
  | repo | logLevel | conf =>
      obtain rfl := Option.some.inj letter
      rfl
  | version =>
      obtain rfl := Option.some.inj letter
      show (p.apply .version []).bind (fun p => letters p []) = p.apply .version []
      cases p.apply .version [] <;> rfl

/-- An argument that does not begin with a dash is no switch. -/
theorem argument_plain (hv : v.head? ≠ some dash) : argument p v = p.plain v := by
  cases v with
  | nil => rfl
  | cons a rest =>
      have ha : (a != dash) = true := bne_iff_ne.mpr fun heq => hv (congrArg some heq)
      rw [argument.eq_def]
      exact if_pos ha

/-! ## Reading one switch -/

/-- What a reader would have read if it were asked to settle. -/
def Progress.Holds (p : Progress) (o : Options) : Prop := p.settle = .ok ⟨o, none⟩

variable {o o' : Options}

/-- A switch with its value is taken by what the reader holds. -/
theorem Progress.Holds.apply (h : p.Holds o) (htake : take s v o = .ok o') :
    p.apply s v = .ok ⟨o', none⟩ := by
  rw [Progress.apply, h]
  show (take s v o).bind (fun o => .ok (⟨o, none⟩ : Progress)) = _
  rw [htake]
  rfl

/-- A switch that waits for its value leaves to the reader what it holds. -/
theorem Progress.Holds.await (h : p.Holds o) (s : Switch) :
    p.await s = .ok ⟨o, some (s, none)⟩ := by
  rw [Progress.await, h]
  rfl

/-- A switch whose value came last counts as taken once the reader settles. -/
theorem Progress.holds_pending (htake : take s v o = .ok o') :
    Progress.Holds ⟨o, some (s, some v)⟩ o' := by
  show (take s v o).map (fun o => (⟨o, none⟩ : Progress)) = _
  rw [htake]
  rfl

/-- Arguments in front of the separator are read one after the other. -/
theorem arguments_cons {a : List UInt8} {p' : Progress} (ha : a ≠ separator)
    (h : argument p a = .ok p') (rest : List (List UInt8)) :
    CommandLine.arguments p (a :: rest) = CommandLine.arguments p' rest := by
  rw [CommandLine.arguments.eq_def]
  dsimp only
  rw [if_neg ha, h]
  rfl

theorem long_ne_separator (s : Switch) (tail : List UInt8) :
    dash :: dash :: (Text.encode s.long ++ tail) ≠ separator := by
  have hlong : Text.encode s.long ≠ [] := by
    cases s <;> decide
  intro h
  exact hlong (List.append_eq_nil_iff.mp (List.cons.inj (List.cons.inj h).2).2).1

theorem letter_ne_separator {c : Char} (letter : s.letter? = some c) :
    dash :: Text.encode c.toString ≠ separator := by
  cases s with
  | settings | git | fileLogLevel | logFile | doit => exact nomatch letter
  | repo | logLevel | conf | version | help =>
      obtain rfl := Option.some.inj letter
      decide

theorem value_ne_separator (noDash : v.head? ≠ some dash) : v ≠ separator := by
  rintro rfl
  exact noDash rfl

/-- **ONE SWITCH**: behind the arguments that spell a switch, the reader holds what it held before,
    with this switch taken. -/
theorem exists_read_spelled {item : Item} {args : List (List UInt8)} (hspells : Spells item args)
    (hhelp : item.switch ≠ .help) (h : p.Holds o)
    (htake : take item.switch item.value o = .ok o') :
    ∃ p', p'.Holds o' ∧
      ∀ rest, CommandLine.arguments p (args ++ rest) = CommandLine.arguments p' rest := by
  -- a value of its own is pending when the next argument comes
  have hpending {name : List UInt8} (hname : name ≠ separator)
      (hawait : argument p name = p.await item.switch)
      (noDash : item.value.head? ≠ some dash) (rest : List (List UInt8)) :
      CommandLine.arguments p ([name, item.value] ++ rest)
        = CommandLine.arguments ⟨o, some (item.switch, some item.value)⟩ rest := by
    have hplain : argument ⟨o, some (item.switch, none)⟩ item.value
        = .ok ⟨o, some (item.switch, some item.value)⟩ := argument_plain noDash
    exact (arguments_cons hname (hawait.trans (h.await _)) _).trans
      (arguments_cons (value_ne_separator noDash) hplain rest)
  cases hspells with
  | joined v takes =>
      exact ⟨⟨o', none⟩, rfl, arguments_cons (long_ne_separator _ _)
        ((argument_joined takes).trans (h.apply htake))⟩
  | @apart s v takes noDash =>
      have hname := long_ne_separator s []
      rw [List.append_nil] at hname
      exact ⟨_, Progress.holds_pending htake,
        hpending hname ((argument_long hhelp).trans (if_pos takes)) noDash⟩
  | letter takes letter noDash =>
      exact ⟨_, Progress.holds_pending htake, hpending (letter_ne_separator letter)
        ((argument_letter hhelp letter).trans (if_pos takes)) noDash⟩
  | @flag s takes =>
      have hname := long_ne_separator s []
      rw [List.append_nil] at hname
      have happly : argument p (dash :: dash :: Text.encode s.long) = p.apply s [] := by
        rw [argument_long hhelp, takes]
        rfl
      exact ⟨⟨o', none⟩, rfl, arguments_cons hname (happly.trans (h.apply htake))⟩
  | @flagLetter s c takes letter =>
      have happly : argument p (dash :: Text.encode c.toString) = p.apply s [] := by
        rw [argument_letter hhelp letter, takes]
        rfl
      exact ⟨⟨o', none⟩, rfl, arguments_cons (letter_ne_separator letter)
        (happly.trans (h.apply htake))⟩

/-! ## One switch after the other -/

/-- What stands for a switch is there if the switch is among some items. -/
def ifSeen {α : Type} (seen : List Item) (s : Switch) (x nothing : α) : α :=
  if s ∈ seen.map Item.switch then x else nothing

theorem ifSeen_nil {α : Type} (s : Switch) (x nothing : α) : ifSeen [] s x nothing = nothing :=
  if_neg fun h => nomatch h

/-- One item more brings its own switch and no other. -/
theorem ifSeen_concat {α : Type} (seen : List Item) (item : Item) (s : Switch) (x nothing : α) :
    ifSeen (seen ++ [item]) s x nothing
      = if s = item.switch then x else ifSeen seen s x nothing := by
  rw [ifSeen, ifSeen, List.map_append, List.map_singleton]
  by_cases hs : s = item.switch
  · rw [if_pos hs, if_pos (List.mem_append_right _ (List.mem_singleton.mpr hs))]
  · rw [if_neg hs]
    simp only [List.mem_append, List.mem_singleton, hs, or_false]

end CommandLine

open CommandLine (Item ifSeen ifSeen_nil ifSeen_concat)

/-- Options without the switches that are still to come. -/
def Options.upTo (o : Options) (seen : List Item) : Options where
  settingsFiles := (seen.filter fun item => item.switch = .settings).map fun item => ⟨item.value⟩
  program := ifSeen seen .git o.program none
  repository := ifSeen seen .repo o.repository none
  console := ifSeen seen .logLevel o.console none
  file := ifSeen seen .fileLogLevel o.file none
  logFile := ifSeen seen .logFile o.logFile none
  plan := ifSeen seen .conf o.plan none
  confirmed := ifSeen seen .doit o.confirmed false
  version := ifSeen seen .version o.version false

theorem Options.upTo_nil (o : Options) : o.upTo [] = {} := by
  simp only [upTo, ifSeen_nil]
  rfl

/-- An item of options is a settings file, or the value of a switch that stands once. -/
theorem Options.mem_items_iff {o : Options} {item : Item} :
    item ∈ o.items ↔ (item.switch = .settings ∧ ∃ p ∈ o.settingsFiles, item.value = p.bytes) ∨
      o.value? item.switch = some item.value := by
  obtain ⟨s, v⟩ := item
  rw [items, List.mem_append, List.mem_map, List.mem_filterMap]
  refine or_congr ⟨?_, ?_⟩ ⟨?_, ?_⟩
  · rintro ⟨p, hp, heq⟩
    obtain ⟨rfl, rfl⟩ := Item.mk.inj heq
    exact ⟨rfl, p, hp, rfl⟩
  · rintro ⟨hs, p, hp, hv⟩
    exact ⟨p, hp, by rw [show s = .settings from hs, show v = p.bytes from hv]⟩
  · rintro ⟨s', -, heq⟩
    obtain ⟨v', hv', heq⟩ := Option.map_eq_some_iff.mp heq
    obtain ⟨rfl, rfl⟩ := Item.mk.inj heq
    exact hv'
  · intro hv
    refine ⟨s, ?_, Option.map_eq_some_iff.mpr ⟨v, hv, rfl⟩⟩
    cases s <;> decide

/-- The help is no part of options. -/
theorem Options.switch_ne_help {o : Options} {item : Item} (h : item ∈ o.items) :
    item.switch ≠ .help := by
  intro hs
  rcases mem_items_iff.mp h with ⟨hsettings, -⟩ | hvalue
  · rw [hs] at hsettings
    exact nomatch hsettings
  · rw [hs] at hvalue
    exact nomatch hvalue

/-- A switch that is no settings file stands among those of options once. -/
theorem Options.items_pairwise (o : Options) :
    o.items.Pairwise fun a b => a.switch = b.switch → a.switch = .settings := by
  rw [items, List.pairwise_append]
  refine ⟨?_, ?_, ?_⟩
  · rw [List.pairwise_map]
    exact List.pairwise_of_forall fun _ _ _ => rfl
  · have hall : Switch.all.Nodup := by decide
    refine List.Pairwise.filterMap _ (fun s s' hne item hitem item' hitem' heq => ?_) hall
    obtain ⟨v, -, rfl⟩ := Option.map_eq_some_iff.mp hitem
    obtain ⟨v', -, rfl⟩ := Option.map_eq_some_iff.mp hitem'
    exact absurd heq hne
  · intro item hitem _ _ _
    obtain ⟨p, -, rfl⟩ := List.mem_map.mp hitem
    rfl

namespace CommandLine

theorem readPath_of_ne_nil (s : Switch) {v : List UInt8} (hv : v ≠ []) :
    readPath s v = .ok ⟨v⟩ := by
  cases v with
  | nil => exact absurd rfl hv
  | cons a rest => rfl

theorem readVerbosity_numeral (s : Switch) (v : Verbosity) :
    readVerbosity s v.numeral = .ok v := by
  obtain ⟨n, hn⟩ := v
  have hnumber : readNumber (toString n).toList = .ok (n : Int) := by
    interval_cases n <;> rfl
  rw [readVerbosity, Verbosity.numeral, strict_encode]
  dsimp only
  rw [hnumber]
  dsimp only
  rw [if_neg (by omega), Int.toNat_natCast, Verbosity.ofNat?, dif_pos hn]

/-- **THE SWITCH THAT COMES NEXT** is taken: it is not there yet, and its value can be read. -/
theorem take_upTo {o : Options} {seen : List Item} {item : Item} (hitem : item ∈ o.items)
    (hpaths : o.NoEmptyPath)
    (hnew : item.switch ∈ seen.map Item.switch → item.switch = .settings) :
    take item.switch item.value (o.upTo seen) = .ok (o.upTo (seen ++ [item])) := by
  obtain ⟨s, v⟩ := item
  have hseen (hs : s ≠ .settings) {α : Type} (x nothing : α) : ifSeen seen s x nothing = nothing :=
    if_neg fun hmem => hs (hnew hmem)
  rcases Options.mem_items_iff.mp hitem with ⟨hs, p, hp, hv⟩ | hv
  · obtain rfl : s = .settings := hs
    obtain rfl : v = p.bytes := hv
    have hne : p.bytes ≠ [] := hpaths p (by simp [hp])
    rw [take, readPath_of_ne_nil _ hne]
    simp [Options.upTo, ifSeen_concat, Except.map]
  · cases s with
    | settings | help => exact nomatch hv
    | git | repo | logFile | conf =>
        obtain ⟨p, hp, rfl⟩ := Option.map_eq_some_iff.mp hv
        have hne : p.bytes ≠ [] := hpaths p (by simp [hp])
        rw [take, readPath_of_ne_nil _ hne]
        simp [Options.upTo, ifSeen_concat, hseen, once, Except.map, hp]
    | logLevel | fileLogLevel =>
        obtain ⟨level, hlevel, rfl⟩ := Option.map_eq_some_iff.mp hv
        rw [take, readVerbosity_numeral]
        simp [Options.upTo, ifSeen_concat, hseen, once, Except.map, hlevel]
    | doit | version =>
        obtain ⟨hflag, -⟩ := Option.ite_none_right_eq_some.mp hv
        rw [take]
        simp [Options.upTo, ifSeen_concat, hseen, turnOn, Except.map, hflag]

/-! ## All switches -/

/-- **A RUN OVER THE SWITCHES**: behind the arguments of further switches, the reader holds these as
    well. -/
theorem exists_read_parts {o : Options} {seen : List Item} {parts : Parts} {p : Progress}
    (hpaths : o.NoEmptyPath) (hspelled : ∀ part ∈ parts, Spells part.1 part.2)
    (hitems : ∀ item ∈ parts.map Prod.fst, item ∈ o.items)
    (honce : (seen ++ parts.map Prod.fst).Pairwise
      fun a b => a.switch = b.switch → a.switch = .settings)
    (h : p.Holds (o.upTo seen)) :
    ∃ p', CommandLine.arguments p parts.arguments = .ok p' ∧
      p'.Holds (o.upTo (seen ++ parts.map Prod.fst)) := by
  induction parts generalizing seen p with
  | nil =>
      refine ⟨p, ?_, ?_⟩
      · rfl
      · rwa [List.map_nil, List.append_nil]
  | cons part parts ih =>
      obtain ⟨item, args⟩ := part
      have hitem : item ∈ o.items := hitems item List.mem_cons_self
      have hnew : item.switch ∈ seen.map Item.switch → item.switch = .settings := by
        intro hmem
        obtain ⟨before, hbefore, hs⟩ := List.mem_map.mp hmem
        have hswitch :=
          (List.pairwise_append.mp honce).2.2 before hbefore item List.mem_cons_self hs
        exact hs ▸ hswitch
      obtain ⟨p₁, hholds, hargs⟩ := exists_read_spelled (hspelled _ List.mem_cons_self)
        (Options.switch_ne_help hitem) h (take_upTo hitem hpaths hnew)
      have hseen : seen ++ (((item, args) :: parts).map Prod.fst)
          = seen ++ [item] ++ parts.map Prod.fst := by
        rw [List.map_cons, List.append_assoc, List.singleton_append]
      rw [hseen] at honce ⊢
      obtain ⟨p', hread, hholds'⟩ := ih
        (fun part hpart => hspelled part (List.mem_cons_of_mem _ hpart))
        (fun item hmem => hitems item (List.mem_cons_of_mem _ hmem)) honce hholds
      exact ⟨p', (hargs _).trans hread, hholds'⟩

/-- No switch is left out. -/
theorem Renders.upTo_eq {o : Options} {parts : Parts} (h : Renders o parts) :
    o.upTo (parts.map Prod.fst) = o := by
  have hseen {α : Type} (s : Switch) {x nothing : α}
      (hx : x ≠ nothing → (o.value? s).isSome) : ifSeen (parts.map Prod.fst) s x nothing = x := by
    rw [ifSeen]
    split
    · rfl
    · next hnot =>
      by_contra hne
      obtain ⟨v, hv⟩ := Option.isSome_iff_exists.mp (hx (Ne.symm hne))
      have hmem : Item.mk s v ∈ o.items := Options.mem_items_iff.mpr (.inr hv)
      exact hnot (List.mem_map.mpr ⟨_, h.each.mem_iff.mpr hmem, rfl⟩)
  have hsome {α β : Type} {x : Option α} (f : α → β) (hx : x ≠ none) : (x.map f).isSome := by
    rw [Option.isSome_map]
    exact Option.ne_none_iff_isSome.mp hx
  have hflag {b : Bool} (hb : b ≠ false) : (if b then some ([] : List UInt8) else none).isSome := by
    rw [if_pos (Bool.not_eq_false _ ▸ hb)]
    rfl
  have hfiles := h.inOrder
  rw [Parts.settingsFiles] at hfiles
  rw [Options.upTo, hfiles, hseen .git (hsome _), hseen .repo (hsome _), hseen .logLevel (hsome _),
    hseen .fileLogLevel (hsome _), hseen .logFile (hsome _), hseen .conf (hsome _),
    hseen .doit hflag, hseen .version hflag]

/-- **A command line is read back**: it is refused just if no plan is named and no version asked
    for. -/
theorem Renders.parse_eq {o : Options} {parts : Parts} (h : Renders o parts)
    (hpaths : o.NoEmptyPath) :
    parse parts.arguments
      = if o.plan.isNone && !o.version then .error (.error .planMissing) else .ok o := by
  have honce : (([] : List Item) ++ parts.map Prod.fst).Pairwise
      fun a b => a.switch = b.switch → a.switch = .settings := by
    refine (List.Perm.pairwise_iff ?_ h.each).mpr o.items_pairwise
    exact fun hab heq => heq ▸ hab heq.symm
  have hstart : Progress.Holds {} (o.upTo []) := by
    rw [Options.upTo_nil]
    rfl
  obtain ⟨p, hread, hholds⟩ := exists_read_parts hpaths h.spelled
    (fun item hitem => h.each.mem_iff.mp hitem) honce hstart
  rw [List.nil_append, h.upTo_eq] at hholds
  rw [parse, hread]
  show p.settle.bind _ = _
  rw [hholds]
  show (if (o.plan.isNone && !o.version) = true then _ else _) = _
  cases o.plan.isNone && !o.version <;> rfl

/-- A command line may be put into another order, as long as the settings files keep theirs. -/
theorem Renders.of_perm {o : Options} {parts parts' : Parts} (h : Renders o parts)
    (hperm : parts'.Perm parts) (hfiles : parts'.settingsFiles = parts.settingsFiles) :
    Renders o parts' where
  spelled := fun part hpart => h.spelled part (hperm.mem_iff.mp hpart)
  each := (hperm.map Prod.fst).trans h.each
  inOrder := hfiles.trans h.inOrder

/-- **OPTIONS ARE READ BACK**: a command line that spells each switch of some options once, with no
    path empty, is read as these options; without a plan and without the version it is refused for
    want of a plan.  The switches may stand in any other order, as long as the settings files keep
    theirs: the options stay the same, and the settings that they make. -/
theorem parse_renders {o : Options} {parts : Parts} (h : Renders o parts)
    (hpaths : o.NoEmptyPath) :
    (o.plan.isSome ∨ o.version = true → parse parts.arguments = .ok o) ∧
    (o.plan = none → o.version = false →
      parse parts.arguments = .error (.error .planMissing)) ∧
    ∀ parts' : Parts, parts'.Perm parts → parts'.settingsFiles = parts.settingsFiles →
      parse parts'.arguments = parse parts.arguments ∧
      ∀ o', parse parts'.arguments = .ok o' → o'.overrides = o.overrides := by
  refine ⟨fun hnamed => ?_, fun hplan hversion => ?_, fun parts' hperm hfiles => ?_⟩
  · rw [h.parse_eq hpaths]
    refine if_neg fun hmissing => ?_
    rw [Bool.and_eq_true, Option.isNone_iff_eq_none, Bool.not_eq_true'] at hmissing
    rcases hnamed with hplan | hversion
    · rw [hmissing.1] at hplan
      exact nomatch hplan
    · rw [hmissing.2] at hversion
      exact nomatch hversion
  · rw [h.parse_eq hpaths, hplan, hversion]
    rfl
  · have hparse := (h.of_perm hperm hfiles).parse_eq hpaths
    refine ⟨hparse.trans (h.parse_eq hpaths).symm, fun o' ho' => ?_⟩
    rw [hparse] at ho'
    split at ho'
    · exact nomatch ho'
    · exact congrArg Options.overrides (Except.ok.inj ho').symm

/-- Options with two settings files, a repository that is no text, and a plan that looks like a
    switch. -/
def mixedOptions : Options where
  settingsFiles := [⟨Text.encode "b.toml"⟩, ⟨Text.encode "a.toml"⟩]
  program := some ⟨Text.encode "=git"⟩
  repository := some ⟨[0xFF]⟩
  console := some ⟨4, by decide⟩
  plan := some ⟨Text.encode "--doit"⟩
  confirmed := true

/-- These options, their switches in every kind of spelling and in no order. -/
def mixedParts : Parts := [
  (⟨.repo, [0xFF]⟩, [Text.encode "-C", [0xFF]]),
  (⟨.settings, Text.encode "b.toml"⟩, [Text.encode "--settings=b.toml"]),
  (⟨.doit, []⟩, [Text.encode "--doit"]),
  (⟨.conf, Text.encode "--doit"⟩, [Text.encode "--conf=--doit"]),
  (⟨.git, Text.encode "=git"⟩, [Text.encode "--git", Text.encode "=git"]),
  (⟨.settings, Text.encode "a.toml"⟩, [Text.encode "--settings", Text.encode "a.toml"]),
  (⟨.logLevel, Text.encode "4"⟩, [Text.encode "-l", Text.encode "4"])]

theorem renders_mixedParts : Renders mixedOptions mixedParts where
  spelled := by
    intro part hpart
    simp only [mixedParts, List.mem_cons, List.not_mem_nil, or_false] at hpart
    rcases hpart with rfl | rfl | rfl | rfl | rfl | rfl | rfl
    · exact @Spells.letter .repo 'C' _ rfl rfl (by decide)
    · exact Spells.joined _ rfl
    · exact Spells.flag rfl
    · exact Spells.joined _ rfl
    · exact @Spells.apart .git _ rfl (by decide)
    · exact @Spells.apart .settings _ rfl (by decide)
    · exact @Spells.letter .logLevel 'l' _ rfl rfl (by decide)
  each := by decide +kernel
  inOrder := by decide +kernel

/-- They are read back, also with the first switch at the end. -/
theorem parse_renders_mixed :
    parse [Text.encode "-C", [0xFF], Text.encode "--settings=b.toml", Text.encode "--doit",
      Text.encode "--conf=--doit", Text.encode "--git", Text.encode "=git",
      Text.encode "--settings", Text.encode "a.toml", Text.encode "-l", Text.encode "4"]
        = .ok mixedOptions ∧
      parse (Parts.arguments (mixedParts.tail ++ mixedParts.take 1)) = .ok mixedOptions := by
  have hpaths : mixedOptions.NoEmptyPath := by
    rw [Options.NoEmptyPath]
    decide +kernel
  obtain ⟨hok, -, hperm⟩ := parse_renders renders_mixedParts hpaths
  have hread : parse mixedParts.arguments = .ok mixedOptions := hok (.inl rfl)
  have hmoved : (mixedParts.tail ++ mixedParts.take 1).Perm mixedParts := List.perm_append_comm
  exact ⟨hread, (hperm _ hmoved rfl).1.trans hread⟩

end CommandLine

end RebasePlan
