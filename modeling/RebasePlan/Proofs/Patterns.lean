import Mathlib.Data.List.Basic
import Mathlib.Data.List.TakeWhile

/-! # Patterns, and the match that is found

    A pattern is tried at a place of a text.  There may be many ways to match it;
    `Pattern.runs` lists where each of them ends, the preferred one first: the
    first side of an alternative before the second, and another round of a
    repetition before its end.  What follows a pattern is tried behind each of
    its ends in turn, which is what goes back to a way less preferred when the
    preferred one leads nowhere.

    The match of a text is the first one at the first place that has any
    (`Pattern.search`).  Of a pattern with a group, `Pattern.capture?` is the part of
    the match that the group took. -/

namespace RebasePlan

/-- A pattern over text, with at most one group. -/
inductive Pattern where
  /-- Takes nothing. -/
  | nothing
  /-- Takes nothing, at the start of the text or behind a line feed. -/
  | lineStart
  /-- Takes one character of a class. -/
  | oneOf (holds : Char → Bool)
  | followedBy (first second : Pattern)
  | orElse (preferred other : Pattern)
  /-- Rounds of a pattern, as many as can be. -/
  | oneOrMore (round : Pattern)
  | group (body : Pattern)

namespace Pattern

/-- A place in a text, with what the group has taken on the way there. -/
structure Spot where
  behind : Option Char
  ahead : List Char
  taken : Option (List Char)

/-- The spot that taking a word leads to. -/
def Spot.past (s : Spot) (word : List Char) : Spot :=
  ⟨word.getLast?.or s.behind, s.ahead.drop word.length, s.taken⟩

/-- Whether a line begins behind this character, or where there is none. -/
def opensLine (behind : Option Char) : Bool := behind == none || behind == some '\n'

/-- The ends of any number of rounds, the most rounds first.  A round that takes nothing is none. -/
def greedily (round : Spot → List Spot) (s : Spot) : List Spot :=
  (round s).flatMap (fun e => if _h : e.ahead.length < s.ahead.length then greedily round e else [])
    ++ [s]
termination_by s.ahead.length

/-- Where the ways to match a pattern end, in the order of preference. -/
def runs : Pattern → Spot → List Spot
  | nothing, s => [s]
  | lineStart, s => if opensLine s.behind then [s] else []
  | oneOf holds, s =>
    match s.ahead with
    | [] => []
    | c :: _ => if holds c then [s.past [c]] else []
  | followedBy first second, s => (first.runs s).flatMap second.runs
  | orElse preferred other, s => preferred.runs s ++ other.runs s
  | oneOrMore round, s => (round.runs s).flatMap (greedily round.runs)
  | group body, s => (body.runs s).map fun e =>
      { e with taken := some (s.ahead.take (s.ahead.length - e.ahead.length)) }

/-- The end of the match that is found, from a place on. -/
def search (p : Pattern) : Option Char → List Char → Option Spot
  | behind, [] => (p.runs ⟨behind, [], none⟩).head?
  | behind, c :: rest => (p.runs ⟨behind, c :: rest, none⟩).head?.or (p.search (some c) rest)

/-- What the group took in the match that is found. -/
def capture? (p : Pattern) (cs : List Char) : Option (List Char) :=
  (p.search none cs).bind Spot.taken

/-! ## Patterns made of others -/

/-- Takes a word, letter by letter. -/
def literal : List Char → Pattern
  | [] => nothing
  | c :: cs => followedBy (oneOf (· == c)) (literal cs)

/-- Takes what the pattern takes, or else nothing. -/
def optional (p : Pattern) : Pattern := orElse p nothing

/-! ## Spots -/

@[simp]
theorem Spot.ahead_past (s : Spot) (word : List Char) :
    (s.past word).ahead = s.ahead.drop word.length := rfl

/-- A word is passed letter by letter. -/
theorem Spot.past_cons (s : Spot) (c : Char) (word : List Char) :
    (s.past [c]).past word = s.past (c :: word) := by
  have hbehind : word.getLast?.or (some c) = (c :: word).getLast?.or s.behind := by
    cases word with
    | nil => rfl
    | cons d word =>
        rw [List.getLast?_cons_cons, List.getLast?_cons, Option.some_or, Option.some_or]
  have hahead : (s.ahead.drop 1).drop word.length = s.ahead.drop (c :: word).length := by
    rw [List.drop_drop, List.length_cons, Nat.add_comm]
  exact congrArg₂ (Spot.mk · · s.taken) hbehind hahead

/-- What lies between a spot and the spot past a word is the word. -/
theorem Spot.take_past {s : Spot} {word : List Char} (h : word <+: s.ahead) :
    s.ahead.take (s.ahead.length - (s.past word).ahead.length) = word := by
  obtain ⟨rest, hrest⟩ := h
  rw [Spot.ahead_past, ← hrest, List.drop_left, List.length_append, Nat.add_sub_cancel,
    List.take_left]

/-! ## What follows a pattern -/

variable (p q : Pattern) (s : Spot)

/-- What follows an alternative is tried behind all ways of the preferred side first. -/
theorem runs_orElse_followedBy (r : Pattern) :
    (followedBy (orElse p q) r).runs s = (followedBy p r).runs s ++ (followedBy q r).runs s :=
  List.flatMap_append

/-- What follows an option is tried without it when that fails with it. -/
theorem runs_optional_followedBy :
    (followedBy (optional p) q).runs s = (followedBy p q).runs s ++ q.runs s := by
  rw [optional, runs_orElse_followedBy]
  exact congrArg _ (List.flatMap_singleton _ _)

theorem runs_lineStart_followedBy :
    (followedBy lineStart p).runs s = if opensLine s.behind then p.runs s else [] := by
  rw [runs, runs]
  split
  · exact List.flatMap_singleton _ _
  · rfl

/-- A class takes a character that is in it, in one way. -/
theorem runs_oneOf_of_pos (holds : Char → Bool) {c : Char} (hc : holds c = true)
    (behind : Option Char) (rest : List Char) (taken : Option (List Char)) :
    (oneOf holds).runs ⟨behind, c :: rest, taken⟩ = [⟨some c, rest, taken⟩] :=
  if_pos hc

theorem runs_oneOf_of_neg (holds : Char → Bool) {c : Char} (hc : holds c = false)
    (behind : Option Char) (rest : List Char) (taken : Option (List Char)) :
    (oneOf holds).runs ⟨behind, c :: rest, taken⟩ = [] :=
  if_neg (Bool.eq_false_iff.mp hc)

/-- A word is matched where it stands, in one way. -/
theorem runs_literal (word : List Char) :
    (literal word).runs s = if word.isPrefixOf s.ahead then [s.past word] else [] := by
  induction word generalizing s with
  | nil => rfl
  | cons c word ih =>
      obtain ⟨behind, ahead, taken⟩ := s
      cases ahead with
      | nil => rfl
      | cons d rest =>
          rw [literal, runs]
          by_cases hd : d = c
          · subst hd
            rw [runs_oneOf_of_pos (· == d) (beq_self_eq_true d), List.flatMap_singleton, ih,
              ← Spot.past_cons ⟨behind, d :: rest, taken⟩ d word]
            simp [Spot.past]
          · have hprefix : (c :: word).isPrefixOf (d :: rest) = false := by
              simp [List.isPrefixOf, Ne.symm hd]
            rw [runs_oneOf_of_neg (· == c) (beq_eq_false_iff_ne.mpr hd), hprefix]
            rfl

/-- What follows a word is tried past the word, if the word stands there. -/
theorem runs_literal_followedBy (word : List Char) :
    (followedBy (literal word) p).runs s =
      if word.isPrefixOf s.ahead then p.runs (s.past word) else [] := by
  rw [runs, runs_literal]
  split
  · exact List.flatMap_singleton _ _
  · rfl

/-! ## The preferred way -/

/-- A class takes all characters that it can before anything less is tried. -/
theorem head?_greedily_oneOf (holds : Char → Bool) :
    (greedily (oneOf holds).runs s).head? = some (s.past (s.ahead.takeWhile holds)) := by
  obtain ⟨behind, ahead, taken⟩ := s
  induction ahead generalizing behind with
  | nil =>
      rw [greedily]
      rfl
  | cons c rest ih =>
      rw [greedily]
      cases hc : holds c with
      | false =>
          rw [runs_oneOf_of_neg holds hc, List.takeWhile_cons_of_neg (Bool.eq_false_iff.mp hc)]
          rfl
      | true =>
          have hshorter : rest.length < (c :: rest).length := Nat.lt_succ_self _
          rw [runs_oneOf_of_pos holds hc, List.flatMap_singleton, dif_pos hshorter,
            List.head?_append, ih, Option.some_or, List.takeWhile_cons_of_pos hc,
            ← Spot.past_cons _ c (rest.takeWhile holds)]
          rfl

/-- The way that is tried first takes as many characters as there are, and at least one. -/
theorem head?_oneOrMore_oneOf (holds : Char → Bool) :
    ((oneOrMore (oneOf holds)).runs s).head? =
      if s.ahead.takeWhile holds = [] then none else some (s.past (s.ahead.takeWhile holds)) := by
  obtain ⟨behind, ahead, taken⟩ := s
  cases ahead with
  | nil => rfl
  | cons c rest =>
      rw [runs]
      cases hc : holds c with
      | false =>
          rw [runs_oneOf_of_neg holds hc, List.takeWhile_cons_of_neg (Bool.eq_false_iff.mp hc)]
          rfl
      | true =>
          rw [runs_oneOf_of_pos holds hc, List.flatMap_singleton, head?_greedily_oneOf,
            List.takeWhile_cons_of_pos hc, if_neg (List.cons_ne_nil _ _),
            ← Spot.past_cons _ c (rest.takeWhile holds)]
          rfl

/-- **A GROUP AROUND A CLASS** takes the longest word of the class, or there is no way. -/
theorem head?_group_oneOrMore_oneOf (holds : Char → Bool) :
    ((group (oneOrMore (oneOf holds))).runs s).head? =
      if s.ahead.takeWhile holds = [] then none
      else some
        { s.past (s.ahead.takeWhile holds) with taken := some (s.ahead.takeWhile holds) } := by
  rw [runs, List.head?_map, head?_oneOrMore_oneOf]
  split
  · rfl
  · rw [Option.map_some, Spot.take_past (List.takeWhile_prefix holds)]

end Pattern

end RebasePlan
