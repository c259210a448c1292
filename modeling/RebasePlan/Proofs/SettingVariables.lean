import RebasePlan.Proofs.Numerals
import RebasePlan.Proofs.SingleSettings
import RebasePlan.Proofs.Utf8Reading

/-! # Variables for settings

    A variable is one for settings if its name says so, and its name and its text are
    read for themselves: no variable hangs on another (`entriesOfEnvironment_eq`).
    The variable of a setting is named by the common beginning, the section and the
    setting, in capital or small letters (`variableKey?_of_names`).  A text that is
    the numeral of a number is taken for this number (`guess_toString`).

    Names are compared in small letters.  What a letter becomes hangs on its
    neighbours only at a sigma, whose small form differs at the end of a word.  An
    underscore ends every word, so the texts in front of it and behind it are put in
    small letters one by one (`Text.lower_append_underscore`); a text without a sigma
    and a dotted I is put in small letters character by character
    (`Text.lowerFrom_eq_map`). -/

namespace RebasePlan.Text

/-! ## Small letters -/

/-- An underscore has no case and counts. -/
theorem startsCased_append_underscore (cs rest rest' : List Char) :
    startsCased (cs ++ '_' :: rest) = startsCased (cs ++ '_' :: rest') := by
  induction cs with
  | nil =>
      have hcounts : isCaseIgnorable '_' = false := by decide +kernel
      rw [startsCased, startsCased, List.nil_append, List.nil_append, List.dropWhile_cons,
        List.dropWhile_cons, hcounts]
      rfl
  | cons c cs ih =>
      rw [startsCased, startsCased, List.cons_append, List.cons_append, List.dropWhile_cons,
        List.dropWhile_cons]
      split
      · exact ih
      · rfl

/-- Behind an underscore the letters are put in small ones by themselves, with what stands in front
    of them in mind. -/
theorem lowerFrom_append_underscore (before cs rest : List Char) :
    lowerFrom before (cs ++ '_' :: rest)
      = lowerFrom before (cs ++ ['_']) ++ lowerFrom ('_' :: (cs.reverse ++ before)) rest := by
  induction cs generalizing before with
  | nil => rfl
  | cons c cs ih =>
      have hat : lowerAt before c (cs ++ '_' :: rest) = lowerAt before c (cs ++ ['_']) := by
        rw [lowerAt, lowerAt, endsWord, endsWord, startsCased_append_underscore cs rest []]
      rw [List.cons_append, List.cons_append, lowerFrom, lowerFrom, ih, hat, List.append_assoc,
        List.reverse_cons, List.append_assoc]
      rfl

theorem lower_append_underscore (cs rest : List Char) :
    lower (cs ++ '_' :: rest) = lower (cs ++ ['_']) ++ lowerFrom ('_' :: cs.reverse) rest := by
  rw [lower, lowerFrom_append_underscore, List.append_nil]
  rfl

/-- The letters whose small letters do not come one by one. -/
def isSpecialCapital (c : Char) : Bool := c == '\u0130' || c == 'Σ'

/-- Without a special capital the characters are put in small letters one by one. -/
theorem lowerFrom_eq_map {cs : List Char} (h : ∀ c ∈ cs, isSpecialCapital c = false)
    (before : List Char) : lowerFrom before cs = cs.map lowerChar := by
  induction cs generalizing before with
  | nil => rfl
  | cons c cs ih =>
      have hc := h c List.mem_cons_self
      rw [isSpecialCapital, Bool.or_eq_false_iff] at hc
      rw [lowerFrom, lowerAt, if_neg (beq_eq_false_iff_ne.mp hc.1),
        if_neg (beq_eq_false_iff_ne.mp hc.2), ih fun d hd => h d (List.mem_cons_of_mem _ hd)]
      rfl

/-- The characters in front of the first capital letter are left as they are. -/
theorem lowerChar_of_lt {c : Char} (h : c.toNat < 0x41) : lowerChar c = c := by
  have hruns : ∀ run ∈ capitalRuns, 0x41 ≤ run.1 := by decide +kernel
  rw [lowerChar]
  split
  · next first _ _ _ hrun =>
    have hlow : 0x41 ≤ first := hruns _ (List.mem_of_find?_eq_some hrun)
    have hfits := List.find?_some hrun
    simp only [Bool.and_eq_true, decide_eq_true_eq] at hfits
    omega
  · rfl

/-- So a text without letters stays as it is. -/
theorem lower_eq_self {cs : List Char} (h : ∀ c ∈ cs, c.toNat < 0x41) : lower cs = cs := by
  have hplain : ∀ c ∈ cs, isSpecialCapital c = false := by
    intro c hc
    have hlt := h c hc
    rw [isSpecialCapital, Bool.or_eq_false_iff, beq_eq_false_iff_ne, beq_eq_false_iff_ne]
    constructor
    · rintro rfl
      exact absurd hlt (by decide)
    · rintro rfl
      exact absurd hlt (by decide)
  rw [lower, lowerFrom_eq_map hplain]
  exact (List.map_congr_left fun c hc => lowerChar_of_lt (h c hc)).trans (List.map_id cs)

end RebasePlan.Text

namespace RebasePlan.Settings

/-! ## One variable at a time -/

/-- The key that a variable's name stands for, if it is one for settings. -/
def variableKey? (beginning : String) (name : List UInt8) : Option String :=
  (variableName? beginning name).map fun name =>
    String.ofList (Text.replacePair '_' '.' name.toList)

/-- The key and the value that a variable gives, if it is one for settings. -/
def variableAssignment? (beginning : String) (entry : List UInt8 × List UInt8) :
    Option (String × Value) :=
  (variableKey? beginning entry.1).bind fun key =>
    (Text.strict entry.2).map fun text => (key, .scalar (some environmentOrigin) (guess text))

/-- The variables for settings hold texts. -/
def Legible (beginning : String) (env : Environment) : Prop :=
  ∀ e ∈ env, (variableKey? beginning e.1).isSome → (Text.strict e.2).isSome

/-- A variable with a text gives its key this text, as far as it is one for settings. -/
theorem variableValue?_eq {beginning : String} {entry : List UInt8 × List UInt8}
    (h : (variableKey? beginning entry.1).isSome → (Text.strict entry.2).isSome) :
    variableValue? beginning entry = .ok (variableAssignment? beginning entry) := by
  rw [variableValue?, variableAssignment?, variableKey?]
  rw [variableKey?, Option.isSome_map] at h
  cases hname : variableName? beginning entry.1 with
  | none => rfl
  | some name =>
      obtain ⟨text, htext⟩ := Option.isSome_iff_exists.mp (h (by rw [hname]; rfl))
      rw [htext]
      rfl

/-- The variables for settings give what each of them gives, in their order. -/
theorem entriesOfEnvironment_eq {beginning : String} {env : Environment}
    (h : Legible beginning env) :
    entriesOfEnvironment beginning env = .ok (env.filterMap (variableAssignment? beginning)) := by
  have hmap : env.mapM (variableValue? beginning)
      = .ok (env.map (variableAssignment? beginning)) := by
    induction env with
    | nil => rfl
    | cons e rest ih =>
        rw [List.mapM_cons, variableValue?_eq (h e List.mem_cons_self),
          ih fun d hd => h d (List.mem_cons_of_mem _ hd)]
        rfl
  rw [entriesOfEnvironment, hmap]
  show Except.ok _ = _
  rw [List.filterMap_map]
  rfl

/-! ## Names -/

/-- The name of a setting's variable behind the common beginning, in small letters. -/
def Setting.variable (k : Setting) : String := k.home.name ++ "__" ++ k.name

/-- A variable's name is the common beginning, the section and the setting, whatever the letters'
    case. -/
def Setting.Names (k : Setting) (beginning : String) (name : List UInt8) : Prop :=
  ∃ text, Text.strict name = some text ∧ lowered text = lowered (beginning ++ "_" ++ k.variable)

/-- Small letters of a joined name are those of its first part, and those of its second one by one.
    -/
theorem lowered_append {s : String} (h : ∀ c ∈ s.toList, Text.isSpecialCapital c = false)
    (beginning : String) :
    (lowered (beginning ++ "_" ++ s)).toList
      = (lowered (beginning ++ "_")).toList ++ s.toList.map Text.lowerChar := by
  rw [lowered, lowered, String.toList_ofList, String.toList_ofList, String.toList_append,
    String.toList_append, show "_".toList = ['_'] from rfl, List.append_assoc,
    List.singleton_append, Text.lower_append_underscore, Text.lowerFrom_eq_map h]

/-- The name of a setting's variable is in small letters already. -/
theorem Setting.map_lowerChar_variable (k : Setting) :
    k.variable.toList.map Text.lowerChar = k.variable.toList := by
  cases k <;> decide +kernel

theorem Setting.map_lowerChar_capitals (k : Setting) :
    k.variable.toUpper.toList.map Text.lowerChar = k.variable.toList := by
  cases k <;> decide +kernel

theorem Setting.plain_variable (k : Setting) :
    ∀ c ∈ k.variable.toList, Text.isSpecialCapital c = false := by
  have hnone : k.variable.toList.any Text.isSpecialCapital = false := by
    cases k <;> decide +kernel
  exact fun c hc => Bool.eq_false_iff.mpr (List.any_eq_false.mp hnone c hc)

theorem Setting.plain_capitals (k : Setting) :
    ∀ c ∈ k.variable.toUpper.toList, Text.isSpecialCapital c = false := by
  have hnone : k.variable.toUpper.toList.any Text.isSpecialCapital = false := by
    cases k <;> decide +kernel
  exact fun c hc => Bool.eq_false_iff.mpr (List.any_eq_false.mp hnone c hc)

/-- With a dot for its two underscores it is the path of the setting. -/
theorem Setting.replacePair_variable (k : Setting) :
    String.ofList (Text.replacePair '_' '.' k.variable.toList) = k.path := by
  cases k <;> decide +kernel

/-- **THE NAME OF A VARIABLE** of a setting leads to this setting. -/
theorem variableKey?_of_names {k : Setting} {beginning : String} {name : List UInt8}
    (h : k.Names beginning name) : variableKey? beginning name = some k.path := by
  obtain ⟨text, htext, hlowered⟩ := h
  have hlist : (lowered text).toList
      = (lowered (beginning ++ "_")).toList ++ k.variable.toList := by
    rw [hlowered, lowered_append k.plain_variable, k.map_lowerChar_variable]
  have hname : variableName? beginning name = some k.variable := by
    rw [variableName?, htext, Option.bind_eq_bind, Option.bind_some, hlist,
      if_pos (List.isPrefixOf_iff_prefix.mpr (List.prefix_append _ _)), List.drop_left]
    exact congrArg some (String.ofList_toList)
  rw [variableKey?, hname, Option.map_some, k.replacePair_variable]

/-- The name in capital letters. -/
theorem Setting.names_capitals (k : Setting) (beginning : String) :
    k.Names beginning (Text.encode (beginning ++ "_" ++ k.variable.toUpper)) := by
  refine ⟨_, Text.strict_eq_some_iff.mpr rfl, String.toList_injective ?_⟩
  rw [lowered_append k.plain_capitals, lowered_append k.plain_variable, k.map_lowerChar_capitals,
    k.map_lowerChar_variable]

/-! ## Texts -/

/-- A numeral is no word. -/
theorem lowered_toString (n : Int) : lowered (toString n) = toString n := by
  have hlt : ∀ c ∈ (toString n).toList, c.toNat < 0x41 := by
    intro c hc
    rcases Number.mem_toString hc with rfl | hdigit
    · decide
    · rw [Char.isDigit, Bool.and_eq_true, decide_eq_true_iff, decide_eq_true_iff] at hdigit
      have hle : c.toNat ≤ 57 := hdigit.2
      omega
  rw [lowered, Text.lower_eq_self hlt, String.ofList_toList]

/-- A numeral has nothing but a minus and digits. -/
theorem toString_ne_word {n : Int} {word : String}
    (h : word.toList.all (fun c => c == '-' || c.isDigit) = false) : toString n ≠ word := by
  rintro rfl
  rw [List.all_eq_false] at h
  obtain ⟨c, hc, hother⟩ := h
  rcases Number.mem_toString hc with rfl | hdigit
  · exact hother rfl
  · exact hother (by rw [hdigit, Bool.or_true])

/-- Digits are taken for the number that they write, if it has 64 bits. -/
theorem guess_toString {n : Int} (h : Number.fitSigned? n = some n) :
    guess (toString n) = .integer n := by
  rw [guess, lowered_toString, if_neg (toString_ne_word (by decide)),
    if_neg (toString_ne_word (by decide)), Number.signed?_toString, h]

/-- Digits of a number are read as numbers that are not negative are. -/
theorem numberOfText?_toString (n : Int) :
    numberOfText? (toString n) = Number.unsigned? (toString n).toList := by
  have hword : ∀ word ∈ yesWords ++ noWords, toString n ≠ word := fun word hmem =>
    toString_ne_word (by revert word; decide)
  have hyes : yesWords.contains (toString n) = false := by
    rw [List.contains_eq_mem]
    exact decide_eq_false fun hmem => hword _ (List.mem_append_left _ hmem) rfl
  have hno : noWords.contains (toString n) = false := by
    rw [List.contains_eq_mem]
    exact decide_eq_false fun hmem => hword _ (List.mem_append_right _ hmem) rfl
  rw [numberOfText?, show String.ofList (Text.lower (toString n).toList) = toString n from
    lowered_toString n, hyes, hno]
  rfl

end RebasePlan.Settings
