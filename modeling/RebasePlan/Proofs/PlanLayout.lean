import RebasePlan.Proofs.FirstFault

/-! # The layout of a plan file does not matter

    A plan file may be written in many ways: with blanks around its lines and its
    separators, with either separator, with comments between its rules, with
    either line end, behind a mark of byte order.  `Plan.Relaid` says that one text
    is another with any of this changed, each line in its own way.

    What the reader takes from a line is `Rule.Line.read`, and a line laid out in
    another way is read alike (`Rule.Restyled.read_eq`).  Lines that are read
    alike lead to readings that agree (`Reading.agrees_ofLines_cons`), whatever
    their numbers; the rest is an induction over the text. -/

namespace RebasePlan

open Rule (Significant HasSides)
open Text (Blank trim)

/-! ## One line -/

namespace Rule

/-- What a line says, by its significance and its sides. -/
theorem Line.read_eq (raw : List Char) :
    Line.read raw = if Significant raw then
        match sides raw with
        | some (branch, base) => .rule branch base
        | none => .malformed
      else .insignificant := by
  rcases Line.read_cases raw with
    ⟨hread, hno⟩ | ⟨hread, hsig, hno⟩ | ⟨left, right, hread, hsig, hsides⟩
  · rw [hread, if_neg hno]
  · have hnone : sides raw = none := by
      rw [Option.eq_none_iff_forall_ne_some]
      exact fun parts hparts => hno parts.1 parts.2 (sides_eq_some_iff.mp hparts)
    rw [hread, if_pos hsig, hnone]
  · rw [hread, if_pos hsig, sides_eq_some_iff.mpr hsides]

/-- Lines that are the same when they are trimmed are read alike. -/
theorem Line.read_eq_of_trim_eq {line line' : List Char} (h : trim line = trim line') :
    Line.read line = Line.read line' := by
  rw [Line.read, h, ← Line.read]

/-- No second separator begins in front of one, unless it is there already. -/
theorem cutsAtFirst_separator {front separator : List Char}
    (hfront : ∀ p ∈ separators, ¬ p <:+: front) (hseparator : separator ∈ separators)
    (rest : List Char) :
    Text.CutsAtFirst separators (front ++ separator ++ rest) front rest where
  occurs := ⟨separator, hseparator, rfl⟩
  first := by
    intro p hp u v hline
    rw [List.append_assoc, List.append_assoc] at hline
    by_contra hlt
    rcases List.append_eq_append_iff.mp hline with ⟨as, hu, -⟩ | ⟨bs, hfr, hbs⟩
    · rw [hu, List.length_append] at hlt
      omega
    · cases bs with
      | nil =>
          rw [hfr, List.append_nil] at hlt
          omega
      | cons b bs =>
          cases bs with
          | nil =>
              -- the second character of a separator is never the first one of another
              simp only [separators, List.mem_cons, List.not_mem_nil, or_false] at hp hseparator
              rcases hp with rfl | rfl <;> rcases hseparator with rfl | rfl <;> simp at hbs
          | cons b' bs =>
              refine hfront p hp ⟨u, bs, ?_⟩
              have hpair : p = [b, b'] := by
                simp only [separators, List.mem_cons, List.not_mem_nil, or_false] at hp
                simp only [List.cons_append] at hbs
                rcases hp with rfl | rfl <;>
                  simp only [List.cons_append, List.cons.injEq] at hbs <;>
                  rw [hbs.1, hbs.2.1]
              rw [hfr, hpair]
              simp

/-- A line with a separator counts unless it begins as a comment. -/
theorem significant_iff_of_cutsAtFirst {line left right : List Char}
    (h : Text.CutsAtFirst separators line left right) :
    Significant line ↔ (trim left).head? ≠ some '#' := by
  obtain ⟨separator, hseparator, hline⟩ := h.occurs
  by_cases hleft : trim left = []
  · -- nothing but blanks before the separator: it is what the line begins with
    obtain ⟨c, hc, hsep⟩ : ∃ c, Text.isBlank c = false ∧ c ≠ '#' ∧ separator = [c, '>'] := by
      rcases List.mem_cons.mp hseparator with rfl | hmem
      · exact ⟨'-', rfl, by decide, rfl⟩
      · exact ⟨'=', rfl, by decide, List.mem_singleton.mp hmem⟩
    have htrim : trim line = c :: Text.trimEnd ('>' :: right) := by
      rw [hline, hsep.2, List.append_assoc, Text.trim_blank_append (Text.trim_eq_nil_iff.mp hleft)]
      exact Text.trim_cons hc ('>' :: right)
    refine iff_of_true ⟨?_, ?_⟩ ?_
    · rw [htrim]
      exact List.cons_ne_nil _ _
    · rw [htrim]
      exact fun hhead => hsep.1 (Option.some.inj hhead)
    · rw [hleft]
      exact nofun
  · have hhead : (trim line).head? = (trim left).head? := by
      rw [hline, List.append_assoc, Text.head?_trim_append hleft]
    rw [Significant, hhead]
    refine and_iff_right fun hnil => ?_
    rw [hnil] at hhead
    exact hleft (List.head?_eq_none_iff.mp hhead.symm)

/-- Blanks that stay on their line. -/
structure Padding (cs : List Char) : Prop where
  blank : Blank cs
  noFeed : '\n' ∉ cs

theorem padding_nil : Padding [] := ⟨nofun, List.not_mem_nil⟩

theorem padding_singleton {c : Char} (hblank : Text.isBlank c = true) (hc : '\n' ≠ c) :
    Padding [c] where
  blank := fun _ hd => List.mem_singleton.mp hd ▸ hblank
  noFeed := mt List.mem_singleton.mp hc

/-- A line with blanks put at its ends; or also around its first separator, which may then be the
    other one. -/
inductive Restyled : List Char → List Char → Prop where
  | framed {line before after : List Char} :
      Padding before → Padding after → Restyled line (before ++ line ++ after)
  | separated {line left right separator before inner inner' after : List Char} :
      Text.CutsAtFirst [['-', '>'], ['=', '>']] line left right →
      separator ∈ [['-', '>'], ['=', '>']] → Padding before → Padding inner → Padding inner' →
      Padding after →
      Restyled line ((before ++ left ++ inner) ++ separator ++ (inner' ++ right ++ after))

namespace Restyled

variable {line line' : List Char}

/-- **A LINE LAID OUT IN ANOTHER WAY** is read alike. -/
theorem read_eq (h : Restyled line line') : Line.read line' = Line.read line := by
  cases h with
  | framed hbefore hafter =>
      refine Line.read_eq_of_trim_eq ?_
      rw [Text.trim_append_blank hafter.blank, Text.trim_blank_append hbefore.blank]
  | @separated left right separator before inner inner' after hcut hseparator hbefore hinner
      hinner' hafter =>
      have hleft : trim (before ++ left ++ inner) = trim left := by
        rw [Text.trim_append_blank hinner.blank, Text.trim_blank_append hbefore.blank]
      have hright : trim (inner' ++ right ++ after) = trim right := by
        rw [Text.trim_append_blank hafter.blank, Text.trim_blank_append hinner'.blank]
      have hne := separators_uniform.ne_nil
      have hnone : Text.cut separators (before ++ left ++ inner) = none := by
        have hleft := (Text.cut_eq_none_iff hne).mpr (Text.not_infix_of_cutsAtFirst hne hcut)
        rw [cut_framed hbefore.blank hinner.blank, hleft]
        rfl
      have hcut' := cutsAtFirst_separator ((Text.cut_eq_none_iff hne).mp hnone) hseparator
        (inner' ++ right ++ after)
      have hsides := sides_of_cut ((Text.cut_eq_some_iff separators_uniform).mpr hcut)
      have hsides' := sides_of_cut ((Text.cut_eq_some_iff separators_uniform).mpr hcut')
      rw [hleft, hright] at hsides'
      have hsig : Significant _ ↔ Significant line :=
        (significant_iff_of_cutsAtFirst hcut').trans
          (hleft ▸ (significant_iff_of_cutsAtFirst hcut).symm)
      rw [Line.read_eq, Line.read_eq line, hsides, hsides']
      simp only [hsig]

/-- Another layout keeps to the line. -/
theorem noFeed (h : Restyled line line') (hline : '\n' ∉ line) : '\n' ∉ line' := by
  cases h with
  | framed hbefore hafter => simp [hbefore.noFeed, hafter.noFeed, hline]
  | separated hcut hseparator hbefore hinner hinner' hafter =>
      obtain ⟨found, -, hparts⟩ := hcut.occurs
      rw [hparts] at hline
      have hclean : ∀ p ∈ [['-', '>'], ['=', '>']], '\n' ∉ p := by decide
      simp_all [hbefore.noFeed, hinner.noFeed, hinner'.noFeed, hafter.noFeed,
        hclean _ hseparator]

end Restyled

end Rule

/-! ## Readings that agree -/

/-- Two errors of one kind: they may tell of different lines. -/
inductive InputError.SameKind : InputError → InputError → Prop where
  | malformedRule (n n' : Nat) (text text' : String) :
      SameKind (.malformedRule n text) (.malformedRule n' text')
  | danglingMark (n n' : Nat) (text text' : String) :
      SameKind (.danglingMark n text) (.danglingMark n' text')

namespace Reading

/-- Two readings find the same rules, and stop for errors of one kind if they stop. -/
structure Agrees (r r' : Reading) : Prop where
  rules : r.accepted.map NumberedRule.rule = r'.accepted.map NumberedRule.rule
  stop : Option.Rel InputError.SameKind r.stop r'.stop

theorem agrees_end (n n' : Nat) (above above' : Option String) :
    Agrees (ofLines n above []) (ofLines n' above' []) :=
  ⟨rfl, .none⟩

theorem Agrees.prepend {r r' : Reading} (h : Agrees r r') (n n' : Nat) (rule : Rule) :
    Agrees (Reading.prepend ⟨n, rule⟩ r) (Reading.prepend ⟨n', rule⟩ r') :=
  ⟨congrArg (rule :: ·) h.rules, h.stop⟩

/-- Two lines that are read alike, above lines whose readings agree. -/
theorem agrees_ofLines_cons {line line' : List Char} {rest rest' : List (List Char)}
    (hline : Rule.Line.read line = Rule.Line.read line')
    (hrest : ∀ n n' above, Agrees (ofLines n above rest) (ofLines n' above rest')) (n n' : Nat)
    (above : Option String) :
    Agrees (ofLines n above (line :: rest)) (ofLines n' above (line' :: rest')) := by
  rw [ofLines, ofLines, hline]
  cases Rule.Line.read line' with
  | insignificant => exact hrest (n + 1) (n' + 1) above
  | malformed => exact ⟨rfl, .some (.malformedRule ..)⟩
  | rule branch base =>
      have hnext := hrest (n + 1) (n' + 1) (some (String.ofList branch))
      by_cases hmark : base = Rule.chainMark
      · cases above with
        | none =>
            simp only [if_pos hmark]
            exact ⟨rfl, .some (.danglingMark ..)⟩
        | some previous =>
            simp only [if_pos hmark]
            exact hnext.prepend ..
      · simp only [if_neg hmark]
        exact hnext.prepend ..

/-- Readings that agree have the same plan if they have one. -/
theorem Agrees.plan_eq_ok_iff {r r' : Reading} (h : Agrees r r') (plan : Plan) :
    r.plan = .ok plan ↔ r'.plan = .ok plan := by
  obtain ⟨accepted, stop⟩ := r
  obtain ⟨accepted', stop'⟩ := r'
  obtain ⟨hrules, hstop⟩ := h
  cases hstop with
  | none =>
      show Except.ok (accepted.map _) = _ ↔ Except.ok (accepted'.map _) = _
      rw [show accepted.map NumberedRule.rule = accepted'.map NumberedRule.rule from hrules]
  | some _ => exact iff_of_false nofun nofun

/-- If the one reading stops for an error, the other stops for one of the same kind. -/
theorem Agrees.exists_plan_eq_error {r r' : Reading} (h : Agrees r r') {e : InputError}
    (he : r.plan = .error e) : ∃ e', r'.plan = .error e' ∧ e.SameKind e' := by
  obtain ⟨accepted, stop⟩ := r
  obtain ⟨accepted', stop'⟩ := r'
  obtain ⟨-, hstop⟩ := h
  cases hstop with
  | none => exact nomatch he
  | @some found found' hkind =>
      obtain rfl := Except.error.inj he
      exact ⟨found', rfl, hkind⟩

end Reading

/-! ## The line ends of a text -/

namespace Text

/-- What may end a line. -/
def lineEnds : List (List Char) := [['\n'], ['\r', '\n']]

theorem trim_dropReturn (piece : List Char) : trim (dropReturn piece) = trim piece := by
  rw [dropReturn]
  split
  · next hreturn =>
    obtain ⟨front, rfl⟩ := List.getLast?_eq_some_iff.mp hreturn
    have hblank : Blank ['\r'] := by
      intro c hc
      rw [List.mem_singleton.mp hc]
      rfl
    rw [List.dropLast_concat, trim_append_blank hblank]
  · rfl

/-- Either line end gives a line that is the piece in front of it, but for blanks. -/
theorem exists_line {piece stop : List Char} (hpiece : '\n' ∉ piece) (hstop : stop ∈ lineEnds)
    (rest : List Char) :
    ∃ line, linesAtFeeds (piece ++ stop ++ rest) = line :: linesAtFeeds rest ∧
      trim line = trim piece := by
  rcases List.mem_cons.mp hstop with rfl | hstop
  · refine ⟨dropReturn piece, ?_, trim_dropReturn piece⟩
    rw [List.append_assoc]
    exact linesAtFeeds_append_feed hpiece rest
  · rw [List.mem_singleton.mp hstop]
    have hreturn : '\n' ∉ piece ++ ['\r'] := by simp [hpiece]
    refine ⟨dropReturn (piece ++ ['\r']), ?_, ?_⟩
    · have hfeed := linesAtFeeds_append_feed hreturn rest
      rw [List.append_assoc] at hfeed ⊢
      exact hfeed
    · rw [dropReturn, if_pos List.getLast?_concat, List.dropLast_concat]

/-- A text in which carriage returns are put in front of line feeds. -/
inductive Returned : List Char → List Char → Prop where
  | done : Returned [] []
  | keep {cs cs' : List Char} (c : Char) : Returned cs cs' → Returned (c :: cs) (c :: cs')
  | feed {cs cs' : List Char} : Returned cs cs' → Returned ('\n' :: cs) ('\r' :: '\n' :: cs')

/-- **EITHER LINE END** gives the same lines. -/
theorem Returned.lines_eq {cs cs' : List Char} (h : Returned cs cs') (hreturn : '\r' ∉ cs) :
    lines cs' = lines cs := by
  induction h with
  | done => rfl
  | feed _ ih =>
      show [] :: lines _ = [] :: lines _
      rw [ih fun hmem => hreturn (List.mem_cons_of_mem _ hmem)]
  | keep c _ ih =>
      have hc : c ≠ '\r' := fun hc => hreturn (hc ▸ List.mem_cons_self ..)
      have hrest := ih fun hmem => hreturn (List.mem_cons_of_mem _ hmem)
      by_cases hfeed : c = '\n'
      · subst hfeed
        show [] :: lines _ = [] :: lines _
        rw [hrest]
      · rw [lines_cons hfeed fun h => absurd h hc, lines_cons hfeed fun h => absurd h hc, hrest]

/-- With carriage returns put in, a text begins as it did, or with one of them. -/
theorem Returned.head? {cs cs' : List Char} (h : Returned cs cs') :
    ∀ c ∈ cs'.head?, c = '\r' ∨ c ∈ cs.head? := by
  intro c hc
  cases h with
  | done => exact nomatch hc
  | keep d _ => exact Or.inr hc
  | feed _ => exact Or.inl (Option.some.inj hc).symm

/-- A text with or without a mark of byte order in front of it. -/
def Fronted (body cs : List Char) : Prop := cs = body ∨ cs = '\uFEFF' :: body

/-- The text behind the mark is the same whether the mark is there or not. -/
theorem Fronted.unmarked_eq {body cs : List Char} (h : Fronted body cs)
    (hbody : body.head? ≠ some '\uFEFF') : unmarked cs = body := by
  rcases h with rfl | rfl
  · exact if_neg hbody
  · exact if_pos rfl

end Text

/-! ## Whole files -/

namespace Plan

/-- A text is another one with its lines laid out in another way, ended in another way, and with
    lines between them that do not count. -/
inductive Relaid : List Char → List Char → Prop where
  /-- The last line, which nothing ends. -/
  | last {line line' : List Char} :
      '\n' ∉ line → Rule.Restyled line line' → Relaid line line'
  /-- A line and its end. -/
  | line {line line' stop rest rest' : List Char} :
      '\n' ∉ line → Rule.Restyled line line' → stop ∈ Text.lineEnds → Relaid rest rest' →
      Relaid (line ++ '\n' :: rest) (line' ++ stop ++ rest')
  /-- A new line that does not count. -/
  | insert {added stop cs cs' : List Char} :
      '\n' ∉ added → ¬ Significant added → stop ∈ Text.lineEnds → Relaid cs cs' →
      Relaid cs (added ++ stop ++ cs')
  /-- A new last line that does not count, behind the last line feed. -/
  | insertLast {added : List Char} : '\n' ∉ added → ¬ Significant added → Relaid [] added
  /-- New lines below a last line that nothing ended. -/
  | insertBelow {line line' stop added : List Char} :
      '\n' ∉ line → Rule.Restyled line line' → stop ∈ Text.lineEnds → Relaid [] added →
      Relaid line (line' ++ stop ++ added)

/-- A text without a line feed is read as a line, be it empty or not. -/
theorem ofLines_of_not_mem {line : List Char} (h : '\n' ∉ line) (n : Nat) (above : Option String) :
    Reading.ofLines n above (Text.linesAtFeeds line) = Reading.ofLines n above [line] := by
  rw [Text.linesAtFeeds_of_not_mem h]
  cases line with
  | nil => rfl
  | cons c line => rfl

/-- **TEXTS THAT DIFFER IN THEIR LAYOUT** lead to readings that agree. -/
theorem Relaid.agrees {cs cs' : List Char} (h : Relaid cs cs') (n n' : Nat)
    (above : Option String) :
    Reading.Agrees (Reading.ofLines n above (Text.linesAtFeeds cs))
      (Reading.ofLines n' above (Text.linesAtFeeds cs')) := by
  induction h generalizing n n' above with
  | last hline hstyle =>
      rw [ofLines_of_not_mem hline, ofLines_of_not_mem (hstyle.noFeed hline)]
      exact Reading.agrees_ofLines_cons hstyle.read_eq.symm
        (fun n n' above => Reading.agrees_end n n' above above) n n' above
  | line hline hstyle hstop _ ih =>
      obtain ⟨found, hlines, hfound⟩ := Text.exists_line (hstyle.noFeed hline) hstop _
      rw [Text.linesAtFeeds_append_feed hline, hlines]
      refine Reading.agrees_ofLines_cons ?_ ih n n' above
      rw [Rule.Line.read_eq_of_trim_eq (Text.trim_dropReturn _),
        Rule.Line.read_eq_of_trim_eq hfound, hstyle.read_eq]
  | insert hadded hno hstop _ ih =>
      obtain ⟨found, hlines, hfound⟩ := Text.exists_line hadded hstop _
      have hskip : ¬ Significant found := by rwa [Significant, hfound]
      rw [hlines, Reading.ofLines_skip hskip]
      exact ih n (n' + 1) above
  | insertLast hadded hno =>
      rw [ofLines_of_not_mem hadded, Reading.ofLines_skip hno]
      exact Reading.agrees_end n (n' + 1) above above
  | insertBelow hline hstyle hstop _ ih =>
      obtain ⟨found, hlines, hfound⟩ := Text.exists_line (hstyle.noFeed hline) hstop _
      rw [ofLines_of_not_mem hline, hlines]
      refine Reading.agrees_ofLines_cons ?_ ih n n' above
      rw [Rule.Line.read_eq_of_trim_eq hfound, hstyle.read_eq]

/-! ## How a text begins -/

/-- A character that another layout may begin with. -/
def IsOpening (c : Char) : Prop := Text.isBlank c = true ∨ c = '#' ∨ c = '-' ∨ c = '='

theorem isOpening_of_padding {cs : List Char} (h : Rule.Padding cs) : ∀ c ∈ cs.head?, IsOpening c :=
  fun c hc => Or.inl (h.blank c (List.mem_of_mem_head? hc))

theorem isOpening_of_mem_lineEnds {stop : List Char} (h : stop ∈ Text.lineEnds) :
    ∀ c ∈ stop.head?, IsOpening c := by
  intro c hc
  refine Or.inl ?_
  rcases List.mem_cons.mp h with rfl | h
  · obtain rfl := Option.some.inj hc
    rfl
  · obtain rfl := List.mem_singleton.mp h
    obtain rfl := Option.some.inj hc
    rfl

theorem isOpening_of_mem_separators {separator : List Char} (h : separator ∈ Rule.separators) :
    ∀ c ∈ separator.head?, IsOpening c := by
  intro c hc
  rcases List.mem_cons.mp h with rfl | h
  · obtain rfl := Option.some.inj hc
    exact Or.inr (Or.inr (Or.inl rfl))
  · obtain rfl := List.mem_singleton.mp h
    obtain rfl := Option.some.inj hc
    exact Or.inr (Or.inr (Or.inr rfl))

/-- A line that does not count is empty, or begins with a blank or as a comment. -/
theorem isOpening_of_not_significant {added : List Char} (h : ¬ Significant added) :
    ∀ c ∈ added.head?, IsOpening c := by
  intro c hc
  obtain ⟨rest, rfl⟩ := List.head?_eq_some_iff.mp hc
  cases hblank : Text.isBlank c with
  | true => exact Or.inl hblank
  | false =>
      -- a line that begins with another character counts
      refine Or.inr (Or.inl ?_)
      by_contra hcomment
      refine h ⟨?_, ?_⟩
      · rw [Text.trim_cons hblank]
        exact List.cons_ne_nil _ _
      · rw [Text.trim_cons hblank]
        exact fun hhead => hcomment (Option.some.inj hhead)

/-- What a text begins with stands at the head of its first part or of what is behind it. -/
theorem mem_head?_append {c : Char} {front rest : List Char} (h : c ∈ (front ++ rest).head?) :
    c ∈ front.head? ∨ c ∈ rest.head? := by
  cases front with
  | nil => exact Or.inr h
  | cons d front => exact Or.inl h

theorem mem_head?_append_left {c : Char} {front : List Char} (h : c ∈ front.head?)
    (rest : List Char) : c ∈ (front ++ rest).head? := by
  obtain ⟨tail, rfl⟩ := List.head?_eq_some_iff.mp h
  rfl

theorem mem_head?_append_of_ne_nil {c : Char} {front : List Char} (hfront : front ≠ [])
    {rest : List Char} (h : c ∈ (front ++ rest).head?) : c ∈ front.head? := by
  rwa [List.head?_append_of_ne_nil _ hfront] at h

/-- A line laid out in another way begins as it did, or with a character of the layout. -/
theorem restyled_head? {line line' : List Char} (h : Rule.Restyled line line') :
    ∀ c ∈ line'.head?, IsOpening c ∨ c ∈ line.head? := by
  intro c hc
  cases h with
  | framed hbefore hafter =>
      rcases mem_head?_append hc with hc | hc
      · exact (mem_head?_append hc).imp_left (isOpening_of_padding hbefore c)
      · exact Or.inl (isOpening_of_padding hafter c hc)
  | @separated left right separator before inner inner' after hcut hseparator hbefore hinner _ _ =>
      have hne : separator ≠ [] := by
        rintro rfl
        exact Rule.separators_uniform.ne_nil hseparator
      rcases mem_head?_append (mem_head?_append_of_ne_nil (by simp [hne]) hc) with hc | hc
      · rcases mem_head?_append hc with hc | hc
        · refine (mem_head?_append hc).imp (isOpening_of_padding hbefore c) fun hc => ?_
          obtain ⟨found, -, hline⟩ := hcut.occurs
          rw [hline, List.append_assoc]
          exact mem_head?_append_left hc _
        · exact Or.inl (isOpening_of_padding hinner c hc)
      · exact Or.inl (isOpening_of_mem_separators hseparator c hc)

/-- A line in front of its end: the line begins the text, or the end of the line does. -/
theorem mem_head?_line {c : Char} {line stop rest : List Char} (hstop : stop ∈ Text.lineEnds)
    (h : c ∈ (line ++ stop ++ rest).head?) : c ∈ line.head? ∨ IsOpening c := by
  have hne : stop ≠ [] := by
    rintro rfl
    exact absurd hstop (by decide)
  exact (mem_head?_append (mem_head?_append_of_ne_nil (by simp [hne]) h)).imp_right
    (isOpening_of_mem_lineEnds hstop c)

/-- A text laid out in another way begins as it did, or with a character of the layout. -/
theorem Relaid.head? {cs cs' : List Char} (h : Relaid cs cs') :
    ∀ c ∈ cs'.head?, IsOpening c ∨ c ∈ cs.head? := by
  intro c hc
  cases h with
  | last _ hstyle => exact restyled_head? hstyle c hc
  | line _ hstyle hstop _ =>
      rcases mem_head?_line hstop hc with hc | hc
      · exact (restyled_head? hstyle c hc).imp_right fun hc => mem_head?_append_left hc _
      · exact Or.inl hc
  | insert _ hno hstop _ =>
      rcases mem_head?_line hstop hc with hc | hc
      · exact Or.inl (isOpening_of_not_significant hno c hc)
      · exact Or.inl hc
  | insertLast _ hno => exact Or.inl (isOpening_of_not_significant hno c hc)
  | insertBelow _ hstyle hstop _ =>
      rcases mem_head?_line hstop hc with hc | hc
      · exact restyled_head? hstyle c hc
      · exact Or.inl hc

theorem not_isOpening_mark : ¬ IsOpening '\uFEFF' := by
  rw [IsOpening]
  decide

/-! ## The layout of a file -/

/-- A file in another layout, with or without a mark in front. -/
theorem agrees_of_relaid {content edited : String} {body : List Char}
    (hmark : content.toList.head? ≠ some '\uFEFF') (h : Relaid content.toList body)
    (hfront : Text.Fronted body edited.toList) : Reading.Agrees (read content) (read edited) := by
  have hbody : body.head? ≠ some '\uFEFF' := fun hhead =>
    (h.head? _ hhead).elim not_isOpening_mark hmark
  rw [read_eq, read_eq, hfront.unmarked_eq hbody, Text.unmarked, if_neg hmark]
  exact h.agrees 1 1 none

/-- A file with other line ends, with or without a mark in front. -/
theorem read_of_returned {content edited : String} {body : List Char}
    (hmark : content.toList.head? ≠ some '\uFEFF') (hreturn : '\r' ∉ content.toList)
    (h : Text.Returned content.toList body) (hfront : Text.Fronted body edited.toList) :
    read edited = read content := by
  have hbody : body.head? ≠ some '\uFEFF' := fun hhead =>
    (h.head? _ hhead).elim (by decide) hmark
  rw [read, read, Text.withoutMark_eq_unmarked, Text.withoutMark_eq_unmarked,
    hfront.unmarked_eq hbody, Text.unmarked, if_neg hmark, h.lines_eq hreturn]

/-- **THE LAYOUT OF A FILE** is not seen in its plan.  Blanks, comments, the choice between the
    separators and between the line ends, and a mark of byte order leave the same plan, or an error
    of the same kind; the line ends and the mark alone leave the same error and tell the same. -/
theorem layout_is_invisible (content edited : String)
    (hmark : content.toList.head? ≠ some '\uFEFF') (hreturn : '\r' ∉ content.toList) :
    (∀ body, Relaid content.toList body → Text.Fronted body edited.toList →
      (∀ plan, (read content).plan = .ok plan ↔ (read edited).plan = .ok plan) ∧
      ∀ e, (read content).plan = .error e →
        ∃ e', (read edited).plan = .error e' ∧ e.SameKind e') ∧
    ∀ body, Text.Returned content.toList body → Text.Fronted body edited.toList →
      (read edited).plan = (read content).plan ∧ (read edited).events = (read content).events := by
  refine ⟨fun body hrelaid hfront => ?_, fun body hreturned hfront => ?_⟩
  · have hagrees := agrees_of_relaid hmark hrelaid hfront
    exact ⟨hagrees.plan_eq_ok_iff, fun e => hagrees.exists_plan_eq_error⟩
  · rw [read_of_returned hmark hreturn hreturned hfront]
    exact ⟨rfl, rfl⟩

/-- A comment and an empty line more, the other separator with blanks around it, and a mark in
    front; and the same file with nothing but a mark and another line end. -/
theorem layout_is_invisible_in_stack :
    let content := "a->b\nc=>^"
    let edited := "\uFEFF# s\r\na =>\tb\r\n\nc->^"
    let returned := "\uFEFFa->b\r\nc=>^"
    content.toList.head? ≠ some '\uFEFF' ∧ '\r' ∉ content.toList ∧
      (read edited).plan = .ok [⟨"a", "b"⟩, ⟨"c", "a"⟩] ∧
      (read returned).plan = (read content).plan ∧
      (read returned).events = (read content).events := by
  intro content edited returned
  have hmark : content.toList.head? ≠ some '\uFEFF' := by decide
  have hreturn : '\r' ∉ content.toList := by decide
  have hcontent : content.toList = ['a', '-', '>', 'b', '\n', 'c', '=', '>', '^'] := by decide
  have hempty := Rule.padding_nil
  have hspace : Rule.Padding [' '] := Rule.padding_singleton rfl (by decide)
  have htab : Rule.Padding ['\t'] := Rule.padding_singleton rfl (by decide)
  have hcut : Text.CutsAtFirst Rule.separators ['a', '-', '>', 'b'] ['a'] ['b'] :=
    (Text.cut_eq_some_iff Rule.separators_uniform).mp (by decide)
  have hcut' : Text.CutsAtFirst Rule.separators ['c', '=', '>', '^'] ['c'] ['^'] :=
    (Text.cut_eq_some_iff Rule.separators_uniform).mp (by decide)
  have hupper : Rule.Restyled ['a', '-', '>', 'b'] ['a', ' ', '=', '>', '\t', 'b'] :=
    .separated hcut (List.mem_cons_of_mem _ (List.mem_singleton_self _)) hempty hspace htab hempty
  have hlower : Rule.Restyled ['c', '=', '>', '^'] ['c', '-', '>', '^'] :=
    .separated hcut' (List.mem_cons_self ..) hempty hempty hempty hempty
  have hrest : Relaid ['c', '=', '>', '^'] ([] ++ ['\n'] ++ ['c', '-', '>', '^']) :=
    .insert (by decide) (by unfold Significant; decide) (by decide) (.last (by decide) hlower)
  have hrules : Relaid (['a', '-', '>', 'b'] ++ '\n' :: ['c', '=', '>', '^'])
      (['a', ' ', '=', '>', '\t', 'b'] ++ ['\r', '\n'] ++ ['\n', 'c', '-', '>', '^']) :=
    .line (by decide) hupper (by decide) hrest
  have hrelaid : Relaid content.toList (['#', ' ', 's'] ++ ['\r', '\n'] ++
      ['a', ' ', '=', '>', '\t', 'b', '\r', '\n', '\n', 'c', '-', '>', '^']) := by
    rw [hcontent]
    exact .insert (by decide) (by unfold Significant; decide) (by decide) hrules
  have hreturned : Text.Returned content.toList
      ['a', '-', '>', 'b', '\r', '\n', 'c', '=', '>', '^'] := by
    rw [hcontent]
    exact .keep 'a' <| .keep '-' <| .keep '>' <| .keep 'b' <| .feed <| .keep 'c' <| .keep '=' <|
      .keep '>' <| .keep '^' .done
  obtain ⟨hlayout, -⟩ := layout_is_invisible content edited hmark hreturn
  obtain ⟨-, hends⟩ := layout_is_invisible content returned hmark hreturn
  refine ⟨hmark, hreturn, ?_, hends _ hreturned (.inr (by decide))⟩
  exact ((hlayout _ hrelaid (.inr (by decide))).1 _).mp (by decide)

end Plan

end RebasePlan
