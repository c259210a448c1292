import RebasePlan.Text.Parts

/-! # Lines are the pieces between line feeds

    `Text.lines` takes a text apart in one scan.  Here the same lines are said
    without a scan: cut at every line feed, drop a carriage return that stands
    directly before a line feed, and drop the last piece if it is empty
    (`lines_eq_linesAtFeeds`).  Both go from one line feed to the next, and
    `feed_induction` is the induction that follows them. -/

namespace RebasePlan.Text

/-- A piece that a line feed ends, without the carriage return that belongs to the line end. -/
def dropReturn (piece : List Char) : List Char :=
  if piece.getLast? = some '\r' then piece.dropLast else piece

/-- The lines of a text: its pieces between line feeds.  All but the last are ended by a line feed;
    the last one is a line only if there is something in it. -/
def linesAtFeeds (cs : List Char) : List (List Char) :=
  let pieces := cs.splitOn '\n'
  pieces.dropLast.map dropReturn ++ pieces.getLast?.toList.filter (· ≠ [])

/-- A text has no line feed, or it begins with a piece that its first line feed ends. -/
theorem feed_induction {motive : List Char → Prop} (last : ∀ cs, '\n' ∉ cs → motive cs)
    (feed : ∀ piece rest, '\n' ∉ piece → motive rest → motive (piece ++ '\n' :: rest))
    (cs : List Char) : motive cs := by
  by_cases h : '\n' ∈ cs
  · obtain ⟨piece, rest, hcs, hpiece⟩ := List.eq_append_cons_of_mem h
    rw [hcs]
    exact feed piece rest hpiece (feed_induction last feed rest)
  · exact last cs h
termination_by cs.length
decreasing_by
  rw [hcs, List.length_append, List.length_cons]
  omega

theorem dropReturn_of_getLast?_ne {piece : List Char} (h : piece.getLast? ≠ some '\r') :
    dropReturn piece = piece :=
  if_neg h

theorem dropReturn_cons (c : Char) {piece : List Char} (h : piece ≠ []) :
    dropReturn (c :: piece) = c :: dropReturn piece := by
  obtain ⟨d, ds, rfl⟩ := List.exists_cons_of_ne_nil h
  rw [dropReturn, dropReturn, List.getLast?_cons_cons, List.dropLast_cons_of_ne_nil h]
  split <;> rfl

/-! ## The scan, from one line feed to the next -/

/-- A character that ends no line belongs to the first one. -/
theorem lines_cons {c : Char} {cs : List Char} (hc : c ≠ '\n')
    (hr : c = '\r' → cs.head? ≠ some '\n') :
    lines (c :: cs) = match lines cs with
      | [] => [[c]]
      | line :: rest => (c :: line) :: rest := by
  rw [lines.eq_def]
  split
  · next h => exact nomatch h
  · next h => exact absurd (List.cons.inj h).1 hc
  · next rest h =>
    obtain ⟨hcr, hcs⟩ := List.cons.inj h
    refine absurd ?_ (hr hcr)
    rw [hcs]
    rfl
  · next h =>
    obtain ⟨rfl, rfl⟩ := List.cons.inj h
    rfl

/-- **A line feed ends the first line.** -/
theorem lines_append_feed {piece : List Char} (h : '\n' ∉ piece) (rest : List Char) :
    lines (piece ++ '\n' :: rest) = dropReturn piece :: lines rest := by
  -- the scan looks one character ahead, so the last character of the piece is a case of its own
  induction piece with
  | nil => rfl
  | cons c piece ih =>
      have hc : c ≠ '\n' := fun hc => h (hc ▸ List.mem_cons_self ..)
      have hpiece : '\n' ∉ piece := fun hm => h (List.mem_cons_of_mem _ hm)
      cases piece with
      | nil =>
          by_cases hr : c = '\r'
          · rw [hr]
            rfl
          · have hlast : dropReturn [c] = [c] := by
              refine dropReturn_of_getLast?_ne fun hl => hr ?_
              exact Option.some.inj hl
            rw [List.cons_append, List.nil_append, lines_cons hc (fun hcr => absurd hcr hr), hlast]
            rfl
      | cons d ds =>
          have hd : (d :: ds ++ '\n' :: rest).head? ≠ some '\n' := by
            intro hh
            have hdn : d = '\n' := Option.some.inj hh
            exact hpiece (hdn ▸ List.mem_cons_self ..)
          rw [List.cons_append, lines_cons hc (fun _ => hd), ih hpiece,
            dropReturn_cons c (List.cons_ne_nil d ds)]

/-- A text without a line feed is one line, unless it is empty. -/
theorem lines_of_not_mem {cs : List Char} (h : '\n' ∉ cs) :
    lines cs = [cs].filter (· ≠ []) := by
  induction cs with
  | nil => rfl
  | cons c cs ih =>
      have hc : c ≠ '\n' := fun hc => h (hc ▸ List.mem_cons_self ..)
      have hcs : '\n' ∉ cs := fun hm => h (List.mem_cons_of_mem _ hm)
      have hd : cs.head? ≠ some '\n' := fun hh => hcs (List.mem_of_mem_head? hh)
      rw [lines_cons hc (fun _ => hd), ih hcs]
      cases cs with
      | nil => rfl
      | cons d ds => rfl

/-! ## The pieces, from one line feed to the next -/

/-- A piece in front of a line feed is a line, less its carriage return. -/
theorem linesAtFeeds_append_feed {piece : List Char} (h : '\n' ∉ piece) (rest : List Char) :
    linesAtFeeds (piece ++ '\n' :: rest) = dropReturn piece :: linesAtFeeds rest := by
  obtain ⟨first, others, hs⟩ := List.exists_cons_of_ne_nil (List.splitOn_ne_nil '\n' rest)
  have hpieces : (piece ++ '\n' :: rest).splitOn '\n' = piece :: first :: others := by
    rw [List.splitOn_append_cons_self_of_not_mem h, hs]
  simp only [linesAtFeeds, hpieces, hs]
  rw [List.dropLast_cons_of_ne_nil (List.cons_ne_nil first others), List.getLast?_cons_cons]
  rfl

/-- Without a line feed there is one line, or none if the text is empty. -/
theorem linesAtFeeds_of_not_mem {cs : List Char} (h : '\n' ∉ cs) :
    linesAtFeeds cs = [cs].filter (· ≠ []) := by
  rw [linesAtFeeds, List.splitOn_eq_singleton h]
  rfl

/-- **LINES ARE PIECES**: the scan finds just the pieces between line feeds. -/
theorem lines_eq_linesAtFeeds (cs : List Char) : lines cs = linesAtFeeds cs := by
  induction cs using feed_induction with
  | last cs h => rw [lines_of_not_mem h, linesAtFeeds_of_not_mem h]
  | feed piece rest h ih => rw [lines_append_feed h, linesAtFeeds_append_feed h, ih]

/-! ## What lines hold, and lines put together again -/

theorem mem_of_mem_dropReturn {c : Char} {piece : List Char} (h : c ∈ dropReturn piece) :
    c ∈ piece := by
  rw [dropReturn] at h
  split at h
  · exact (List.dropLast_sublist piece).mem h
  · exact h

/-- No line holds a line feed. -/
theorem feed_not_mem_of_mem_lines {cs line : List Char} (h : line ∈ lines cs) : '\n' ∉ line := by
  induction cs using feed_induction with
  | last cs hcs =>
      rw [lines_of_not_mem hcs] at h
      rw [List.mem_singleton.mp (List.mem_filter.mp h).1]
      exact hcs
  | feed piece rest hpiece ih =>
      rw [lines_append_feed hpiece] at h
      rcases List.mem_cons.mp h with hline | hrest
      · rw [hline]
        exact fun hm => hpiece (mem_of_mem_dropReturn hm)
      · exact ih hrest

/-- A text that can stand on a line of its own and comes back as it is. -/
structure IsLine (line : List Char) : Prop where
  ne_nil : line ≠ []
  noFeed : '\n' ∉ line
  noReturn : line.getLast? ≠ some '\r'

/-- Lines joined by line feeds are found again. -/
theorem lines_intercalate {pieces : List (List Char)} (h : ∀ piece ∈ pieces, IsLine piece) :
    lines (['\n'].intercalate pieces) = pieces := by
  induction pieces with
  | nil => rfl
  | cons piece pieces ih =>
      have hpiece := h piece (List.mem_cons_self ..)
      have hpieces : ∀ p ∈ pieces, IsLine p := fun p hp => h p (List.mem_cons_of_mem _ hp)
      cases pieces with
      | nil =>
          rw [List.intercalate_singleton, lines_of_not_mem hpiece.noFeed]
          simp [hpiece.ne_nil]
      | cons next rest =>
          rw [List.intercalate_cons_cons, List.append_assoc, List.singleton_append,
            lines_append_feed hpiece.noFeed, dropReturn_of_getLast?_ne hpiece.noReturn, ih hpieces]

end RebasePlan.Text
