import RebasePlan.Proofs.GitProcesses
import RebasePlan.Proofs.ReportAccounts

/-! # A shown command tells its arguments

    The line that shows a command puts an argument between quotes if it is empty
    or holds a space, and escapes nothing.  Where no argument holds a quote, that
    is enough: behind the name the line is made of pieces that begin with a space
    and end where the next piece begins (`Command.Shows`), and a reader that
    looks at one character at a time gives the arguments back
    (`Command.Shows.read_eq`).

    So two lines that are the same show the same arguments.  In the report of a
    run, where every warning names its call by such a line, two calls whose
    references hold no quote never go by the same line. -/

namespace RebasePlan

variable {σ : Type}

/-! ## Giving arguments -/

namespace Command

/-- By induction on what is given, the arguments come behind those that are there, as text and in
    their order. -/
theorem foldl_give (c : Command) (given : List (List UInt8)) :
    given.foldl give c = { c with arguments := c.arguments ++ given.map Text.lossy } := by
  induction given generalizing c with
  | nil =>
      rw [List.map_nil, List.append_nil]
      rfl
  | cons a given ih =>
      rw [List.foldl_cons, ih, give, List.append_assoc]
      rfl

theorem take_eq (c : Command) (call : ArgumentCall) :
    c.take call = { c with arguments := c.arguments ++ call.arguments } := by
  cases call with
  | one a => rfl
  | several given => exact foldl_give c given

/-- It does not matter by which calls the arguments are given. -/
theorem takeAll_eq (c : Command) (calls : List ArgumentCall) :
    c.takeAll calls
      = { c with arguments := c.arguments ++ calls.flatMap ArgumentCall.arguments } := by
  induction calls generalizing c with
  | nil =>
      rw [List.flatMap_nil, List.append_nil]
      rfl
  | cons call calls ih =>
      show (c.take call).takeAll calls = _
      rw [ih, take_eq, List.flatMap_cons, List.append_assoc]

/-! ## The line behind the name -/

/-- Characters that show arguments: each is a space, and behind it either quotes around a text that
    is empty or holds a space, or a text that is not empty and holds no space.  No argument holds a
    quote. -/
inductive Shows : List Char → List (List Char) → Prop where
  | done : Shows [] []
  | quoted {a rest : List Char} {arguments : List (List Char)} (free : '"' ∉ a)
      (blank : a = [] ∨ ' ' ∈ a) (behind : Shows rest arguments) :
      Shows (' ' :: '"' :: (a ++ '"' :: rest)) (a :: arguments)
  | bare {a rest : List Char} {arguments : List (List Char)} (free : '"' ∉ a)
      (filled : a ≠ []) (whole : ' ' ∉ a) (behind : Shows rest arguments) :
      Shows (' ' :: (a ++ rest)) (a :: arguments)

/-- No argument of the command holds a quote. -/
def QuoteFree (c : Command) : Prop := ∀ a ∈ c.arguments, '"' ∉ a.toList

theorem intercalate_space_cons (name : List Char) (pieces : List (List Char)) :
    [' '].intercalate (name :: pieces) = name ++ pieces.flatMap (' ' :: ·) := by
  induction pieces generalizing name with
  | nil => rw [List.intercalate_singleton, List.flatMap_nil, List.append_nil]
  | cons piece pieces ih =>
      rw [List.intercalate_cons_cons, ih, List.flatMap_cons]
      simp

theorem toList_text (c : Command) :
    c.text.toList
      = c.shownName.toList ++ c.arguments.flatMap fun a => ' ' :: (shownArgument a).toList := by
  show (" ".intercalate (c.shownName :: c.arguments.map shownArgument)).toList = _
  rw [String.toList_intercalate, List.map_cons, List.map_map]
  show [' '].intercalate (_ :: _) = _
  rw [intercalate_space_cons, List.flatMap_map]
  rfl

/-- Arguments without a quote are shown in such a line. -/
theorem shows_arguments {arguments : List String} (h : ∀ a ∈ arguments, '"' ∉ a.toList) :
    Shows (arguments.flatMap fun a => ' ' :: (shownArgument a).toList)
      (arguments.map String.toList) := by
  induction arguments with
  | nil => exact .done
  | cons a arguments ih =>
      obtain ⟨hfree, hrest⟩ := List.forall_mem_cons.mp h
      rw [List.flatMap_cons, List.map_cons]
      by_cases hquoted : (a.isEmpty || a.toList.contains ' ') = true
      · have hshown : (shownArgument a).toList = '"' :: (a.toList ++ ['"']) := by
          rw [shownArgument, if_pos hquoted]
          simp
        have hblank : a.toList = [] ∨ ' ' ∈ a.toList := by
          rw [Bool.or_eq_true, String.isEmpty_iff, List.contains_iff_mem] at hquoted
          exact hquoted.imp_left String.toList_eq_nil_iff.mpr
        rw [hshown]
        simpa using Shows.quoted hfree hblank (ih hrest)
      · have hshown : shownArgument a = a := by rw [shownArgument, if_neg hquoted]
        rw [Bool.or_eq_true, String.isEmpty_iff, List.contains_iff_mem, not_or] at hquoted
        have hfilled : a.toList ≠ [] := fun hnil => hquoted.1 (String.toList_eq_nil_iff.mp hnil)
        rw [hshown]
        exact .bare hfree hfilled hquoted.2 (ih hrest)

/-! ## Reading it back -/

/-- Where a reader of arguments stands: behind an argument, behind the space of the next one, or
    inside of an argument without or with quotes. -/
inductive ReaderPlace where
  | between
  | opened
  | bare
  | quoted

/-- The arguments that characters show.  Inside of an argument, the first of them is what is left of
    this one. -/
def read : ReaderPlace → List Char → Option (List (List Char))
  | .between, [] => some []
  | .between, c :: cs => if c = ' ' then read .opened cs else none
  | .opened, [] => none
  | .opened, c :: cs =>
    if c = '"' then read .quoted cs
    else if c = ' ' then none
    else (read .bare cs).map (List.modifyHead (c :: ·))
  | .bare, [] => some [[]]
  | .bare, c :: cs =>
    if c = ' ' then (read .opened cs).map ([] :: ·)
    else (read .bare cs).map (List.modifyHead (c :: ·))
  | .quoted, [] => none
  | .quoted, c :: cs =>
    if c = '"' then (read .between cs).map ([] :: ·)
    else (read .quoted cs).map (List.modifyHead (c :: ·))

/-- The arguments that a line shows behind a name. -/
def argumentsBehind (name line : String) : Option (List String) :=
  (read .between (line.toList.drop name.toList.length)).map (List.map String.ofList)

/-- A reader inside of quotes goes on to the next quote. -/
theorem read_quoted {a : List Char} (free : '"' ∉ a) (rest : List Char) :
    read .quoted (a ++ '"' :: rest) = (read .between rest).map (a :: ·) := by
  induction a with
  | nil =>
      rw [List.nil_append, read, if_pos rfl]
  | cons c a ih =>
      have hc : c ≠ '"' := (List.ne_of_not_mem_cons free).symm
      rw [List.cons_append, read, if_neg hc, ih (List.not_mem_of_not_mem_cons free),
        Option.map_map]
      rfl

/-- An argument without quotes ends where the next begins, or with the line. -/
theorem read_bare_end {rest : List Char} {arguments : List (List Char)}
    (h : read .between rest = some arguments) : read .bare rest = some ([] :: arguments) := by
  cases rest with
  | nil =>
      obtain rfl := Option.some.inj h
      rfl
  | cons c rest =>
      rw [read] at h
      by_cases hc : c = ' '
      · rw [if_pos hc] at h
        rw [read, if_pos hc, h]
        rfl
      · rw [if_neg hc] at h
        exact nomatch h

theorem read_bare {a rest : List Char} {arguments : List (List Char)} (whole : ' ' ∉ a)
    (h : read .between rest = some arguments) :
    read .bare (a ++ rest) = some (a :: arguments) := by
  induction a with
  | nil => exact read_bare_end h
  | cons c a ih =>
      have hc : c ≠ ' ' := (List.ne_of_not_mem_cons whole).symm
      rw [List.cons_append, read, if_neg hc, ih (List.not_mem_of_not_mem_cons whole)]
      rfl

/-- **WHAT IS SHOWN IS READ BACK**, so characters show one list of arguments at most. -/
theorem Shows.read_eq {cs : List Char} {arguments : List (List Char)} (h : Shows cs arguments) :
    read .between cs = some arguments := by
  induction h with
  | done => rfl
  | quoted free _ _ ih =>
      rw [read, if_pos rfl, read, if_pos rfl, read_quoted free, ih]
      rfl
  | @bare a rest arguments free filled whole _ ih =>
      cases a with
      | nil => exact absurd rfl filled
      | cons c a =>
          -- neither a quote nor a space: the argument begins with this character
          have hquote : c ≠ '"' := (List.ne_of_not_mem_cons free).symm
          have hspace : c ≠ ' ' := (List.ne_of_not_mem_cons whole).symm
          rw [read, if_pos rfl, List.cons_append, read, if_neg hquote, if_neg hspace,
            read_bare (List.not_mem_of_not_mem_cons whole) ih]
          rfl

/-- The line of a command without quotes in its arguments: its name, and what shows them. -/
theorem QuoteFree.shows {c : Command} (h : c.QuoteFree) :
    ∃ rest, c.text.toList = c.shownName.toList ++ rest ∧
      Shows rest (c.arguments.map String.toList) :=
  ⟨_, toList_text c, shows_arguments h⟩

/-- The arguments of a command can be read off its line, if none of them holds a quote. -/
theorem QuoteFree.argumentsBehind_text {c : Command} (h : c.QuoteFree) :
    argumentsBehind c.shownName c.text = some c.arguments := by
  obtain ⟨rest, hline, hshows⟩ := h.shows
  rw [argumentsBehind, hline, List.drop_left, hshows.read_eq, Option.map_some, List.map_map]
  have hsame : String.ofList ∘ String.toList = id := funext fun _ => String.ofList_toList
  rw [hsame, List.map_id]

/-- **EQUAL LINES SHOW EQUAL ARGUMENTS**, if they begin with the same name and no argument holds a
    quote. -/
theorem QuoteFree.arguments_eq {c d : Command} (hc : c.QuoteFree) (hd : d.QuoteFree)
    (hname : c.shownName = d.shownName) (htext : c.text = d.text) : c.arguments = d.arguments := by
  have hread := hc.argumentsBehind_text
  rw [hname, htext, hd.argumentsBehind_text] at hread
  exact (Option.some.inj hread).symm

/-- With quotes this fails: one argument with a space looks like two that hold a quote each. -/
example : text { program := ⟨[]⟩, arguments := ["a b"] }
    = text { program := ⟨[]⟩, arguments := ["\"a", "b\""] } := by decide

end Command

/-! ## The calls of a run -/

namespace Call

/-- The call's reference holds no quote. -/
def QuoteFree (c : Call) : Prop := ∀ r ∈ c.reference?, '"' ∉ r.toList

/-- A call is known by its arguments. -/
theorem arguments_injective : Function.Injective arguments := by
  intro c d h
  cases c <;> cases d <;> simp_all [arguments]

/-- A call whose reference holds no quote makes such a command. -/
theorem QuoteFree.command {c : Call} (h : c.QuoteFree) (program : Path)
    (repository : Option Path) : (Git.command program repository c).QuoteFree := by
  intro a ha hquote
  obtain ⟨r, hr, hin⟩ :=
    (exists_argument_iff (P := fun a => '"' ∈ a.toList) (by decide) c).mp ⟨a, ha, hquote⟩
  exact h r hr hin

end Call

namespace Git

variable {computer : Computer} {programs : Programs σ} {program : Path}
  {repository : Option Path}

/-- A call without a quote is told by the line of its command. -/
theorem call_eq_of_text_eq {c d : Call} (hc : c.QuoteFree) (hd : d.QuoteFree)
    (h : (command program repository c).text = (command program repository d).text) : c = d :=
  Call.arguments_injective
    ((hc.command program repository).arguments_eq (hd.command program repository) rfl h)

/-- A warning of a run names its call by the line of the call's command. -/
theorem command_of_warning (confirmed : Bool) (plan : Plan) (s : Capture × σ) :
    ∀ e ∈ (Run.execute (backend computer programs program repository) confirmed plan s).1.exchanges,
      ∀ w ∈ e.reply.warning?, w.command = (command program repository e.call).text := by
  intro e he w hw
  cases confirmed with
  | false => exact nomatch he
  | true =>
      have hreply := Session.forall_exchange (b := backend computer programs program repository)
        (P := fun e => e.reply.command = (command program repository e.call).text)
        (fun c s => rfl) plan s
      rw [← hreply e he]
      rw [Reply.warning?_eq] at hw
      split at hw
      · rw [← Option.some.inj hw]
        rfl
      · exact nomatch hw

/-- **A SHOWN COMMAND TELLS ITS ARGUMENTS**, however they were given, if none of them holds a quote:
    its line can be read back, and two lines with the same name are the same only for the same
    arguments.  So no two calls of a run without quotes in their references go by the same line in
    the warnings of its report. -/
theorem shown_commands_tell_calls (computer : Computer) (programs : Programs σ) (program : Path)
    (repository : Option Path) (confirmed : Bool) (plan : Plan) (s : Capture × σ) :
    let ran := Run.execute (backend computer programs program repository) confirmed plan s
    (∀ (c : Command) (calls : List ArgumentCall), (c.takeAll calls).QuoteFree →
      (∃ rest, (c.takeAll calls).text.toList = c.shownName.toList ++ rest ∧
        Command.Shows rest ((c.takeAll calls).arguments.map String.toList)) ∧
      Command.argumentsBehind c.shownName (c.takeAll calls).text
        = some (c.arguments ++ calls.flatMap ArgumentCall.arguments)) ∧
    (∀ (c d : Command) (calls calls' : List ArgumentCall), c.shownName = d.shownName →
      (c.takeAll calls).QuoteFree → (d.takeAll calls').QuoteFree →
      (c.takeAll calls).text = (d.takeAll calls').text →
      c.arguments ++ calls.flatMap ArgumentCall.arguments
        = d.arguments ++ calls'.flatMap ArgumentCall.arguments) ∧
    ran.1.report.warnings = ran.1.exchanges.filterMap (fun e => e.reply.warning?) ∧
    ∀ e ∈ ran.1.exchanges, ∀ e' ∈ ran.1.exchanges, e.call.QuoteFree → e'.call.QuoteFree →
      ∀ w ∈ e.reply.warning?, ∀ w' ∈ e'.reply.warning?, w.command = w'.command →
        e.call = e'.call := by
  intro ran
  refine ⟨?_, ?_, ?_, ?_⟩
  · intro c calls hfree
    have hread := hfree.argumentsBehind_text
    have hshows := hfree.shows
    rw [Command.takeAll_eq] at hshows hread ⊢
    exact ⟨hshows, hread⟩
  · intro c d calls calls' hname hc hd htext
    rw [Command.takeAll_eq] at hc hd htext
    rw [Command.takeAll_eq] at htext
    exact hc.arguments_eq hd hname htext
  · cases confirmed <;> rfl
  · intro e he e' he' hfree hfree' w hw w' hw' hsame
    rw [command_of_warning confirmed plan s e he w hw,
      command_of_warning confirmed plan s e' he' w' hw'] at hsame
    exact call_eq_of_text_eq hfree hfree' hsame

/-- A run in which nothing can be started: its warnings show every call, and whatever is shown as
    the checkout of a branch with a space in its name is just this checkout. -/
theorem shown_commands_tell_calls_unstarted :
    let plan : Plan := [⟨"a b", "c"⟩, ⟨"a", "b c"⟩]
    let ran := Run.execute (backend ⟨Disk.ofList [], [], []⟩ Programs.scripted
      (Path.ofString "/git") none) true plan ({}, [])
    ran.1.report.warnings.map Warning.command = ["git status -sb", "git show --pretty=oneline HEAD",
        "git checkout \"a b\"", "git rebase c", "git checkout a", "git rebase \"b c\"",
        "git checkout \"\""] ∧
      ∀ e ∈ ran.1.exchanges, e.call.QuoteFree → ∀ w ∈ e.reply.warning?,
        w.command = "git checkout \"a b\"" → e.call = .checkout "a b" := by
  intro plan ran
  refine ⟨rfl, ?_⟩
  intro e he hfree w hw hcommand
  have htell := (shown_commands_tell_calls ⟨Disk.ofList [], [], []⟩ Programs.scripted
    (Path.ofString "/git") none true plan ({}, [])).2.2.2
  obtain ⟨e', he', hcall, w', hw', hcommand'⟩ : ∃ e' ∈ ran.1.exchanges, e'.call = .checkout "a b" ∧
      ∃ w' ∈ e'.reply.warning?, w'.command = "git checkout \"a b\"" :=
    ⟨_, List.mem_cons_of_mem _ (List.mem_cons_of_mem _ List.mem_cons_self), rfl, _, rfl, rfl⟩
  have hfree' : e'.call.QuoteFree := by
    rw [hcall]
    rintro r hr
    obtain rfl := Option.some.inj hr
    decide
  rw [htell e he e' he' hfree hfree' w hw w' hw' (hcommand.trans hcommand'.symm), hcall]

end Git

end RebasePlan
