import RebasePlan.CommandLine.Switch
import RebasePlan.Text.Parts

/-!
# Help

The short help lists the switches with a line or two each, in two columns; the long one gives each a
paragraph, and says more about the program.
-/

namespace RebasePlan.Help

/-- What a switch is for. -/
def about : Switch → String
  | .settings => "Additional TOML settings file(s). Can be specified multiple times"
  | .git => "Path to the git executable. Looked up in PATH if not given"
  | .repo => "Runs git in DIR instead of the current directory"
  | .logLevel =>
    "Console log level (0=silent, 1=errors, 2=warnings, 3=info, 4=debug, 5=trace)"
  | .fileLogLevel => "File log level, overrides --log-level for the log file"
  | .logFile => "Path to log file"
  | .conf => "Rule file to execute"
  | .doit => "Executes the rules. Without this flag only the plan is shown"
  | .version => "Prints the version and exits"
  | .help => "Print help"

/-- What each help says of the other one. -/
def otherHelp (long : Bool) : String :=
  if long then " (see a summary with '-h')" else " (see more with '--help')"

/-- What a switch is for, in the short or the long help. -/
def aboutIn (long : Bool) (s : Switch) : String :=
  about s ++ if s = .help then otherHelp long else ""

/-- A switch with its letter, as the help lists it. -/
def heading (s : Switch) : String :=
  match s.letter? with
  | some c => s!"  -{c}, {s.text}"
  | none => s!"      {s.text}"

/-- The width of the help. -/
def width : Nat := 100

/-- Puts words on lines of at most `room` characters; `line` is the line begun so far. -/
def fill (room : Nat) (line : String) : List String → List String
  | [] => [line]
  | word :: words =>
    if line.length + 1 + word.length ≤ room then fill room (line ++ " " ++ word) words
    else line :: fill room word words

/-- A text on lines of at most `room` characters. -/
def wrap (room : Nat) (s : String) : List String :=
  match (Text.split (· == ' ') s.toList).map String.ofList with
  | [] => []
  | word :: words => fill room word words

/-- The spaces between the columns of the short help, and in front of a paragraph of the long
    one. -/
def gap : Nat := 2
/-- How far the paragraphs of the long help are indented. -/
def indent : Nat := 10

/-- Some spaces. -/
def spaces (n : Nat) : String := String.ofList (List.replicate n ' ')

/-- The lines of a switch in the short help. -/
def shortLines (column : Nat) (s : Switch) : List String :=
  match wrap (width - column) (aboutIn false s) with
  | [] => []
  | first :: rest => (Settings.pad column (heading s) ++ first) :: rest.map (spaces column ++ ·)

/-- The list of switches in the short help. -/
def shortList : List String :=
  let column := (((Switch.all.map fun s => (heading s).length).max?).getD 0) + gap
  Switch.all.flatMap (shortLines column)

/-- The list of switches in the long help. -/
def longList : List String :=
  ["\n\n".intercalate (Switch.all.map fun s =>
    heading s ++ "\n" ++ spaces indent ++ aboutIn true s)]

/-- What the program is, in a line. -/
def summary : String := "Rebase chains of git branches from a rule file"

/-- What the program is, at length. -/
def description : List String := [
  "git-rebase-rules Copyright (C) 2026 Romeo Ahmed",
  "This program comes with ABSOLUTELY NO WARRANTY",
  "This is free software, and you are welcome to redistribute it",
  "under certain conditions; see LICENSE for details.",
  "",
  "Reads a rule file of `<branch> -> <new base>` lines and runs",
  "`git checkout <branch>` followed by `git rebase <new base>` for",
  "each of them, then checks out the branch you started on.",
  "Nothing is executed unless --doit is given."]

/-- How the program is called. -/
def usage : String := "Usage: git-rebase-rules [OPTIONS]"

/-- What a rule file looks like. -/
def ruleFiles : List String := [
  "RULE FILES:",
  "",
  "One rule per line, `->` and `=>` are interchangeable:",
  "",
  "    # comments and blank lines are ignored",
  "    branch-D -> branch-A",
  "    branch-E => ^",
  "",
  "`^` as the new base stands for the branch of the rule above,",
  "so a stack of branches can be rebased with one file."]

/-- The short or the long help. -/
def text (long : Bool) : String :=
  let lines := (if long then description else [summary]) ++ ["", usage, "", "Options:"] ++
    (if long then longList else shortList) ++ [""] ++ ruleFiles
  "\n".intercalate lines ++ "\n"

end RebasePlan.Help
