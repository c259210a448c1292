import RebasePlan.Error
import RebasePlan.Text.Parts

/-!
# Calls to the version-control program and what comes of them

A run makes four kinds of call. Each is answered by a reply: the command as it was made, and either
the output of a finished process or the reason why there is none. A reply gives rise to a warning
if the call did not run, failed, or wrote to its error output.
-/

namespace RebasePlan

/-- What a run asks of the version-control program. -/
inductive Call where
  /-- The short status with its branch header. -/
  | status
  /-- The head commit on one line. -/
  | showHead
  /-- Check out a branch or commit. -/
  | checkout (reference : String)
  /-- Rebase what is checked out onto a new base. -/
  | rebase (base : String)
  deriving DecidableEq, Repr

/-- The arguments of the program for a call. A reference is one argument, whatever it holds. -/
def Call.arguments : Call → List String
  | status => ["status", "-sb"]
  | showHead => ["show", "--pretty=oneline", "HEAD"]
  | checkout reference => ["checkout", reference]
  | rebase base => ["rebase", base]

/-- A call in words. -/
def Call.text (c : Call) : String := " ".intercalate c.arguments

/-- What a finished process leaves behind. -/
structure Output where
  /-- The exit code, -1 for a process that was killed. -/
  exitCode : Int := 0
  stdout : String := ""
  stderr : String := ""
  deriving DecidableEq, Repr

/-- Whether the process ended with code 0. -/
def Output.succeeded (o : Output) : Bool := o.exitCode == 0

/-- The output of a process, or why there is none. -/
abbrev Outcome := Except LaunchError Output

/-- A problem that a call left behind. -/
structure Warning where
  command : String
  /-- The exit code; none if the process did not run to its end. -/
  exitCode : Option Int
  /-- What the process said, trimmed, or why it did not run. -/
  text : String
  deriving DecidableEq, Repr

/-- Whether the call itself failed; anything else is chatter. -/
def Warning.isFailure (w : Warning) : Bool := w.exitCode != some 0

/-- The printed form of a warning. -/
def Warning.message (w : Warning) : String :=
  match w.exitCode with
  | none => s!"{w.command}: did not run: {w.text}"
  | some code =>
    if w.text.isEmpty then s!"{w.command}: exited with code {code}"
    else if code = 0 then s!"{w.command}: {w.text}"
    else s!"{w.command}: exited with code {code}: {w.text}"

/-- What comes back from a call. -/
structure Reply where
  /-- The command as it was made. -/
  command : String
  outcome : Outcome

namespace Reply

/-- The output, if the process ran to its end. -/
def output? (r : Reply) : Option Output := r.outcome.toOption

/-- What a process that ended with code 0 printed. -/
def successText? (r : Reply) : Option String :=
  match r.outcome with
  | .ok output => if output.succeeded then some output.stdout else none
  | .error _ => none

/-- The warning that a reply gives rise to. -/
def warning? (r : Reply) : Option Warning :=
  match r.outcome with
  | .error (.badExit _ code) => some ⟨r.command, some code, ""⟩
  | .error e => some ⟨r.command, none, e.message⟩
  | .ok output =>
    let text := trimmed output.stderr
    if output.succeeded && text.isEmpty then none
    else some ⟨r.command, some output.exitCode, text⟩

end Reply

end RebasePlan
