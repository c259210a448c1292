import RebasePlan.Event
import RebasePlan.Process.Computer

/-!
# Running commands

The error output of all commands of a run goes to one file, one command at a time. The file has a
content and one offset, which the program shares with the command that writes to it.

What programs do when they are started is left open: they may keep a state of any kind. A run of a
command starts its program, lets it write its error output to the capture file, and turns what it
leaves behind into an outcome.
-/

namespace RebasePlan

/-! ## The capture file -/

/-- A file that is open for reading and writing. -/
structure Capture where
  content : List UInt8 := []
  /-- Where the next byte is read or written. -/
  offset : Nat := 0
  deriving DecidableEq, Repr

namespace Capture

/-- The file with its content cut off, or filled up with zeros, at a length. -/
def truncate (c : Capture) (length : Nat) : Capture where
  content := c.content.take length ++ List.replicate (length - c.content.length) 0
  offset := c.offset

/-- The file with its offset at the beginning. -/
def rewind (c : Capture) : Capture := { c with offset := 0 }

/-- The file after bytes were written at the offset. A gap in front of the offset is filled with
    zeros. -/
def write (c : Capture) (bytes : List UInt8) : Capture :=
  if bytes.isEmpty then c
  else
    { content :=
        c.content.take c.offset ++ List.replicate (c.offset - c.content.length) 0 ++ bytes ++
          c.content.drop (c.offset + bytes.length)
      offset := c.offset + bytes.length }

/-- What stands in the file from the offset on, and the file with its offset at the end. -/
def readToEnd (c : Capture) : List UInt8 × Capture :=
  (c.content.drop c.offset, { c with offset := max c.offset c.content.length })

/-- The file ready for the next command. -/
def prepare (c : Capture) : Capture := (c.truncate 0).rewind

/-- All that stands in the file. -/
def readBack (c : Capture) : List UInt8 × Capture := c.rewind.readToEnd

end Capture

/-! ## Programs -/

/-- How a program ends. -/
inductive Ending where
  | exited (code : Nat)
  | killed
  deriving DecidableEq, Repr

/-- The exit code that an ending is reported as. -/
def Ending.code : Ending → Int
  | exited code => code
  | killed => -1

/-- What a program does from its start to its end. -/
structure Performance where
  ending : Ending
  stdout : List UInt8
  stderr : List UInt8
  deriving DecidableEq, Repr

/-- What programs do, with a state of their own. -/
structure Programs (σ : Type) where
  perform : Launch → σ → Performance × σ

/-- The same programs, with a record of what was started. -/
def Programs.recorded {σ : Type} (p : Programs σ) : Programs (σ × List Launch) where
  perform launch := fun (s, launches) =>
    let (performance, s) := p.perform launch s
    (performance, (s, launches ++ [launch]))

/-- Programs that do one thing after the other, whatever they are started with, and at the end
    nothing. -/
def Programs.scripted : Programs (List Performance) where
  perform _ script := (script.headD ⟨.exited 0, [], []⟩, script.tail)

/-- A new capture file, in the directory for temporary files. -/
def Capture.create (c : Computer) : Except IoError Capture :=
  let directory := ((c.environment.value? "TMPDIR").map Path.mk).getD (Path.ofString "/tmp")
  if directory.bytes.isEmpty then .ok {}
  else match c.enter directory with
    | .ok _ => .ok {}
    | .error e => .error e

namespace Command

/-- What is told when a command is started. -/
def startEvents (c : Command) : List Event :=
  c.directory.toList.map (fun p => Event.entering p.text) ++ [.starting c.text]

/-- The outcome of a performance; `stderr` is what was captured of it. -/
def outcomeOf (c : Command) (p : Performance) (stderr : List UInt8) : Outcome :=
  let code := p.ending.code
  if code ≠ 0 && !c.mayFail then .error (.badExit c.text code)
  else .ok ⟨code, Text.lossy p.stdout, Text.lossy stderr⟩

/-- Runs a command. The capture file is open by now and is taken never to fail. -/
def run {σ : Type} (c : Command) (computer : Computer) (programs : Programs σ)
    (state : Capture × σ) : (Outcome × List Event) × (Capture × σ) :=
  let capture := state.1.prepare
  match computer.start c with
  | .error e => ((.error (.notStarted c.text e), c.startEvents), (capture, state.2))
  | .ok launch =>
    let (performance, s) := programs.perform launch state.2
    let (stderr, capture) := (capture.write performance.stderr).readBack
    ((c.outcomeOf performance stderr,
      c.startEvents ++ [.ended c.text performance.ending.code]), (capture, s))

end Command

end RebasePlan
