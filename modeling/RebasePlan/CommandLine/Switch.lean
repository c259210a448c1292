import RebasePlan.Disk.Path
import RebasePlan.Settings

/-!
# The switches of the command line

Each switch has a long name; some have a letter, and some take a value. What the switches of one
command line say is gathered in `Options`.
-/

namespace RebasePlan

/-- A switch of the command line. -/
inductive Switch where
  | settings
  | git
  | repo
  | logLevel
  | fileLogLevel
  | logFile
  | conf
  | doit
  | version
  | help
  deriving DecidableEq, Repr

namespace Switch

/-- All switches, in the order in which the help lists them. -/
def all : List Switch :=
  [settings, git, repo, logLevel, fileLogLevel, logFile, conf, doit, version, help]

/-- The long name of a switch. -/
def long : Switch → String
  | settings => "settings"
  | git => "git"
  | repo => "repo"
  | logLevel => "log-level"
  | fileLogLevel => "file-log-level"
  | logFile => "log-file"
  | conf => "conf"
  | doit => "doit"
  | version => "version"
  | help => "help"

/-- The letter of a switch. -/
def letter? : Switch → Option Char
  | repo => some 'C'
  | logLevel => some 'l'
  | conf => some 'c'
  | version => some 'V'
  | help => some 'h'
  | _ => none

/-- What messages call the value of a switch. -/
def valueName? : Switch → Option String
  | settings | logFile | conf => some "FILE"
  | git => some "PATH"
  | repo => some "DIR"
  | logLevel | fileLogLevel => some "LEVEL"
  | doit | version | help => none

/-- Whether a switch takes a value. -/
def takesValue (s : Switch) : Bool := s.valueName?.isSome

/-- A switch with its value, as messages show it. -/
def text (s : Switch) : String :=
  match s.valueName? with
  | some name => s!"--{s.long} <{name}>"
  | none => s!"--{s.long}"

/-- The switch of a long name. -/
def ofLong? (name : String) : Option Switch := all.find? fun s => s.long == name

/-- The switch of a letter. -/
def ofLetter? (c : Char) : Option Switch := all.find? fun s => s.letter? == some c

end Switch

/-- What a command line says. -/
structure Options where
  settingsFiles : List Path := []
  program : Option Path := none
  repository : Option Path := none
  console : Option Verbosity := none
  file : Option Verbosity := none
  logFile : Option Path := none
  plan : Option Path := none
  confirmed : Bool := false
  version : Bool := false
  deriving DecidableEq, Repr

namespace Options

/-- The settings that a command line makes, as keys and values. What is shown on the console goes
    for the log file too, unless that has a switch of its own. -/
def overrides (o : Options) : List (String × String) :=
  let entry (key : String) (value : Option String) := value.toList.map fun v => (key, v)
  let level (v : Verbosity) := toString v.value
  entry "global.output_log_level" (o.console.map level) ++
    entry "global.file_log_level" ((o.file <|> o.console).map level) ++
    entry "global.log_file" (o.logFile.map Path.text) ++
    entry "tools.git" (o.program.map Path.text) ++
    entry "repo.path" (o.repository.map Path.text)

end Options

end RebasePlan
