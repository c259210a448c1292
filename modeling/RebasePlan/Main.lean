import RebasePlan.Program

/-!
# The command

Gives the program what the system holds: the arguments, the variables, the current directory, and
what lies on the paths that a run can come to. Then prints what the program leaves behind and writes
its log file. No other program is started from here: every file counts as one without a program.
-/

namespace RebasePlan.Main

/-- The places from the root to a place. -/
def placesAbove (place : Place) : List Place :=
  (List.range (place.length + 1)).map fun n => place.take n

/-- The places that a path leads through, the last first. -/
def placesOn (directory : Place) (p : Path) : List Place :=
  (Disk.steps p).foldl (fun places piece =>
    let place := places.headD []
    (if piece = Path.here then place
      else if piece = Path.up then place.dropLast
      else place ++ [piece]) :: places) [Disk.origin directory p]

/-- The paths that a command line can lead to. -/
def pathsOf (o : Options) (c : Computer) : List Path :=
  let settingsFiles := Program.defaultSettings :: o.settingsFiles
  settingsFiles ++ settingsFiles.map (fun p => p.extend Settings.ending) ++ o.plan.toList ++
    c.candidates (Path.ofString Git.programName) ++
    [((c.environment.value? "TMPDIR").map Path.mk).getD (Path.ofString "/tmp")]

/-- The paths that settings can lead to. -/
def pathsSet (s : Settings) : List Path :=
  (s.logFile.toList ++ s.program.toList ++ s.repository.toList).map Path.ofString

/-- What lies at a place, if anything can be read there. -/
def readEntry (place : Place) : IO (Option Entry) := do
  try
    return some (.file (← IO.FS.readBinFile (Path.ofNames place).text).toList .brokenProgram)
  catch
    | .inappropriateType .. => return some .directory
    | _ => return none

/-- A computer that also knows what lies on some paths. -/
def withPaths (c : Computer) (paths : List Path) : IO Computer := do
  let places := ((paths.flatMap (placesOn c.directory)).flatMap placesAbove).eraseDups
  let found ← places.filterMapM fun place => do
    return (← readEntry place).map fun entry => (place, entry)
  return { c with disk := ⟨fun place => (found.lookup place).orElse fun _ => c.disk.lookup place⟩ }

/-- The variables as the system hands them over: each ends with a NUL. -/
def environmentOf (bytes : List UInt8) : Environment :=
  ((Text.split (· == 0) bytes).filter fun entry => !entry.isEmpty).map fun entry =>
    (entry.takeWhile (· != Environment.equalsSign),
      (entry.dropWhile (· != Environment.equalsSign)).drop 1)

/-- The computer on which the program runs. Nothing is known yet of its disk. -/
def readComputer : IO Computer := do
  let directory := Path.ofString (toString (← IO.currentDir))
  let environment ← IO.FS.readBinFile "/proc/self/environ"
  return ⟨⟨fun _ => none⟩, directory.names, environmentOf environment.toList⟩

/-- The computer with all that a run with the options can come to, and the run's log file. -/
def prepare (o : Options) (c : Computer) : IO (Computer × Option Path) := do
  let c ← withPaths c (pathsOf o c)
  match (Program.loader o).load c with
  | .error _ => return (c, none)
  | .ok settings =>
    let c ← withPaths c (pathsSet settings)
    return (c, settings.logFile.map Path.ofString)

/-- Writes the log file that a run left behind. -/
def writeLog (c : Computer) (finish : Finish) (p : Path) : IO Unit :=
  match finish.disk.read c.directory p with
  | .error _ => return ()
  | .ok content => do
    if let some parent := p.parent? then
      IO.FS.createDirAll (Path.join c.directoryPath parent).text
    IO.FS.writeBinFile (Path.join c.directoryPath p).text ⟨content.toArray⟩

/-- Runs the program on the system. -/
def run (args : List String) : IO UInt32 := do
  let args := args.map Text.encode
  let computer ← readComputer
  let (computer, logFile) ← match CommandLine.parse args with
    | .ok o => if o.version then pure (computer, none) else prepare o computer
    | .error _ => pure (computer, none)
  let (finish, _) := Program.run args computer Programs.scripted []
  IO.print finish.stdout
  IO.eprint finish.stderr
  logFile.forM (writeLog computer finish)
  return finish.code.toUInt32

end RebasePlan.Main

/-- The program as a command. -/
def main (args : List String) : IO UInt32 := RebasePlan.Main.run args
