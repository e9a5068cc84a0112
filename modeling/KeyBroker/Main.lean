import KeyBroker.Program.LogFilter
import KeyBroker.Program.Startup

/-! # The program

Reads the command line, the environment and the files, and hands them to the library. The program
serves the connection that it was given as its standard input and output, and takes who started it
for who is at the other end. Records of the log go to the standard error.
-/

namespace KeyBroker.Main

/-- The variables of the environment that the program looks at. -/
def variableNames : List String :=
  PathOption.all.map PathOption.variableName
    ++ [LogFilter.variableName, "HOME", "XDG_CONFIG_HOME", "XDG_RUNTIME_DIR", "TMPDIR"]

/-- Reads the environment. -/
def readEnvironment : IO (String → Option String) := do
  let mut known : List (String × String) := []
  for name in variableNames do
    if let some value ← IO.getEnv name then known := (name, value) :: known
  let pairs := known
  return fun name => pairs.lookup name

/-- The refusal behind an error of the system. -/
def faultOf : IO.Error → SystemFault
  | .permissionDenied .. => .noPermission
  | .inappropriateType .. => .isDirectory
  | _ => .noSuchFile

/-- The mode that files are taken to have. -/
def assumedMode : Nat := 0o600

/-- What is at a path. -/
def locationAt (path : Path) : IO Location := do
  match path.text? with
  | none => return .blocked .noSuchFile
  | some name =>
    try
      return .file ⟨assumedMode, (← IO.FS.readBinFile name).toList⟩
    catch e =>
      return .blocked (faultOf e)

/-- The first number behind a label in a text of labelled lines. -/
def numberAfter (label text : String) : Option Nat := do
  let _ :: rest :: _ := text.splitOn label | none
  let cs := rest.toList.dropWhile fun c => !c.isDigit
  (String.ofList (cs.takeWhile Char.isDigit)).toNat?

/-- Who started the program, as the system tells it. -/
def readCaller : IO (Option Caller) := do
  try
    let status ← IO.FS.readFile "/proc/self/status"
    return do
      let uid ← numberAfter "\nUid:" status
      let gid ← numberAfter "\nGid:" status
      let pid ← numberAfter "\nPid:" status
      some ⟨UInt32.ofNat uid, UInt32.ofNat gid, some (Int.ofNat pid)⟩
  catch _ => return none

/-- Bytes that nobody can foresee. -/
def randomVector (n : Nat) : IO (Vector UInt8 n) := do
  let bytes ← IO.getRandomBytes (USize.ofNat n)
  return Vector.ofFn fun i => bytes.data.getD i.val 0

/-- A fresh draw. -/
def freshDraw : IO Draw := do
  let blinding ← IO.getRandomBytes (USize.ofNat (maxModulusBits / 8))
  return ⟨← randomVector 12, ← randomVector 64, Bytes.toNatBE blinding.data.toList⟩

/-- Writes to the log what events leave there. -/
def report (filter : LogFilter) (events : List Event) : IO Unit := do
  for r in (records events).filter filter.shows do
    IO.eprintln s!"[{r.level.name} {r.topic}] {r.text}"

/-- How many bytes are read at once. -/
def chunkSize : Nat := 65536

/-- Serves what comes on a stream; `pending` is read and not yet a whole frame. -/
partial def serve (b : Broker) (filter : LogFilter) (limit : Nat) (input output : IO.FS.Stream)
    (s : Session) (pending : Bytes) : IO Ending := do
  match Frame.read limit pending with
  | .body body rest =>
    let draw ← freshDraw
    let (result, s, events) := s.reply b (fun _ => draw) limit body
    report filter events
    match result with
    | .error fault => return .error fault
    | .ok reply =>
      output.write ⟨(Frame.wrap reply).toArray⟩
      output.flush
      serve b filter limit input output s rest
  | .oversized size rest => return Session.endingOf limit (.oversized size rest)
  | found =>
    let chunk ← input.read (USize.ofNat chunkSize)
    if chunk.isEmpty then return Session.endingOf limit found
    else serve b filter limit input output s (pending ++ chunk.toList)

/-- Serves the connection on the standard streams. -/
def serveConnection (c : Config) (b : Broker) (filter : LogFilter) : IO Unit := do
  let caller ← readCaller
  let conn := 1
  if let some caller := caller then report filter (Line.acceptance conn caller)
  let session : Session := { connection := { id := conn, caller } }
  let ending ←
    serve b filter c.server.frameLimit.toNat (← IO.getStdin) (← IO.getStdout) session []
  report filter (Line.closure conn ending)

/-- Writes the report of a failure, and gives what the program returns. -/
def fail (f : Failure) : IO UInt32 := do
  IO.eprintln f.report
  return UInt32.ofNat Failure.code

/-- Runs the program as its command line asks. -/
def run (env : String → Option String) (o : Options) : IO UInt32 := do
  let filter := LogFilter.ofEnvironment env o.debug
  report filter [.started programVersion]
  let named ← match o.config with
    | some path => locationAt path
    | none => pure .vacant
  match Startup.configure (.ofEnvironment "/" env) o named with
  | .error failure => fail failure
  | .ok c =>
    let (opened, events) := Startup.openStore c (← locationAt c.storePath)
    report filter events
    match opened with
    | .error failure => fail failure
    | .ok store =>
      let (outcome, events) := Startup.conclude o c store
      report filter events
      match outcome with
      | .failed failure => fail failure
      | .checked => return 0
      | .ready c b =>
        serveConnection c b filter
        return 0

end KeyBroker.Main

open KeyBroker in
/-- The entry of the program. -/
def main (args : List String) : IO UInt32 := do
  let env ← KeyBroker.Main.readEnvironment
  match Invocation.read env args with
  | .run o => KeyBroker.Main.run env o
  | .help =>
    IO.print (helpText env)
    return 0
  | .version =>
    IO.print versionText
    return 0
  | .refused =>
    IO.eprint usageText
    return UInt32.ofNat Failure.usageCode
