import TopicReader.CommandLine.Help
import TopicReader.Launch

/-! The command line program. It prepares a run and stops there: no client for real brokers is built
in, so a run that is ready ends with an error that says so. -/
namespace TopicReader

/-- The reason of a failed access to a file, in the words of the system. -/
def reason (e : IO.Error) : String :=
  match e with
  | .noFileOrDirectory .. => "No such file or directory (os error 2)"
  | .inappropriateType .. => "Is a directory (os error 21)"
  | .permissionDenied .. => "Permission denied (os error 13)"
  | e => toString e

def readContent (path : String) : IO FileContent := do
  try
    return .bytes (← IO.FS.readBinFile path).toList
  catch e =>
    match e with
    | .noFileOrDirectory .. => return .missing
    | e => return .unreadable (reason e)

/-- Creates the file at a path unless it is there, and tells why if that fails. -/
def findObstacle (path : String) : IO (Option String) := do
  try
    IO.FS.withFile path .append fun _ => pure ()
    return none
  catch e => return some (reason e)

def readEnvironment : IO Environment := do
  let pairs ← Environment.names.filterMapM fun name => do
    return (← IO.getEnv name).map (name, ·)
  return .ofList pairs

def writeLine (setup : LogSetup) (line : LogLine) : IO Unit := do
  let text := setup.write line
  IO.eprintln text
  match setup.file with
  | none => return
  | some path => IO.FS.withFile path .append fun h => h.putStrLn text

def fail (e : LaunchError) : IO UInt32 := do
  IO.eprintln ((if e.status = 1 then "Error: " else "") ++ e.message)
  return e.status.toUInt32

def carryOut (i : CommandLine.Invocation) : IO UInt32 := do
  let environment ← readEnvironment
  let content ← readContent i.config
  let log := match Settings.load environment content i with
    | .ok (s, _) => s.logging.file
    | .error _ => none
  let obstacle ← match log with
    | some path => findObstacle path
    | none => pure none
  let files : Files := { content := fun _ => content, obstacle? := fun _ => obstacle }
  match Launch.start environment files i (← (← IO.getStdout).isTty) with
  | .error e => fail e
  | .ok l =>
    l.lines.forM (writeLine l.logging)
    match l.preparation.failure with
    | some e => fail e
    | none => fail (.request (.broker "no client for brokers is built in"))

end TopicReader

open TopicReader TopicReader.CommandLine in
def main (arguments : List String) : IO UInt32 := do
  match Invocation.read arguments with
  | .ok i => carryOut i
  | .error r =>
    if r.status = 0 then IO.println r.text else IO.eprintln r.text
    return r.status.toUInt32
