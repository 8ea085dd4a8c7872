import TopicReader.Logging.Setup
import TopicReader.Payload.Chain
import TopicReader.Request
import TopicReader.Settings.Load

/-! From a command line to a run that only lacks its client. -/
namespace TopicReader

inductive LaunchError where
  | settings (e : SettingsError)
  | request (e : RunError)
  | filter (e : FilterError)
  | logFile (reason : String)
  deriving DecidableEq, Repr

def LaunchError.message : LaunchError → String
  | .settings e => e.message
  | .request e => e.message
  | .filter e => e.message
  | .logFile reason => reason

/-- The exit status of a launch that fails; a filter that tears a character ends it abruptly. -/
def LaunchError.status : LaunchError → Nat
  | .filter .tornCharacter => 101
  | _ => 1

/-- How records are written. -/
structure Appearance where
  layout : Layout
  shown : Shown
  deriving DecidableEq, Repr

namespace CommandLine.Consume

/-- The request of a command line. The time that a silent partition is waited for comes from the
settings unless it is given, and it may not be zero. -/
def request (s : Settings) (c : Consume) : Except LaunchError Request := do
  if c.idleSeconds = some 0 then throw (.settings .zeroIdleOption)
  let r : Request := {
    topic := c.topic
    partitions := c.partitions
    fromBeginning := c.fromBeginning
    starts := c.starts
    tail := c.tail
    exit := c.exit
    idle := c.idleSeconds.getD s.consume.idleSeconds * 1000 }
  match r.validate with
  | .error e => throw (.request e)
  | .ok () => return r

def chain (s : Settings) (c : Consume) : Chain :=
  .standard (s.consume.formatJson && !c.noJsonFormat) (c.keyEncoding.getD s.consume.keyEncoding)
    (c.valueEncoding.getD s.consume.valueEncoding)

/-- Only a terminal gets colors. -/
def appearance (s : Settings) (terminal : Bool) (c : Consume) : Appearance where
  layout := c.layout.getD s.consume.layout
  shown := {
    key := c.key
    timestamp := c.timestamp
    headers := c.headers
    partition := c.partitionInfo
    color := terminal && !c.noColor }

end CommandLine.Consume

/-- The parts of a run in the order in which they are made, up to the first that cannot be. -/
structure Preparation where
  request : Option Request := none
  chain : Option Chain := none
  appearance : Option Appearance := none
  connection : Option Connection := none
  failure : Option LaunchError := none

namespace Preparation

def ofValid (environment : Environment) (s : Settings) (c : CommandLine.Consume) (terminal : Bool) :
    Preparation :=
  match c.request s with
  | .error e => { failure := some e }
  | .ok request =>
    let p : Preparation := {
      request := some request
      chain := some (c.chain s)
      appearance := some (c.appearance s terminal) }
    match Connection.ofSettings environment s.kafka with
    | .error e => { p with failure := some (.settings e) }
    | .ok connection => { p with connection := some connection }

/-- Settings that break a rule let nothing be made. -/
def make (environment : Environment) (s : Settings) (c : CommandLine.Consume) (terminal : Bool) :
    Preparation :=
  match s.validate with
  | .error e => { failure := some (.settings e) }
  | .ok () => ofValid environment s c terminal

end Preparation

/-- The files around the program: what one holds, and why one cannot be written to, if so. -/
structure Files where
  content : String → FileContent
  obstacle? : String → Option String

/-- A launched program: the lines that it logs and the preparation of its run. -/
structure Launch where
  logging : LogSetup
  lines : List LogLine
  preparation : Preparation

namespace Launch

/-- What is logged when a command begins. -/
def beginning (c : CommandLine.Consume) : LogLine where
  level := .debug
  target := "kaftail"
  fields := [("message", "Starting consume command"), ("topic", c.topic)]

/-- Logging is set up before the settings are checked, and nothing is logged if they break a
rule. -/
def start (environment : Environment) (files : Files) (i : CommandLine.Invocation)
    (terminal : Bool) : Except LaunchError Launch := do
  let (s, _) ← (Settings.load environment (files.content i.config) i).mapError .settings
  let logging ← (LogSetup.ofSettings environment s.logging).mapError .filter
  match s.logging.file.bind files.obstacle? with
  | some reason => throw (.logFile reason)
  | none => pure ()
  let preparation := Preparation.make environment s i.consume terminal
  let lines := match s.validate with
    | .ok () => [beginning i.consume].filter logging.keeps
    | .error _ => []
  return { logging, lines, preparation }

end Launch
end TopicReader
