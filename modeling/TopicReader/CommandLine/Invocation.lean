import TopicReader.CommandLine.Grammar
import TopicReader.Output.Layout
import TopicReader.Partition.Start
import TopicReader.Payload.Encoding

/-! The command line of the program: options that hold for every command, then `consume` with a
topic and options of its own. -/
namespace TopicReader.CommandLine

/-- What is asked of `consume`. An option that is not given leaves the choice to the settings. -/
structure Consume where
  topic : String := ""
  partitions : List Int := []
  starts : List Start := []
  fromBeginning : Bool := false
  tail : Option Nat := none
  exit : Bool := false
  key : Bool := false
  timestamp : Bool := false
  headers : Bool := false
  partitionInfo : Bool := false
  keyEncoding : Option Encoding := none
  valueEncoding : Option Encoding := none
  layout : Option Layout := none
  idleSeconds : Option Nat := none
  noJsonFormat : Bool := false
  noColor : Bool := false
  deriving DecidableEq, Repr

structure Invocation where
  config : String := "kaftail.yaml"
  verbose : Bool := false
  brokers : Option String := none
  consume : Consume := {}
  deriving DecidableEq, Repr

def number? (s : String) : Except Refusal Nat :=
  match Decimal.unsigned? 64 s.toList with
  | some n => .ok n
  | none => .error .badValue

def partition? (s : String) : Except Refusal Int :=
  match Decimal.signed? 32 s.toList with
  | some n => .ok n
  | none => .error .badValue

def start? (s : String) : Except Refusal Start := (Start.read s).mapError fun _ => .badValue

/-- One of the names that an option allows. -/
def choice? {α : Type} (ofName? : String → Option α) (s : String) : Except Refusal α :=
  match ofName? s with
  | some a => .ok a
  | none => .error .badChoice

inductive ConsumeOption where
  | partitions
  | offset
  | fromBeginning
  | tail
  | exit
  | key
  | timestamp
  | headers
  | partitionInfo
  | keyEncoding
  | valueEncoding
  | output
  | idleTimeout
  | noJsonFormat
  | noColor
  | brokers
  | help
  deriving DecidableEq, Repr

namespace ConsumeOption

/-- What an option does; one that takes a value is given it. The brokers may be named on either side
of the command, so they are built beside what is asked of it. -/
def apply : ConsumeOption → List String → Consume × Option String →
    Except Refusal (Consume × Option String)
  | .partitions, values, (c, b) => do
    return ({ c with partitions := c.partitions ++ (← values.mapM partition?) }, b)
  | .offset, values, (c, b) => do
    return ({ c with starts := c.starts ++ (← values.mapM start?) }, b)
  | .tail, [s], (c, b) => do return ({ c with tail := some (← number? s) }, b)
  | .keyEncoding, [s], (c, b) => do
    return ({ c with keyEncoding := some (← choice? Encoding.ofName? s) }, b)
  | .valueEncoding, [s], (c, b) => do
    return ({ c with valueEncoding := some (← choice? Encoding.ofName? s) }, b)
  | .output, [s], (c, b) => do return ({ c with layout := some (← choice? Layout.ofName? s) }, b)
  | .idleTimeout, [s], (c, b) => do return ({ c with idleSeconds := some (← number? s) }, b)
  | .brokers, [s], (c, _) => .ok (c, some s)
  | .fromBeginning, _, (c, b) => .ok ({ c with fromBeginning := true }, b)
  | .exit, _, (c, b) => .ok ({ c with exit := true }, b)
  | .key, _, (c, b) => .ok ({ c with key := true }, b)
  | .timestamp, _, (c, b) => .ok ({ c with timestamp := true }, b)
  | .headers, _, (c, b) => .ok ({ c with headers := true }, b)
  | .partitionInfo, _, (c, b) => .ok ({ c with partitionInfo := true }, b)
  | .noJsonFormat, _, (c, b) => .ok ({ c with noJsonFormat := true }, b)
  | .noColor, _, (c, b) => .ok ({ c with noColor := true }, b)
  | .help, _, _ => .error .helpAsked
  | _, _, _ => .error .badChoice

def grammar : Grammar ConsumeOption (Consume × Option String) where
  switches := [
    ⟨.partitions, "partitions", some 'p', .list⟩,
    ⟨.offset, "offset", none, .list⟩,
    ⟨.fromBeginning, "from-beginning", some 'b', .nothing⟩,
    ⟨.tail, "tail", some 'n', .value⟩,
    ⟨.exit, "exit", some 'e', .nothing⟩,
    ⟨.key, "key", some 'k', .nothing⟩,
    ⟨.timestamp, "timestamp", none, .nothing⟩,
    ⟨.headers, "headers", none, .nothing⟩,
    ⟨.partitionInfo, "partition-info", none, .nothing⟩,
    ⟨.keyEncoding, "key-encoding", none, .value⟩,
    ⟨.valueEncoding, "value-encoding", none, .value⟩,
    ⟨.output, "output", some 'o', .value⟩,
    ⟨.idleTimeout, "idle-timeout", none, .value⟩,
    ⟨.noJsonFormat, "no-json-format", none, .nothing⟩,
    ⟨.noColor, "no-color", none, .nothing⟩,
    ⟨.brokers, "brokers", none, .value⟩,
    ⟨.help, "help", some 'h', .nothing⟩]
  apply := apply
  positional := some fun topic (c, b) => ({ c with topic }, b)

end ConsumeOption

/-- The arguments after `consume`; a topic is required. -/
def Consume.read (arguments : List String) : Except Refusal (Consume × Option String) := do
  let (r, _) ← Reading.words ConsumeOption.grammar false { value := ({}, none) } arguments
  let r ← r.settle ConsumeOption.grammar
  if r.positioned then return r.value else throw .missingArgument

inductive GeneralOption where
  | config
  | verbose
  | brokers
  | help
  | version
  deriving DecidableEq, Repr

namespace GeneralOption

def apply : GeneralOption → List String → Invocation → Except Refusal Invocation
  | .config, [s], i => .ok { i with config := s }
  | .brokers, [s], i => .ok { i with brokers := some s }
  | .verbose, _, i => .ok { i with verbose := true }
  | .help, _, _ => .error .helpAsked
  | .version, _, _ => .error .versionAsked
  | _, _, _ => .error .badChoice

def grammar : Grammar GeneralOption Invocation where
  switches := [
    ⟨.config, "config", some 'c', .value⟩,
    ⟨.verbose, "verbose", some 'v', .nothing⟩,
    ⟨.brokers, "brokers", none, .value⟩,
    ⟨.help, "help", some 'h', .nothing⟩,
    ⟨.version, "version", some 'V', .nothing⟩]
  apply := apply
  commands := ["consume", "help"]

end GeneralOption

namespace Invocation

/-- Help may be asked for one of the commands, none of which has commands of its own. -/
def help : List String → Refusal
  | [] => .helpAsked
  | [name] => if name ∈ GeneralOption.grammar.commands then .helpAsked else .unknownCommand
  | _ => .unknownCommand

/-- The command is read to its end before the last option in front of it takes effect. Brokers named
after the command replace those named before it. -/
def read (arguments : List String) : Except Refusal Invocation := do
  let (r, command) ← Reading.words GeneralOption.grammar false { value := {} } arguments
  match command with
  | some ("consume", rest) =>
    let (consume, brokers) ← Consume.read rest
    let i := (← r.settle GeneralOption.grammar).value
    return { i with consume, brokers := brokers <|> i.brokers }
  | some (_, rest) => throw (help rest)
  | none =>
    let r ← r.settle GeneralOption.grammar
    throw (if r.seen = [] then .helpNeeded else .missingCommand)

end Invocation
end TopicReader.CommandLine
