import TopicReader.Output.Layout
import TopicReader.Payload.Encoding
import TopicReader.Settings.Security
import TopicReader.Text.Letter
import TopicReader.Text.Utf8

/-! The settings of the program, with their defaults and the rules they have to keep, and the
variables that surround it. -/
namespace TopicReader

/-- A variable that is not set has no value; one that is set may be empty, and need not be text. -/
abbrev Environment := String → Option Bytes

namespace Environment

/-- The variables that matter. -/
def names : List String :=
  ["KAFTAIL_BROKERS", "KAFTAIL_CLIENT_ID", "KAFTAIL_IDLE_TIMEOUT", "KAFTAIL_LOG_LEVEL",
    "KAFTAIL_JSON_LOGS", "KAFTAIL_LOG_FILE", "KAFTAIL_SECURITY_PROTOCOL", "KAFTAIL_SASL_MECHANISM",
    "KAFTAIL_SASL_USERNAME", "KAFTAIL_SASL_PASSWORD", "KAFKA_SASL_PASSWORD", "RUST_LOG"]

/-- The value of a variable as text. A value that is not text counts as none. -/
def text? (environment : Environment) (name : String) : Option String :=
  (environment name).bind Utf8.decode?

def ofList (pairs : List (String × String)) : Environment :=
  fun name => (pairs.lookup name).map Utf8.encode

end Environment

/-- Names of the protocol and the mechanism are kept as they are given until they are checked. -/
structure SecuritySettings where
  protocol : String
  mechanism : Option String := none
  username : Option String := none
  password : Option String := none
  caLocation : Option String := none
  certificateLocation : Option String := none
  keyLocation : Option String := none
  deriving DecidableEq, Repr

structure BrokerSettings where
  brokers : String := "localhost:9092"
  clientId : String := "kaftail"
  metadataSeconds : Nat := 10
  security : Option SecuritySettings := none
  deriving DecidableEq, Repr

structure ConsumeSettings where
  idleSeconds : Nat := 5
  keyEncoding : Encoding := .raw
  valueEncoding : Encoding := .raw
  layout : Layout := .text
  formatJson : Bool := true
  deriving DecidableEq, Repr

structure LogSettings where
  level : String := "warn"
  json : Bool := false
  file : Option String := none
  deriving DecidableEq, Repr

structure Settings where
  kafka : BrokerSettings := {}
  consume : ConsumeSettings := {}
  logging : LogSettings := {}
  deriving DecidableEq, Repr

inductive SettingsError where
  | unreadable (reason : String)
  | malformed
  | noBrokers
  | noMetadataTime
  | noIdleTime
  | badProtocol (given : String)
  | badMechanism (given : String)
  | noUsername
  | zeroIdleOption
  | missing (setting : String)
  deriving DecidableEq, Repr

/-- What went wrong, without the words that all of these errors start with. -/
def SettingsError.detail : SettingsError → String
  | .unreadable reason => s!"Failed to read config file: {reason}"
  | .malformed => "Failed to parse config"
  | .noBrokers => "kafka.brokers cannot be empty"
  | .noMetadataTime => "kafka.metadata_timeout_secs must be greater than 0"
  | .noIdleTime => "consume.idle_timeout_secs must be greater than 0"
  | .badProtocol given => s!"Invalid security protocol: {given}"
  | .badMechanism given => s!"Invalid SASL mechanism: {given}"
  | .noUsername => "kafka.security.sasl_username is required when a SASL mechanism is set"
  | .zeroIdleOption => "--idle-timeout must be greater than 0"
  | .missing setting => s!"Missing required configuration: {setting}"

def SettingsError.message (e : SettingsError) : String := s!"Configuration error: {e.detail}"

namespace SecuritySettings

def readProtocol (s : SecuritySettings) : Except SettingsError SecurityProtocol :=
  match SecurityProtocol.ofName? s.protocol with
  | some p => .ok p
  | none => .error (.badProtocol s.protocol)

def readMechanism (given : String) : Except SettingsError SaslMechanism :=
  match SaslMechanism.ofName? given with
  | some m => .ok m
  | none => .error (.badMechanism given)

/-- The names have to be known, and a mechanism needs a user. -/
def validate (s : SecuritySettings) : Except SettingsError Unit := do
  let _ ← s.readProtocol
  match s.mechanism with
  | none => return
  | some given =>
    let _ ← readMechanism given
    if s.username.getD "" = "" then throw .noUsername

end SecuritySettings

/-- The rules are checked in a fixed order, and the first that is broken is reported. -/
def Settings.validate (s : Settings) : Except SettingsError Unit := do
  if Text.trim s.kafka.brokers.toList = [] then throw .noBrokers
  if s.kafka.metadataSeconds = 0 then throw .noMetadataTime
  if s.consume.idleSeconds = 0 then throw .noIdleTime
  match s.kafka.security with
  | none => return
  | some security => security.validate

end TopicReader
