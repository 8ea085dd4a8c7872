import TopicReader.CommandLine.Invocation
import TopicReader.Settings.Connection
import TopicReader.Settings.Document

/-! Loading the settings: a file, then the environment, then the command line, each over the one
before. -/
namespace TopicReader

/-- What loading the settings remarks on without failing. -/
inductive SettingsNotice where
  | noFile (path : String)
  | badIdleTime (given : String)
  | badJsonLogs (given : String)
  deriving DecidableEq, Repr

def SettingsNotice.message : SettingsNotice → String
  | .noFile path => s!"Config file not found at {path}, using defaults"
  | .badIdleTime given => s!"Invalid KAFTAIL_IDLE_TIMEOUT: {given}"
  | .badJsonLogs given => s!"Invalid KAFTAIL_JSON_LOGS: {given}"

/-- A file as far as loading sees it. -/
inductive FileContent where
  | missing
  | unreadable (reason : String)
  | bytes (s : Bytes)

/-- A choice between yes and no, in any letter case. -/
def yesNo? (s : String) : Option Bool :=
  let is (name : String) := Text.isLowerName name s.toList
  if is "1" ∨ is "true" ∨ is "yes" then some true
  else if is "0" ∨ is "false" ∨ is "no" then some false
  else none

namespace SecuritySettings

/-- Security that the environment asks for starts out without any. -/
def override (environment : Environment) (s : Option SecuritySettings) : Option SecuritySettings :=
  let protocol := environment.text? "KAFTAIL_SECURITY_PROTOCOL"
  let mechanism := environment.text? "KAFTAIL_SASL_MECHANISM"
  let username := environment.text? "KAFTAIL_SASL_USERNAME"
  let password := environment.text? "KAFTAIL_SASL_PASSWORD"
  if protocol.isSome ∨ mechanism.isSome ∨ username.isSome ∨ password.isSome then
    let s := s.getD { protocol := SecurityProtocol.plaintext.name }
    some { s with
      protocol := protocol.getD s.protocol
      mechanism := mechanism <|> s.mechanism
      username := username <|> s.username
      password := password <|> s.password }
  else s

end SecuritySettings

namespace Settings

/-- A value replaced by a variable, if that is set and can be read. One that cannot be read is
remarked on and leaves the value alone. -/
def replaced {α : Type} (given : Option String) (read : String → Option α)
    (remark : String → SettingsNotice) (value : α) : α × List SettingsNotice :=
  match given with
  | none => (value, [])
  | some text =>
    match read text with
    | some a => (a, [])
    | none => (value, [remark text])

/-- Lets the environment replace single settings. -/
def override (environment : Environment) (s : Settings) : Settings × List SettingsNotice :=
  let (idleSeconds, idleNotices) := replaced (environment.text? "KAFTAIL_IDLE_TIMEOUT")
    (fun text => Decimal.unsigned? 64 text.toList) .badIdleTime s.consume.idleSeconds
  let (json, jsonNotices) :=
    replaced (environment.text? "KAFTAIL_JSON_LOGS") yesNo? .badJsonLogs s.logging.json
  ({ kafka := { s.kafka with
      brokers := (environment.text? "KAFTAIL_BROKERS").getD s.kafka.brokers
      clientId := (environment.text? "KAFTAIL_CLIENT_ID").getD s.kafka.clientId
      security := SecuritySettings.override environment s.kafka.security }
     consume := { s.consume with idleSeconds }
     logging := {
      level := (environment.text? "KAFTAIL_LOG_LEVEL").getD s.logging.level
      json
      file := environment.text? "KAFTAIL_LOG_FILE" <|> s.logging.file } },
   idleNotices ++ jsonNotices)

/-- Lets the command line have the last word. -/
def apply (i : CommandLine.Invocation) (s : Settings) : Settings :=
  { s with
    kafka := { s.kafka with brokers := i.brokers.getD s.kafka.brokers }
    logging := { s.logging with level := if i.verbose then "debug" else s.logging.level } }

/-- The settings of a file. One that does not exist counts as empty. -/
def ofFile (path : String) : FileContent → Except SettingsError (Settings × List SettingsNotice)
  | .missing => .ok ({}, [.noFile path])
  | .unreadable reason => .error (.unreadable reason)
  | .bytes s =>
    match Utf8.decode? s with
    | none => .error (.unreadable "stream did not contain valid UTF-8")
    | some text =>
      match ofText? text with
      | none => .error .malformed
      | some settings => .ok (settings, [])

def load (environment : Environment) (file : FileContent) (i : CommandLine.Invocation) :
    Except SettingsError (Settings × List SettingsNotice) := do
  let (s, notices) ← ofFile i.config file
  let (s, more) := s.override environment
  return (s.apply i, notices ++ more)

end Settings
end TopicReader
