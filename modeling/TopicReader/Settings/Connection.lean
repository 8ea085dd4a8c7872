import TopicReader.Settings.Basic

/-! How to connect to the brokers, and the properties that say so to a client. -/
namespace TopicReader

structure Credentials where
  mechanism : SaslMechanism
  username : String
  password : String
  deriving DecidableEq, Repr

structure Certificates where
  ca : Option String := none
  certificate : Option String := none
  key : Option String := none
  deriving DecidableEq, Repr

def Credentials.properties (c : Credentials) : List (String × String) :=
  [("sasl.mechanism", c.mechanism.name), ("sasl.username", c.username),
    ("sasl.password", c.password)]

def Certificates.properties (c : Certificates) : List (String × String) :=
  (c.ca.map ("ssl.ca.location", ·)).toList ++
    (c.certificate.map ("ssl.certificate.location", ·)).toList ++
    (c.key.map ("ssl.key.location", ·)).toList

/-- The time allowed for questions about a topic is in milliseconds. -/
structure Connection where
  brokers : String
  clientId : String
  protocol : SecurityProtocol := .plaintext
  credentials : Option Credentials := none
  certificates : Option Certificates := none
  metadataTimeout : Nat := 10000
  deriving DecidableEq, Repr

namespace SecuritySettings

/-- The user and the password that a mechanism needs. The password may be left to the
environment. -/
def credentials (environment : Environment) (s : SecuritySettings) :
    Except SettingsError (Option Credentials) :=
  match s.mechanism with
  | none => .ok none
  | some given => do
    let some username := s.username | throw (.missing "kafka.security.sasl_username")
    let some password := s.password <|> environment.text? "KAFKA_SASL_PASSWORD"
      | throw (.missing "kafka.security.sasl_password (or KAFKA_SASL_PASSWORD)")
    return some { mechanism := ← readMechanism given, username, password }

def certificates (s : SecuritySettings) : Option Certificates :=
  if s.caLocation.isSome ∨ s.certificateLocation.isSome ∨ s.keyLocation.isSome then
    some { ca := s.caLocation, certificate := s.certificateLocation, key := s.keyLocation }
  else none

end SecuritySettings

namespace Connection

def ofSettings (environment : Environment) (s : BrokerSettings) : Except SettingsError Connection :=
  let base : Connection :=
    { brokers := s.brokers, clientId := s.clientId, metadataTimeout := s.metadataSeconds * 1000 }
  match s.security with
  | none => .ok base
  | some security => do
    let protocol ← security.readProtocol
    let credentials ← security.credentials environment
    return { base with protocol, credentials, certificates := security.certificates }

/-- Signs in with SCRAM-SHA-256 over an encrypted connection. -/
def withScramSha256 (username password : String) (c : Connection) : Connection :=
  { c with protocol := .saslSsl, credentials := some ⟨.scramSha256, username, password⟩ }

/-- Trusts an authority, and forgets any certificate set before. -/
def withAuthority (ca : String) (c : Connection) : Connection :=
  { c with certificates := some { ca := some ca } }

/-- Readers are given their partitions and store no offsets, so a client is told to store none. -/
def properties (c : Connection) : List (String × String) :=
  [("bootstrap.servers", c.brokers), ("client.id", c.clientId),
    ("group.id", c.clientId ++ "-reader"), ("enable.auto.commit", "false"),
    ("enable.auto.offset.store", "false"), ("enable.partition.eof", "false"),
    ("security.protocol", c.protocol.name)] ++
  (c.credentials.map Credentials.properties).getD [] ++
  (c.certificates.map Certificates.properties).getD []

end Connection
end TopicReader
