import TopicReader.Text.LetterCase

/-! The names under which brokers know ways to encrypt and to sign in. Letter case does not
matter. -/
namespace TopicReader

inductive SecurityProtocol where
  | plaintext
  | ssl
  | saslPlaintext
  | saslSsl
  deriving DecidableEq, Repr

namespace SecurityProtocol

def all : List SecurityProtocol := [.plaintext, .ssl, .saslPlaintext, .saslSsl]

def name : SecurityProtocol → String
  | .plaintext => "PLAINTEXT"
  | .ssl => "SSL"
  | .saslPlaintext => "SASL_PLAINTEXT"
  | .saslSsl => "SASL_SSL"

def ofName? (s : String) : Option SecurityProtocol := all.find? (Text.isUpperName ·.name s.toList)

end SecurityProtocol

inductive SaslMechanism where
  | plain
  | scramSha256
  | scramSha512
  deriving DecidableEq, Repr

namespace SaslMechanism

def all : List SaslMechanism := [.plain, .scramSha256, .scramSha512]

def name : SaslMechanism → String
  | .plain => "PLAIN"
  | .scramSha256 => "SCRAM-SHA-256"
  | .scramSha512 => "SCRAM-SHA-512"

def ofName? (s : String) : Option SaslMechanism := all.find? (Text.isUpperName ·.name s.toList)

end SaslMechanism
end TopicReader
