import TopicReader.Json.Document
import TopicReader.Json.Pretty
import TopicReader.Payload.Encoding

/-! Codecs read payloads of one kind. A codec first says whether a payload is its own; only then is
it asked for the text, and it may still fail. -/
namespace TopicReader

/-- The part of a message that a payload comes from. -/
inductive Field where
  | key
  | value
  deriving DecidableEq, Repr

structure DecodeError where
  codec : String
  message : String
  deriving DecidableEq, Repr

def DecodeError.text (e : DecodeError) : String := s!"{e.codec} deserializer: {e.message}"

structure Codec where
  name : String
  claims : Field → Bytes → Bool
  render : Field → Bytes → Except DecodeError String

namespace Codec

/-- Form feed counts as white space here, though not within a document. -/
def isLeadingSpace (b : UInt8) : Bool :=
  b = 0x20 || b = 0x09 || b = 0x0A || b = 0x0C || b = 0x0D

def opensContainer (payload : Bytes) : Bool :=
  match payload.find? fun b => !isLeadingSpace b with
  | some b => b = 0x7B || b = 0x5B
  | none => false

/-- The name that JSON failures carry. -/
def jsonName : String := "json"

def renderJson (payload : Bytes) : Except DecodeError String :=
  match Json.readDocument payload with
  | .ok v => .ok (String.ofList (v.pretty 0))
  | .error f => .error ⟨jsonName, f.message payload⟩

/-- Claims values that are well-formed JSON objects or arrays, and lays them out over several
lines. -/
def json : Codec where
  name := jsonName
  claims field payload := field = .value && opensContainer payload && Json.wellFormed payload
  render _ payload := renderJson payload

/-- Claims everything. -/
def encoded (encoding : Encoding) : Codec where
  name := "raw"
  claims _ _ := true
  render _ payload := .ok (encoding.encode payload)

/-- Claims payloads that start with a tag, in one field or in both, and gives them all one
answer. -/
def tagged (name : String) (only : Option Field) (tag : Bytes) (answer : Except String String) :
    Codec where
  name := name
  claims field payload := only.all (· = field) && tag.isPrefixOf payload
  render _ _ := answer.mapError fun message => ⟨name, message⟩

end Codec
end TopicReader
