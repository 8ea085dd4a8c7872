import TopicReader.Message
import TopicReader.Payload.Codec
import TopicReader.Text.Printable

/-! Codecs tried in order. The first one that claims a payload decides its fate, so a failure is
final; a payload that none claims is written in the encoding of its field. -/
namespace TopicReader

structure Chain where
  codecs : List Codec
  keyEncoding : Encoding := .raw
  valueEncoding : Encoding := .raw

namespace Chain

/-- JSON is laid out only where values are written raw: any other encoding of values wins over
it. -/
def standard (formatJson : Bool) (keyEncoding valueEncoding : Encoding) : Chain :=
  ⟨if formatJson && valueEncoding = .raw then [.json] else [], keyEncoding, valueEncoding⟩

def default : Chain := standard true .raw .raw

def fallback (chain : Chain) : Field → Encoding
  | .key => chain.keyEncoding
  | .value => chain.valueEncoding

def decode (chain : Chain) (field : Field) (payload : Bytes) : Except DecodeError String :=
  match chain.codecs.find? (·.claims field payload) with
  | some codec => codec.render field payload
  | none => .ok ((chain.fallback field).encode payload)

def decodeOptional (chain : Chain) (field : Field) :
    Option Bytes → Except DecodeError (Option String)
  | none => .ok none
  | some payload => (chain.decode field payload).map some

/-- The key is decoded before the value; headers are never offered to a codec. -/
def record (chain : Chain) (m : Message) : Except DecodeError Record := do
  let key ← chain.decodeOptional .key m.key
  let value ← chain.decodeOptional .value m.value
  let headers := m.headers.map fun (name, payload) => (name, chain.valueEncoding.encode payload)
  return {
    partition := m.partition
    offset := m.offset
    timestamp := m.timestamp
    key, value, headers }

def names (chain : Chain) : List String := chain.codecs.map (·.name)

/-- The name of an encoding in a description. -/
def title : Encoding → String
  | .raw => "Raw"
  | .hex => "Hex"
  | .base64 => "Base64"

/-- A name between quotes, with quotes, backslashes and unprintable characters escaped. -/
def quote (s : String) : String :=
  let escape (c : Char) : List Char :=
    if c = '"' then ['\\', '"']
    else if c = '\\' then ['\\', '\\']
    else if c = '\n' then ['\\', 'n']
    else if c = '\r' then ['\\', 'r']
    else if c = '\t' then ['\\', 't']
    else if c = '\x00' then ['\\', '0']
    else if Text.isPrintable c then [c]
    else '\\' :: 'u' :: '\x7b' :: Nat.toDigits 16 c.toNat ++ ['\x7d']
  String.ofList ('"' :: s.toList.flatMap escape ++ ['"'])

/-- One line that names the codecs and the encodings. -/
def description (chain : Chain) : String :=
  "DeserializerChain \x7b deserializers: [" ++ ", ".intercalate (chain.names.map quote) ++
    "], key_encoding: " ++ title chain.keyEncoding ++
    ", value_encoding: " ++ title chain.valueEncoding ++ " \x7d"

end Chain
end TopicReader
