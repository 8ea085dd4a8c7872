import TopicReader.Text.Base64
import TopicReader.Text.Hex

/-! The text forms of bytes that nothing else knows how to read. -/
namespace TopicReader

inductive Encoding where
  | raw
  | hex
  | base64
  deriving DecidableEq, Repr

namespace Encoding

def all : List Encoding := [.raw, .hex, .base64]

def name : Encoding → String
  | .raw => "raw"
  | .hex => "hex"
  | .base64 => "base64"

def ofName? (s : String) : Option Encoding := all.find? (·.name = s)

def encode : Encoding → Bytes → String
  | .raw, s => Utf8.lossy s
  | .hex, s => String.ofList (Hex.encode s)
  | .base64, s => String.ofList (Base64.encode s)

end Encoding
end TopicReader
