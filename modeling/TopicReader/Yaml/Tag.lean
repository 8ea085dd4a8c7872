import TopicReader.Text.Hex
import TopicReader.Yaml.Source

/-! Tags as they are written: a handle that stands for a known beginning, and the rest, in which a
percent sign escapes a byte. -/
namespace TopicReader.Yaml

structure Tag where
  handle : String
  rest : Bytes
  deriving DecidableEq, Repr

namespace Tag

def isUriChar (c : Char) : Bool := isNameChar c || ";/?:@&=+$.!~*\x27()".toList.contains c

/-- The bytes that may still follow the first byte of a character. -/
def following? (b : UInt8) : Option Nat :=
  if b &&& 0x80 = 0 then some 0
  else if b &&& 0xE0 = 0xC0 then some 1
  else if b &&& 0xF0 = 0xE0 then some 2
  else if b &&& 0xF8 = 0xF0 then some 3
  else none

/-- Reads the rest of a tag; a verbatim one may hold commas and square brackets. The count is that
of the escaped bytes that have to follow. -/
def readUri (verbatim : Bool) : Nat → Bytes → Source → Option (Bytes × Source)
  | 0, done, [] => some (done, [])
  | _, _, [] => none
  | left, done, c :: s =>
    if c.char = '%' then
      match s with
      | high :: low :: s => do
        let b := UInt8.ofNat ((← Hex.value? high.char) * 16 + (← Hex.value? low.char))
        match left with
        | 0 => readUri verbatim (← following? b) (done ++ [b]) s
        | left + 1 => if b &&& 0xC0 = 0x80 then readUri verbatim left (done ++ [b]) s else none
      | _ => none
    else if left ≠ 0 then none
    else if isUriChar c.char || (verbatim && ",[]".toList.contains c.char) then
      readUri verbatim 0 (done ++ Utf8.encode (String.singleton c.char)) s
    else some (done, c :: s)

/-- A zero byte, which only an escape can spell, cuts off what follows it. -/
def upToZero (s : Bytes) : Bytes := s.takeWhile (· ≠ 0)

/-- Reads a handle: an exclamation mark, or a name between two of them. -/
def readHandle : Source → Option (List Char × Source)
  | c :: s =>
    if c.char = '!' then
      let name := (s.takeWhile (isNameChar ·.char)).map (·.char)
      match s.dropWhile (isNameChar ·.char) with
      | d :: rest =>
        if d.char = '!' then some ('!' :: name ++ ['!'], rest) else some ('!' :: name, d :: rest)
      | [] => some ('!' :: name, [])
    else none
  | [] => none

/-- Reads a tag in angle brackets, with a handle, or with the plain exclamation mark in front. The
exclamation mark alone is a tag without a handle. -/
def read (s : Source) : Option (Tag × Source) :=
  match s with
  | _ :: c :: rest =>
    if c.char = '<' then
      match readUri true 0 [] rest with
      | some (b :: bytes, d :: rest) =>
        if d.char = '>' then some (⟨"", upToZero (b :: bytes)⟩, rest) else none
      | _ => none
    else shorthand s
  | _ => shorthand s
where
  shorthand (s : Source) : Option (Tag × Source) := do
    let (name, rest) ← readHandle s
    if 2 ≤ name.length ∧ name.getLast? = some '!' then
      match ← readUri false 0 [] rest with
      | ([], _) => none
      | (bytes, rest) => return (⟨String.ofList name, upToZero bytes⟩, rest)
    else
      let (bytes, rest) ← readUri false 0 (Utf8.encode (String.ofList (name.drop 1))) rest
      match upToZero bytes with
      | [] => return (⟨"", Utf8.encode "!"⟩, rest)
      | bytes => return (⟨"!", bytes⟩, rest)

end Tag
end TopicReader.Yaml
