import TopicReader.Json.Failure
import TopicReader.Json.Scan

/-! Texts of JSON documents: the content between the quotes, read with its escapes resolved, and
written with as few escapes as the syntax allows. -/
namespace TopicReader.Json.Text

/-- What the bytes read so far have begun. A leading surrogate waits for the escape of its
partner. -/
inductive Part where
  | plain
  | escape
  | hex (leading : Option Nat) (count value : Nat)
  | partner (leading : Nat)
  | partnerLetter (leading : Nat)
  deriving DecidableEq, Repr

def isLeading (n : Nat) : Bool := 0xD800 ≤ n && n ≤ 0xDBFF
def isTrailing (n : Nat) : Bool := 0xDC00 ≤ n && n ≤ 0xDFFF

def join (leading trailing : Nat) : Char :=
  Char.ofNat (0x10000 + (leading - 0xD800) * 0x400 + (trailing - 0xDC00))

/-- Reads through the closing quote. The content read so far is kept in reverse. -/
def read : Part → Bytes → Bytes → Except Failure (Bytes × Bytes)
  | _, _, [] => .error ⟨.malformed, 0⟩
  | .plain, done, b :: rest =>
    if b = 0x22 then .ok (done.reverse, rest)
    else if b = 0x5C then read .escape done rest
    else if b < 0x20 then .error ⟨.malformed, rest.length⟩
    else read .plain (b :: done) rest
  | .escape, done, b :: rest =>
    if b = 0x75 then read (.hex none 0 0) done rest
    else match simpleEscape? b with
      | some c => read .plain (c :: done) rest
      | none => .error ⟨.malformed, rest.length⟩
  | .hex leading count value, done, b :: rest =>
    match hexValue? b with
    | none => .error ⟨.malformed, rest.length⟩
    | some digit =>
      let value := value * 16 + digit
      if count < 3 then read (.hex leading (count + 1) value) done rest
      else match leading with
        | none =>
          if isTrailing value then .error ⟨.loneLeadingSurrogate, rest.length⟩
          else if isLeading value then read (.partner value) done rest
          else read .plain ((String.utf8EncodeChar (Char.ofNat value)).reverse ++ done) rest
        | some leading =>
          if isTrailing value then
            read .plain ((String.utf8EncodeChar (join leading value)).reverse ++ done) rest
          else .error ⟨.loneLeadingSurrogate, rest.length⟩
  | .partner leading, done, b :: rest =>
    if b = 0x5C then read (.partnerLetter leading) done rest
    else .error ⟨.unexpectedEndOfHexEscape, rest.length⟩
  | .partnerLetter leading, done, b :: rest =>
    if b = 0x75 then read (.hex (some leading) 0 0) done rest
    else .error ⟨.unexpectedEndOfHexEscape, rest.length⟩

/-- The text whose opening quote has been read. Content that is not UTF-8 is refused at the closing
quote, less the part of the content that comes after the fault. -/
def content (s : Bytes) : Except Failure (String × Bytes) := do
  let (bytes, rest) ← read .plain [] s
  match Utf8.decode? bytes with
  | some text => .ok (text, rest)
  | none => .error ⟨.invalidUnicode, rest.length + (bytes.length - Utf8.validLength bytes)⟩

def hexDigit (n : Nat) : Char := if n < 10 then Char.ofNat (48 + n) else Char.ofNat (87 + n)

/-- Quotes, backslashes and control characters are escaped, and nothing else. -/
def escape (c : Char) : List Char :=
  if c = '"' then ['\\', '"']
  else if c = '\\' then ['\\', '\\']
  else if c = '\n' then ['\\', 'n']
  else if c = '\r' then ['\\', 'r']
  else if c = '\t' then ['\\', 't']
  else if c = '\x08' then ['\\', 'b']
  else if c = '\x0c' then ['\\', 'f']
  else if c.toNat < 0x20 then
    ['\\', 'u', '0', '0', hexDigit (c.toNat / 16), hexDigit (c.toNat % 16)]
  else [c]

def quoted (s : String) : List Char := '"' :: s.toList.flatMap escape ++ ['"']

end TopicReader.Json.Text
