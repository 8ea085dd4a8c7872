import TopicReader.Text.Utf8

/-! A check of JSON syntax that builds nothing: a machine that reads one byte at a time and keeps a
stack of the open containers. It bounds neither nesting nor numbers, and it looks into neither the
code points of escapes nor the encoding of texts. -/
namespace TopicReader.Json

def isSpace (b : UInt8) : Bool := b = 0x20 || b = 0x09 || b = 0x0A || b = 0x0D

def isDigit (b : UInt8) : Bool := 0x30 ≤ b && b ≤ 0x39

def hexValue? (b : UInt8) : Option Nat :=
  if 0x30 ≤ b ∧ b ≤ 0x39 then some (b.toNat - 0x30)
  else if 0x61 ≤ b ∧ b ≤ 0x66 then some (b.toNat - 0x57)
  else if 0x41 ≤ b ∧ b ≤ 0x46 then some (b.toNat - 0x37)
  else none

/-- What a backslash followed by this letter stands for; the letter `u` is not among them. -/
def simpleEscape? (b : UInt8) : Option UInt8 :=
  if b = 0x22 ∨ b = 0x5C ∨ b = 0x2F then some b
  else if b = 0x62 then some 0x08
  else if b = 0x66 then some 0x0C
  else if b = 0x6E then some 0x0A
  else if b = 0x72 then some 0x0D
  else if b = 0x74 then some 0x09
  else none

namespace Scan

inductive Container where
  | array
  | object
  deriving DecidableEq, Repr

/-- What may come between two tokens. -/
inductive Expected where
  | value
  | firstItem
  | firstName
  | name
  | colon
  | separator
  deriving DecidableEq, Repr

inductive NumberPart where
  | sign
  | zero
  | digits
  | point
  | fraction
  | mark
  | markSign
  | power
  deriving DecidableEq, Repr

/-- Where a number stands after one more byte, if that still belongs to it. -/
def NumberPart.next : NumberPart → UInt8 → Option NumberPart
  | .sign, b => if b = 0x30 then some .zero else if isDigit b then some .digits else none
  | .zero, b =>
    if b = 0x2E then some .point else if b = 0x65 ∨ b = 0x45 then some .mark else none
  | .digits, b =>
    if isDigit b then some .digits else if b = 0x2E then some .point
    else if b = 0x65 ∨ b = 0x45 then some .mark else none
  | .point, b => if isDigit b then some .fraction else none
  | .fraction, b =>
    if isDigit b then some .fraction else if b = 0x65 ∨ b = 0x45 then some .mark else none
  | .mark, b =>
    if b = 0x2B ∨ b = 0x2D then some .markSign else if isDigit b then some .power else none
  | .markSign, b => if isDigit b then some .power else none
  | .power, b => if isDigit b then some .power else none

/-- Whether a number may end here. -/
def NumberPart.complete : NumberPart → Bool
  | .zero | .digits | .fraction | .power => true
  | .sign | .point | .mark | .markSign => false

inductive Mode where
  | between (expected : Expected)
  | text (isName : Bool)
  | escape (isName : Bool)
  | hex (isName : Bool) (left : Nat)
  | number (part : NumberPart)
  | literal (rest : Bytes)
  deriving DecidableEq, Repr

structure State where
  stack : List Container
  mode : Mode
  deriving DecidableEq, Repr

def State.start : State := ⟨[], .between .value⟩

/-- The first byte of a value. -/
def beginValue (stack : List Container) (b : UInt8) : Option State :=
  if b = 0x7B then some ⟨.object :: stack, .between .firstName⟩
  else if b = 0x5B then some ⟨.array :: stack, .between .firstItem⟩
  else if b = 0x22 then some ⟨stack, .text false⟩
  else if b = 0x2D then some ⟨stack, .number .sign⟩
  else if b = 0x30 then some ⟨stack, .number .zero⟩
  else if isDigit b then some ⟨stack, .number .digits⟩
  else if b = 0x74 then some ⟨stack, .literal [0x72, 0x75, 0x65]⟩
  else if b = 0x66 then some ⟨stack, .literal [0x61, 0x6C, 0x73, 0x65]⟩
  else if b = 0x6E then some ⟨stack, .literal [0x75, 0x6C, 0x6C]⟩
  else none

/-- The byte after a value: a comma, or the end of the container around it. -/
def separate (stack : List Container) (b : UInt8) : Option State :=
  match stack with
  | .array :: outer =>
    if b = 0x2C then some ⟨stack, .between .value⟩
    else if b = 0x5D then some ⟨outer, .between .separator⟩ else none
  | .object :: outer =>
    if b = 0x2C then some ⟨stack, .between .name⟩
    else if b = 0x7D then some ⟨outer, .between .separator⟩ else none
  | [] => none

def between (stack : List Container) (expected : Expected) (b : UInt8) : Option State :=
  if isSpace b then some ⟨stack, .between expected⟩
  else match expected with
    | .value => beginValue stack b
    | .firstItem => if b = 0x5D then some ⟨stack.tail, .between .separator⟩ else beginValue stack b
    | .firstName =>
      if b = 0x7D then some ⟨stack.tail, .between .separator⟩
      else if b = 0x22 then some ⟨stack, .text true⟩ else none
    | .name => if b = 0x22 then some ⟨stack, .text true⟩ else none
    | .colon => if b = 0x3A then some ⟨stack, .between .value⟩ else none
    | .separator => separate stack b

def step (s : State) (b : UInt8) : Option State :=
  match s.mode with
  | .between expected => between s.stack expected b
  | .text isName =>
    if b = 0x22 then some ⟨s.stack, .between (if isName then .colon else .separator)⟩
    else if b = 0x5C then some ⟨s.stack, .escape isName⟩
    else if b < 0x20 then none else some s
  | .escape isName =>
    if b = 0x75 then some ⟨s.stack, .hex isName 4⟩
    else (simpleEscape? b).map fun _ => ⟨s.stack, .text isName⟩
  | .hex isName left =>
    (hexValue? b).map fun _ => ⟨s.stack, if left ≤ 1 then .text isName else .hex isName (left - 1)⟩
  | .number part =>
    match part.next b with
    | some next => some ⟨s.stack, .number next⟩
    | none => if part.complete then between s.stack .separator b else none
  | .literal rest =>
    match rest with
    | [] => between s.stack .separator b
    | [c] => if b = c then some ⟨s.stack, .between .separator⟩ else none
    | c :: more => if b = c then some ⟨s.stack, .literal more⟩ else none

def State.accepting (s : State) : Bool :=
  s.stack.isEmpty && match s.mode with
    | .between .separator => true
    | .number part => part.complete
    | _ => false

def run (s : State) (bytes : Bytes) : Option State := bytes.foldlM step s

end Scan

/-- Whether the bytes are one JSON value with white space around it. -/
def wellFormed (bytes : Bytes) : Bool := (Scan.run .start bytes).any Scan.State.accepting

end TopicReader.Json
