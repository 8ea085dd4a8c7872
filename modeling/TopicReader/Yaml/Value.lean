import TopicReader.Text.Decimal
import TopicReader.Yaml.Document

/-! Values read off the nodes of a document. What is written in quotes is text; only plain words can
be numbers, flags or nothing at all. -/
namespace TopicReader.Yaml

/-- The tag of a kind of value that the language itself knows. -/
def coreTag (name : String) : Bytes := Utf8.encode ("tag:yaml.org,2002:" ++ name)

def isNull (text : String) : Bool := ["null", "Null", "NULL", "~"].contains text

def flag? (text : String) : Option Bool :=
  if ["true", "True", "TRUE"].contains text then some true
  else if ["false", "False", "FALSE"].contains text then some false
  else none

/-- A number in some base; it has at least one digit. -/
def digits? (base : Nat) (s : List Char) : Option Nat :=
  if s = [] then none
  else s.foldlM (fun n c => ((Hex.value? c).filter (· < base)).map (n * base + ·)) 0

/-- A whole number with an optional plus sign: in base 16, 8 or 2 behind its sign, or in base 10
without leading zeros. -/
def natural? (text : String) : Option Nat :=
  let unsigned := match text.toList with
    | '+' :: s => s
    | s => s
  match unsigned with
  | '0' :: 'x' :: s => digits? 16 s
  | '0' :: 'o' :: s => digits? 8 s
  | '0' :: 'b' :: s => digits? 2 s
  | '0' :: _ :: _ => none
  | s => digits? 10 s

namespace Document

variable (d : Document)

/-- The text of any scalar, whatever its style and its tag. -/
def text? (n : Node) : Option String :=
  match d.follow n with
  | some (.scalar _ text _) => some text
  | _ => none

/-- The text of a scalar that may be a value of a core kind: a plain one, or a literal block with
the tag of that kind. -/
def word? (kind : String) (n : Node) : Option String :=
  match d.follow n with
  | some (.scalar _ text .plain) => some text
  | some (.scalar p text .literal) => if p.tag = some (coreTag kind) then some text else none
  | _ => none

def bool? (n : Node) : Option Bool := (d.word? "bool" n).bind flag?

/-- A count that fits into 64 bits. -/
def count? (n : Node) : Option Nat := ((d.word? "int" n).bind natural?).filter (· < pow2 64)

/-- The name that a tag of the document's own gives. -/
def localName? (tag : Option Bytes) : Option String :=
  match tag with
  | some (0x21 :: name) => Utf8.decode? name
  | _ => none

/-- One of a set of names, written as a scalar or as the tag of an empty one. -/
def choice? {α : Type} (ofName? : String → Option α) (n : Node) : Option α :=
  match d.follow n with
  | some (.scalar p text style) =>
    match localName? p.tag with
    | none => ofName? text
    | some name => if style = .plain ∧ (text = "" ∨ isNull text) then ofName? name else none
  | _ => none

/-- A value that may be missing: a plain scalar is missing if it is empty or null, unless it has a
tag of another kind. -/
def optional? {α : Type} (read : Node → Option α) (n : Node) : Option (Option α) :=
  match d.follow n with
  | some (.scalar { tag := none, .. } text .plain) =>
    if text = "" ∨ isNull text then some none else (read n).map some
  | some (.scalar { tag := some tag, .. } text .plain) =>
    if tag = coreTag "null" then if isNull text then some none else none
    else (read n).map some
  | _ => (read n).map some

/-- The entries of a mapping, whose keys are scalars. A plain scalar that is empty is a mapping
without entries. -/
def entries? (n : Node) : Option (List (String × Node)) :=
  match d.follow n with
  | some (.mapping _ entries) => entries.mapM fun (k, v) => (d.text? k).map (·, v)
  | some (.scalar _ "" .plain) => some []
  | _ => none

end Document

/-- The value of an entry, or what stands for it where there is none. No entry may be given
twice. -/
def entry? {α : Type} (entries : List (String × Node)) (name : String) (read : Node → Option α)
    (missing : Option α) : Option α :=
  match entries.filter (·.1 = name) with
  | [] => missing
  | [(_, n)] => read n
  | _ => none

end TopicReader.Yaml
