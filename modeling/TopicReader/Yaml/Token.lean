import TopicReader.Yaml.Tag

/-! The tokens of a stream: the borders of documents and of blocks, which indentation sets, besides
the signs and the scalars that are written. -/
namespace TopicReader.Yaml

inductive Style where
  | plain
  | single
  | double
  | literal
  | folded
  deriving DecidableEq, Repr

inductive Token where
  | version (major minor : Nat)
  | tagDirective (handle : String) (start : Bytes)
  | documentStart
  | documentEnd
  | blockSequence
  | blockMapping
  | blockEnd
  | openSequence
  | closeSequence
  | openMapping
  | closeMapping
  | comma
  | dash
  | key
  | value
  | alias (name : String)
  | anchor (name : String)
  | tag (tag : Tag)
  | scalar (text : String) (style : Style)
  deriving DecidableEq, Repr

/-- Marks a place where a key starts if a colon follows on the same line. -/
inductive Piece where
  | token (t : Token)
  | candidate (number : Nat)
  deriving DecidableEq, Repr

/-- The candidates that turned out to be keys, each with whether it opens a mapping. -/
abbrev Keys := List (Nat × Bool)

def Piece.tokens (keys : Keys) : Piece → List Token
  | .token t => [t]
  | .candidate n =>
    match keys.lookup n with
    | none => []
    | some false => [.key]
    | some true => [.blockMapping, .key]

end TopicReader.Yaml
