import TopicReader.Yaml.Token

/-! The tree that the tokens of a document describe. An alias refers to an anchored node by number,
so a node may refer to itself. -/
namespace TopicReader.Yaml

/-- What may stand in front of a node: its tag in full, and the number of its anchor. -/
structure Properties where
  tag : Option Bytes := none
  anchor : Option Nat := none
  deriving DecidableEq, Repr

inductive Node where
  | scalar (properties : Properties) (text : String) (style : Style)
  | sequence (properties : Properties) (items : List Node)
  | mapping (properties : Properties) (entries : List (Node × Node))
  | alias (number : Nat)
  deriving Repr

namespace Node

/-- The node that stands where none is written. -/
def empty (properties : Properties := {}) : Node := .scalar properties "" .plain

/-- What is left to read, and the names of the anchors so far with their numbers. -/
structure Rest where
  tokens : List Token
  names : List (String × Nat) := []

abbrev Reader := StateT Rest Option

namespace Reader

def peek : Reader (Option Token) := return (← get).tokens.head?

def advance : Reader Unit := modify fun r => { r with tokens := r.tokens.tail }

/-- Takes the next token if it is the given one. -/
def accept (t : Token) : Reader Bool := do
  if (← peek) = some t then
    advance
    return true
  else return false

def expect (t : Token) : Reader Unit := do
  if ¬ (← accept t) then failure

/-- Whether one of the given tokens is next. -/
def isAt (ts : List Token) : Reader Bool := do
  match ← peek with
  | some t => return ts.contains t
  | none => return false

/-- An anchor takes the number of names that are in use before it, also where it gives a name
anew. -/
def bind (name : String) : Reader Nat := do
  let r ← get
  let number := r.names.length
  set { r with names := (name, number) :: r.names.filter (·.1 ≠ name) }
  return number

end Reader

/-- The handles of tags and what they stand for. -/
abbrev Handles := List (String × Bytes)

def Handles.standard : Handles := [("!", Utf8.encode "!"), ("!!", Utf8.encode "tag:yaml.org,2002:")]

def fullTag? (handles : Handles) (t : Tag) : Option Bytes :=
  if t.handle = "" then some t.rest else (handles.lookup t.handle).map (· ++ t.rest)

open Reader

def anchorName? : Reader (Option String) := do
  match ← peek with
  | some (.anchor name) =>
    advance
    return some name
  | _ => return none

def tag? : Reader (Option Tag) := do
  match ← peek with
  | some (.tag t) =>
    advance
    return some t
  | _ => return none

/-- An anchor and a tag, at most one of each and in either order. -/
def prologue (handles : Handles) : Reader (Option String × Option Bytes) := do
  let before ← anchorName?
  let tag ← tag?
  let anchor ← match before with
    | some name => pure (some name)
    | none => if tag.isSome then anchorName? else pure none
  match tag with
  | none => return (anchor, none)
  | some t => return (anchor, some (← fullTag? handles t))

def properties (anchor : Option String) (tag : Option Bytes) : Reader Properties := do
  match anchor with
  | none => return { tag }
  | some name => return { tag, anchor := some (← Reader.bind name) }

/-- A node with nothing but an anchor or a tag. -/
def absent (anchor : Option String) (tag : Option Bytes) : Reader Node := do
  if anchor.isNone ∧ tag.isNone then failure
  else return empty (← properties anchor tag)

mutual

/-- Reads a node. Inside a block it may be a block of its own, and as the value of a key a sequence
that is not indented. -/
def read (handles : Handles) : Nat → Bool → Bool → Reader Node
  | 0, _, _ => failure
  | fuel + 1, inBlock, unindented => do
    if let some (.alias name) ← peek then
      advance
      return .alias (← (← get).names.lookup name)
    let (anchor, tag) ← prologue handles
    let next ← peek
    if unindented ∧ next = some .dash then
      return .sequence (← properties anchor tag) (← dashes handles fuel)
    match next with
    | some (.scalar text style) =>
      advance
      return .scalar (← properties anchor tag) text style
    | some .openSequence =>
      advance
      return .sequence (← properties anchor tag) (← flowItems handles fuel true)
    | some .openMapping =>
      advance
      return .mapping (← properties anchor tag) (← flowEntries handles fuel true)
    | some .blockSequence =>
      if inBlock then
        advance
        return .sequence (← properties anchor tag) (← blockItems handles fuel)
      else absent anchor tag
    | some .blockMapping =>
      if inBlock then
        advance
        return .mapping (← properties anchor tag) (← blockEntries handles fuel)
      else absent anchor tag
    | _ => absent anchor tag

/-- Reads a node unless one of the given tokens, or nothing, shows that none is written. -/
def readUnless (handles : Handles) (ends : List Token) : Nat → Bool → Bool → Reader Node
  | 0, _, _ => failure
  | fuel + 1, inBlock, unindented => do
    if ← isAt ends then return empty else read handles fuel inBlock unindented

def blockItems (handles : Handles) : Nat → Reader (List Node)
  | 0 => failure
  | fuel + 1 => do
    if ← accept .dash then
      let item ← readUnless handles [.dash, .blockEnd] fuel true false
      return item :: (← blockItems handles fuel)
    else
      expect .blockEnd
      return []

/-- Reads a sequence in the column of the key it belongs to; it ends with the first token that is no
dash. -/
def dashes (handles : Handles) : Nat → Reader (List Node)
  | 0 => failure
  | fuel + 1 => do
    if ← accept .dash then
      let item ← readUnless handles [.dash, .key, .value, .blockEnd] fuel true false
      return item :: (← dashes handles fuel)
    else return []

def blockEntries (handles : Handles) : Nat → Reader (List (Node × Node))
  | 0 => failure
  | fuel + 1 => do
    if ← accept .blockEnd then return []
    expect .key
    let ends := [.key, .value, .blockEnd]
    let key ← readUnless handles ends fuel true true
    let value ← if ← accept .value then readUnless handles ends fuel true true else pure empty
    return (key, value) :: (← blockEntries handles fuel)

/-- Reads the rest of a sequence in brackets. An item may be a single entry of a mapping; a key that
is announced there and missing takes the token after it along. -/
def flowItems (handles : Handles) : Nat → Bool → Reader (List Node)
  | 0, _ => failure
  | fuel + 1, first => do
    if ← accept .closeSequence then return []
    if ¬ first then expect .comma
    if ← accept .closeSequence then return []
    if ← accept .key then
      let key ← if ← isAt [.value, .comma, .closeSequence] then do
          advance
          pure empty
        else read handles fuel false false
      let value ← if ← accept .value then
          readUnless handles [.comma, .closeSequence] fuel false false
        else pure empty
      return .mapping {} [(key, value)] :: (← flowItems handles fuel false)
    let item ← read handles fuel false false
    return item :: (← flowItems handles fuel false)

/-- Reads the rest of a mapping in brackets, where a key may stand without a value. -/
def flowEntries (handles : Handles) : Nat → Bool → Reader (List (Node × Node))
  | 0, _ => failure
  | fuel + 1, first => do
    if ← accept .closeMapping then return []
    if ¬ first then expect .comma
    if ← accept .closeMapping then return []
    if ← accept .key then
      let ends := [.value, .comma, .closeMapping]
      let key ← readUnless handles ends fuel false false
      let value ← if ← accept .value then
          readUnless handles [.comma, .closeMapping] fuel false false
        else pure empty
      return (key, value) :: (← flowEntries handles fuel false)
    let key ← read handles fuel false false
    return (key, empty) :: (← flowEntries handles fuel false)

end

end Node
end TopicReader.Yaml
