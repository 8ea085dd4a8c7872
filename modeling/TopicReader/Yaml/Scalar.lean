import TopicReader.Text.Hex
import TopicReader.Yaml.Source

/-! The text of scalars: plain, in quotes, or in a block of lines. Line breaks between words fold: a
single one becomes a space, and of several the first is dropped. -/
namespace TopicReader.Yaml

/-- The white space since the last character of content. The blanks around a line break are lost; a
break that is escaped leaves nothing behind. -/
inductive Gap where
  | blanks (s : List Char)
  | breaks (first : Option Char) (more : List Char)
  deriving DecidableEq, Repr

namespace Gap

def empty : Gap := .blanks []

def isBroken : Gap → Bool
  | .blanks _ => false
  | .breaks .. => true

def blank (c : Char) : Gap → Gap
  | .blanks s => .blanks (s ++ [c])
  | g => g

def lineBreak (c : Char) : Gap → Gap
  | .blanks _ => .breaks (some c) []
  | .breaks first more => .breaks first (more ++ [c])

/-- What the gap is worth between two words. Only a line feed folds. -/
def text : Gap → List Char
  | .blanks s => s
  | .breaks none more => more
  | .breaks (some '\n') [] => [' ']
  | .breaks (some '\n') more => more
  | .breaks (some c) more => c :: more

end Gap

def isFlowIndicator (c : Char) : Bool := ",[]\x7b\x7d".toList.contains c

/-- What may not follow a colon inside a word in brackets. -/
def isAfterColon (c : Char) : Bool := isFlowIndicator c || c = '?'

namespace Scalar

/-- Whether a plain scalar ends before a character that is not white space. -/
def plainEnds (flow : Bool) (margin : Nat) (gap : Gap) (s : Source) : Bool :=
  match s with
  | [] => true
  | c :: rest =>
    (!flow && gap.isBroken && decide (c.column < margin)) || Source.atMarker s ||
      (c.char = '#' && gap != .empty) || (c.char = ':' && Source.atGap rest) ||
      (flow && isFlowIndicator c.char)

/-- Reads a plain scalar, whose lines keep to the margin outside brackets. Also tells whether it
ends after a line break. -/
def plain (flow : Bool) (margin : Nat) : Gap → List Char → Source →
    Option (List Char × Bool × Source)
  | gap, text, [] => some (text.reverse, gap.isBroken, [])
  | gap, text, c :: s =>
    if isBlank c.char then
      if gap.isBroken ∧ c.column < margin ∧ c.char = '\t' then none
      else plain flow margin (gap.blank c.char) text s
    else if isBreak c.char then plain flow margin (gap.lineBreak c.char) text s
    else if plainEnds flow margin gap (c :: s) then some (text.reverse, gap.isBroken, c :: s)
    else if flow ∧ c.char = ':' ∧ Source.startsWith isAfterColon s then none
    else plain flow margin .empty (c.char :: (gap.text.reverse ++ text)) s

/-- Where a reader of quoted text stands: in the text, behind a backslash, or inside the digits of
an escape. -/
inductive QuotedState where
  | text (gap : Gap)
  | escape
  | digits (left value : Nat)
  deriving DecidableEq, Repr

/-- The escapes that stand for one character. -/
def escapes : List (Char × Char) :=
  [('0', '\x00'), ('a', '\x07'), ('b', '\x08'), ('t', '\t'), ('\t', '\t'), ('n', '\n'),
    ('v', '\x0b'), ('f', '\x0c'), ('r', '\r'), ('e', '\x1b'), (' ', ' '), ('\x22', '\x22'),
    ('/', '/'), ('\\', '\\'), ('N', '\u0085'), ('_', '\u00A0'), ('L', '\u2028'), ('P', '\u2029')]

/-- The escapes that are followed by a number in hexadecimal, with the count of its digits. -/
def numbered : List (Char × Nat) := [('x', 2), ('u', 4), ('U', 8)]

/-- The character of a number, if it is one. -/
def char? (n : Nat) : Option Char := if n.isValidChar then some (Char.ofNat n) else none

/-- Reads text in single quotes, where a quote is doubled, or in double quotes, where a backslash
escapes. No line of it may look like the border of a document. -/
def quoted (double : Bool) : QuotedState → List Char → Source → Option (List Char × Source)
  | _, _, [] => none
  | .text gap, text, c :: s =>
    if isBlank c.char then quoted double (.text (gap.blank c.char)) text s
    else if isBreak c.char then quoted double (.text (gap.lineBreak c.char)) text s
    else if Source.atMarker (c :: s) then none
    else
      let text := gap.text.reverse ++ text
      if double then
        if c.char = '\x22' then some (text.reverse, s)
        else if c.char = '\\' then quoted double .escape text s
        else quoted double (.text .empty) (c.char :: text) s
      else if c.char = '\x27' then
        match s with
        | d :: s =>
          if d.char = '\x27' then quoted double (.text .empty) ('\x27' :: text) s
          else some (text.reverse, d :: s)
        | [] => some (text.reverse, [])
      else quoted double (.text .empty) (c.char :: text) s
  | .escape, text, c :: s =>
    if isBreak c.char then quoted double (.text (.breaks none [])) text s
    else match escapes.lookup c.char, numbered.lookup c.char with
      | some d, _ => quoted double (.text .empty) (d :: text) s
      | none, some count => quoted double (.digits count 0) text s
      | none, none => none
  | .digits left value, text, c :: s =>
    match Hex.value? c.char with
    | none => none
    | some d =>
      if left ≤ 1 then
        match char? (value * 16 + d) with
        | some e => quoted double (.text .empty) (e :: text) s
        | none => none
      else quoted double (.digits (left - 1) (value * 16 + d)) text s

/-- What becomes of the line breaks at the end of a block. -/
inductive Chomp where
  | clip
  | strip
  | keep
  deriving DecidableEq, Repr

def chomp? : Char → Option Chomp
  | '-' => some .strip
  | '+' => some .keep
  | _ => none

def indentation? (c : Char) : Option Nat := (Hex.value? c).filter fun n => 1 ≤ n && n ≤ 9

/-- The signs behind the indicator of a block, in either order, and the rest of its line. -/
def blockHeader (s : Source) : Option (Chomp × Option Nat × Source) :=
  let first := s.head?.map (·.char)
  let second := s.tail.head?.map (·.char)
  let (chomp, indentation, count) :=
    match first.bind chomp?, first.bind indentation? with
    | some c, _ => match second.bind indentation? with
      | some n => (c, some n, 2)
      | none => (c, none, 1)
    | none, some n => match second.bind chomp? with
      | some c => (c, some n, 2)
      | none => (.clip, some n, 1)
    | none, none => (.clip, none, 0)
  (Source.nextLine? (s.drop count)).map fun rest => (chomp, indentation, rest)

/-- The column at which the content of a block starts, beyond the margin: that of its first line with
content or of the widest blank line before it. No tab may indent it. The numbers are the widest line
so far and the width of the current one. -/
def blockColumn? (margin : Nat) : Nat → Nat → Source → Option Nat
  | widest, width, [] => some (max (max widest width) (max margin 1))
  | widest, width, c :: s =>
    if c.char = ' ' then blockColumn? margin widest (width + 1) s
    else if c.char = '\t' then none
    else if isBreak c.char then blockColumn? margin (max widest width) 0 s
    else some (max (max widest width) (max margin 1))

/-- The text of a block so far, in reverse, and what its last line leaves open: the break that ends
it, the empty lines after it, and whether it starts with a blank. -/
structure BlockText where
  text : List Char := []
  lead : Option Char := none
  more : List Char := []
  indented : Bool := false
  deriving DecidableEq, Repr

/-- Starts a line of content. Between two lines that do not start with a blank the break folds. -/
def BlockText.start (literal : Bool) (b : BlockText) (c : Char) : BlockText :=
  let indented := isBlank c
  let lead := if !literal && b.lead = some '\n' && !b.indented && !indented then
      if b.more = [] then [' '] else []
    else b.lead.toList
  { text := c :: (b.more ++ lead ++ b.text), indented }

def BlockText.finish (chomp : Chomp) (b : BlockText) : List Char :=
  let lead := if chomp = .strip then [] else b.lead.toList
  let more := if chomp = .keep then b.more else []
  (more ++ lead ++ b.text).reverse

/-- Reads the lines of a block whose content starts at a column; the flag says whether the reader is
inside a line. -/
def blockLines (literal : Bool) (column : Nat) : Bool → BlockText → Source →
    Option (BlockText × Source)
  | _, b, [] => some (b, [])
  | true, b, c :: s =>
    if isBreak c.char then blockLines literal column false { b with lead := some c.char } s
    else blockLines literal column true { b with text := c.char :: b.text } s
  | false, b, c :: s =>
    if c.column < column ∧ c.char = ' ' then blockLines literal column false b s
    else if c.column < column ∧ c.char = '\t' then none
    else if isBreak c.char then
      blockLines literal column false { b with more := c.char :: b.more } s
    else if c.column = column then blockLines literal column true (b.start literal c.char) s
    else some (b, c :: s)

/-- Reads a block scalar behind its indicator. The margin is one past the column of the enclosing
block; a stated indentation counts from that column, or from zero at the top. -/
def block (literal : Bool) (margin : Nat) (s : Source) : Option (List Char × Source) := do
  let (chomp, indentation, s) ← blockHeader s
  let column ← match indentation with
    | some n => some (margin - 1 + n)
    | none => blockColumn? margin 0 0 s
  let (b, s) ← blockLines literal column false {} s
  return (b.finish chomp, s)

end Scalar
end TopicReader.Yaml
