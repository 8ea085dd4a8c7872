/-! The text of a document as characters that know where they stand. -/
namespace TopicReader.Yaml

/-- A character with its line, its column and the bytes that the line holds before it, all counted
from zero. -/
structure Placed where
  char : Char
  line : Nat
  column : Nat
  offset : Nat
  deriving DecidableEq, Repr

abbrev Source := List Placed

/-- The characters that a document may hold. -/
def isAllowed (c : Char) : Bool :=
  c = '\t' || c = '\n' || c = '\r' || c = '\u0085' || ('\u0020' ≤ c && c ≤ '\u007E') ||
    ('\u00A0' ≤ c && c ≤ '\uFFFD') || 0x10000 ≤ c.toNat

def isBlank (c : Char) : Bool := c = ' ' || c = '\t'

def isBreak (c : Char) : Bool := c = '\n' || c = '\u2028' || c = '\u2029'

/-- The characters of anchors, of tag handles and of the names of directives. -/
def isNameChar (c : Char) : Bool := c.isAlphanum || c = '_' || c = '-'

/-- All line ends but the two separators of Unicode count as the same line feed. -/
def unifyBreaks : List Char → List Char
  | [] => []
  | '\r' :: '\n' :: s => '\n' :: unifyBreaks s
  | c :: s => (if c = '\r' ∨ c = '\u0085' then '\n' else c) :: unifyBreaks s

def place : Nat → Nat → Nat → List Char → Source
  | _, _, _, [] => []
  | line, column, offset, c :: s =>
    ⟨c, line, column, offset⟩ ::
      if isBreak c then place (line + 1) 0 0 s else place line (column + 1) (offset + c.utf8Size) s

namespace Source

def ofString? (s : String) : Option Source :=
  if s.toList.all isAllowed then some (place 0 0 0 (unifyBreaks s.toList)) else none

def chars (s : Source) : List Char := s.map (·.char)

/-- Whether the first character, if there is one, passes a test. -/
def startsWith (p : Char → Bool) : Source → Bool
  | [] => false
  | c :: _ => p c.char

/-- Whether a word ends here: at white space or at the end of the text. -/
def atGap (s : Source) : Bool := s.isEmpty || startsWith (fun c => isBlank c || isBreak c) s

/-- Three dashes or three dots on their own at the start of a line divide documents. -/
def atMarker : Source → Bool
  | a :: b :: c :: s =>
    a.column = 0 && a.char = b.char && b.char = c.char && (a.char = '-' || a.char = '.') && atGap s
  | _ => false

/-- What follows the blanks and the comment that may end a line; nothing else may. -/
def nextLine? (s : Source) : Option Source :=
  let s : Source := s.dropWhile (isBlank ·.char)
  match if startsWith (· = '#') s then s.dropWhile (!isBreak ·.char) else s with
  | [] => some []
  | c :: s => if isBreak c.char then some s else none

end Source
end TopicReader.Yaml
