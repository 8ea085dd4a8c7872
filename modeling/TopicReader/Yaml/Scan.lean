import TopicReader.Yaml.Scalar
import TopicReader.Yaml.Token

/-! Cutting a text into tokens. Outside brackets the column of a line opens and closes blocks. A key
shows only by the colon behind it, so each place where one may start is noted and settled later. -/
namespace TopicReader.Yaml

/-- A place where a key may start. It is required where nothing else may stand: in the column of the
enclosing block. -/
structure Candidate where
  number : Nat
  required : Bool
  line : Nat
  column : Nat
  offset : Nat
  deriving DecidableEq, Repr

namespace Candidate

/-- How many bytes a key may take that no question mark announces. -/
def keyLimit : Nat := 1024

/-- Whether the key that may have started at a candidate can end here. -/
def reaches (c : Candidate) (p : Placed) : Bool :=
  c.line = p.line && p.offset ≤ c.offset + keyLimit

end Candidate

/-- The columns of the open blocks and the candidates of the open brackets, each innermost first. -/
structure Scanner where
  pieces : List Piece := []
  keys : Keys := []
  candidates : Nat := 0
  blocks : List Nat := []
  brackets : List (Option Candidate) := []
  candidate : Option Candidate := none
  keyAllowed : Bool := true
  deriving DecidableEq, Repr

namespace Scanner

def inFlow (k : Scanner) : Bool := !k.brackets.isEmpty

/-- The least column of the lines inside the current block. -/
def margin (k : Scanner) : Nat :=
  match k.blocks with
  | [] => 0
  | column :: _ => column + 1

def emit (t : Token) (k : Scanner) : Scanner := { k with pieces := .token t :: k.pieces }

/-- Opens a block at a column to the right of the current one. -/
def roll (column : Nat) (t : Token) (k : Scanner) : Scanner :=
  if k.inFlow ∨ column < k.margin then k
  else { k.emit t with blocks := column :: k.blocks }

/-- Closes blocks, as many as the test takes. -/
def unroll (p : Nat → Bool) (k : Scanner) : Scanner :=
  if k.inFlow then k
  else { k with blocks := k.blocks.dropWhile p,
                pieces := (k.blocks.takeWhile p).map (fun _ => .token .blockEnd) ++ k.pieces }

/-- Gives up the current candidate; a required one cannot be given up. -/
def dropCandidate (k : Scanner) : Option Scanner :=
  if (k.candidate.map (·.required)).getD false then none else some { k with candidate := none }

/-- Notes that a key may start here. -/
def noteCandidate (p : Placed) (k : Scanner) : Option Scanner := do
  if ¬ k.keyAllowed then return k
  let k ← k.dropCandidate
  return { k with
    candidate := some {
      number := k.candidates
      required := !k.inFlow && k.blocks.head? = some p.column
      line := p.line
      column := p.column
      offset := p.offset }
    candidates := k.candidates + 1
    pieces := .candidate k.candidates :: k.pieces }

/-- A colon settles the current candidate, or stands for itself where a key was announced. -/
def colon (p : Placed) (k : Scanner) : Option Scanner :=
  match k.candidate.filter (·.reaches p) with
  | some c =>
    let opens := !k.inFlow && k.margin ≤ c.column
    some ({ k with
      keys := (c.number, opens) :: k.keys
      blocks := if opens then c.column :: k.blocks else k.blocks
      candidate := none
      keyAllowed := false }.emit .value)
  | none => do
    let k ← k.dropCandidate
    if k.inFlow then return { k with keyAllowed := false }.emit .value
    else if k.keyAllowed then return (k.roll p.column .blockMapping).emit .value
    else none

def question (p : Placed) (k : Scanner) : Option Scanner := do
  if ¬ k.inFlow ∧ ¬ k.keyAllowed then none
  else
    let k ← (k.roll p.column .blockMapping).dropCandidate
    return { k with keyAllowed := !k.inFlow }.emit .key

def dash (p : Placed) (k : Scanner) : Option Scanner := do
  if ¬ k.inFlow ∧ ¬ k.keyAllowed then none
  else
    let k ← (k.roll p.column .blockSequence).dropCandidate
    return { k with keyAllowed := true }.emit .dash

def openBracket (p : Placed) (t : Token) (k : Scanner) : Option Scanner := do
  let k ← k.noteCandidate p
  return { k with
    brackets := k.candidate :: k.brackets
    candidate := none
    keyAllowed := true }.emit t

/-- A bracket that closes nothing is left for the grammar to refuse. -/
def closeBracket (t : Token) (k : Scanner) : Option Scanner := do
  let k ← k.dropCandidate
  let k := match k.brackets with
    | [] => k
    | c :: outer => { k with candidate := c, brackets := outer }
  return { k with keyAllowed := false }.emit t

def comma (k : Scanner) : Option Scanner := do
  return { ← k.dropCandidate with keyAllowed := true }.emit .comma

/-- Closes all blocks, as the border of a document does. -/
def border (k : Scanner) : Option Scanner := do
  return { ← (k.unroll fun _ => true).dropCandidate with keyAllowed := false }

/-- A number of at most nine digits. -/
def versionNumber (s : Source) : Option (Nat × Source) :=
  let digits := s.chars.takeWhile Char.isDigit
  if digits = [] ∨ 9 < digits.length then none
  else some (digits.foldl (fun n c => n * 10 + (c.toNat - 48)) 0, s.drop digits.length)

/-- Reads a directive behind its percent sign, to the end of the line. -/
def directive (s : Source) : Option (Token × Source) := do
  let name := String.ofList (s.chars.takeWhile isNameChar)
  let rest : Source := s.dropWhile (isNameChar ·.char)
  if ¬ rest.atGap then none
  let s : Source := rest.dropWhile (isBlank ·.char)
  match name with
  | "YAML" =>
    let (major, s) ← versionNumber s
    if ¬ Source.startsWith (· = '.') s then none
    let (minor, s) ← versionNumber (s.drop 1)
    return (.version major minor, ← s.nextLine?)
  | "TAG" =>
    let (handle, s) ← Tag.readHandle s
    if handle.getLast? ≠ some '!' then none
    if ¬ Source.startsWith isBlank s then none
    match ← Tag.readUri true 0 [] (s.dropWhile (isBlank ·.char)) with
    | ([], _) => none
    | (start, s) =>
      if ¬ s.atGap then none
      return (.tagDirective (String.ofList handle) (Tag.upToZero start), ← s.nextLine?)
  | _ => none

/-- Reads the name of an anchor or of an alias. -/
def anchorName (s : Source) : Option (String × Source) :=
  let name := s.chars.takeWhile isNameChar
  let rest : Source := s.drop name.length
  if name ≠ [] ∧ (rest.atGap || Source.startsWith "?:,]\x7d%@\x60".toList.contains rest) then
    some (String.ofList name, rest)
  else none

/-- What cannot start a plain scalar, leaving aside the signs that may when no space follows. -/
def isIndicator (c : Char) : Bool := "-?:,[]\x7b\x7d#&*!|>\x27\x22%@\x60".toList.contains c

def startsPlain (flow : Bool) (c : Char) (rest : Source) : Bool :=
  (!isBlank c && !isIndicator c) || (c = '-' && !Source.startsWith isBlank rest) ||
    (!flow && (c = '?' || c = ':') && !rest.atGap)

/-- Reads the token that starts with a character. -/
def next (k : Scanner) (p : Placed) (rest : Source) : Option (Scanner × Source) := do
  let k := k.unroll (p.column < ·)
  let s : Source := p :: rest
  let c := p.char
  if p.column = 0 ∧ c = '%' then
    let (t, rest) ← directive rest
    return ((← k.border).emit t, rest)
  if s.atMarker then
    return ((← k.border).emit (if c = '-' then .documentStart else .documentEnd), s.drop 3)
  if c = '[' then return (← k.openBracket p .openSequence, rest)
  if c = '\x7b' then return (← k.openBracket p .openMapping, rest)
  if c = ']' then return (← k.closeBracket .closeSequence, rest)
  if c = '\x7d' then return (← k.closeBracket .closeMapping, rest)
  if c = ',' then return (← k.comma, rest)
  if c = '-' ∧ rest.atGap then return (← k.dash p, rest)
  if c = '?' ∧ (k.inFlow ∨ rest.atGap) then return (← k.question p, rest)
  if c = ':' ∧ (k.inFlow ∨ rest.atGap) then return (← k.colon p, rest)
  if (c = '|' ∨ c = '>') ∧ ¬ k.inFlow then
    let k ← k.dropCandidate
    let (text, rest) ← Scalar.block (c = '|') k.margin rest
    let style := if c = '|' then Style.literal else .folded
    return ({ k with keyAllowed := true }.emit (.scalar (String.ofList text) style), rest)
  let k ← k.noteCandidate p
  let done := { k with keyAllowed := false }
  if c = '*' then
    let (name, rest) ← anchorName rest
    return (done.emit (.alias name), rest)
  if c = '&' then
    let (name, rest) ← anchorName rest
    return (done.emit (.anchor name), rest)
  if c = '!' then
    let (tag, rest) ← Tag.read s
    if ¬ rest.atGap ∧ ¬ (k.inFlow ∧ Source.startsWith (· = ',') rest) then none
    return (done.emit (.tag tag), rest)
  if c = '\x27' ∨ c = '\x22' then
    let (text, rest) ← Scalar.quoted (c = '\x22') (.text .empty) [] rest
    let style := if c = '\x22' then Style.double else .single
    return (done.emit (.scalar (String.ofList text) style), rest)
  if startsPlain k.inFlow c rest then
    let (text, broken, rest) ← Scalar.plain k.inFlow k.margin .empty [] s
    return ({ k with keyAllowed := broken }.emit (.scalar (String.ofList text) .plain), rest)
  none

/-- Skips white space and comments. Outside brackets a tab may not stand where a key may start; a
byte order mark at the start of a line takes a column. The flags say whether the reader is inside
brackets, whether it is in a comment and whether a key may start. -/
def skip (flow : Bool) : Bool → Bool → Source → Bool × Source
  | _, allowed, [] => (allowed, [])
  | comment, allowed, p :: s =>
    if p.column = 0 ∧ p.char = '\uFEFF' then skip flow false allowed s
    else if isBreak p.char then skip flow false (allowed || !flow) s
    else if comment then skip flow true allowed s
    else if p.char = ' ' ∨ (p.char = '\t' ∧ (flow ∨ ¬ allowed)) then skip flow false allowed s
    else if p.char = '#' then skip flow true allowed s
    else (allowed, p :: s)

/-- Reads up to `fuel` tokens. Each takes at least one character, so the length of the text and one
more is enough. -/
def run : Nat → Scanner → Source → Option Scanner
  | 0, _, _ => none
  | fuel + 1, k, s =>
    match skip k.inFlow false k.keyAllowed s with
    | (_, []) => k.border
    | (keyAllowed, p :: rest) => do
      let (k, rest) ← { k with keyAllowed }.next p rest
      run fuel k rest

end Scanner

/-- The tokens of a text, if it has any reading. -/
def Source.tokens? (s : Source) : Option (List Token) := do
  let k ← Scanner.run (s.length + 1) {} s
  return k.pieces.reverse.flatMap (Piece.tokens k.keys)

end TopicReader.Yaml
