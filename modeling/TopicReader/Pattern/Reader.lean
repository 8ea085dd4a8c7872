import TopicReader.Pattern.CharClass
import TopicReader.Text.Decimal
import TopicReader.Text.Letter
import TopicReader.Text.LetterCase

/-! Patterns that values are compared with: which texts are patterns. A pattern holds characters,
classes of them, places between them, groups and signs for repetition. -/
namespace TopicReader.Pattern

/-- Why a text is no pattern to compare with. -/
inductive Fault where
  | malformed
  | wordEdge
  deriving DecidableEq, Repr

def Fault.message : Fault → String
  | .malformed => "error building NFA"
  | .wordEdge =>
    "unsupported regex feature for DFAs: cannot build DFAs for regexes with Unicode word " ++
      "boundaries; switch to ASCII word boundaries, or heuristically enable Unicode word " ++
      "boundaries or use a different regex engine"

/-- What a parenthesis begins: a group, perhaps with a name, or other flags from here on. -/
inductive Opening where
  | group (m : Mode) (name : Option (List Char))
  | flags (m : Mode)
  deriving DecidableEq, Repr

namespace Opening

/-- Reads flags up to a colon or a parenthesis, each at most once. -/
def readFlags (m : Mode) (on dangling : Bool) (seen : List Char) :
    List Char → Option (Opening × List Char)
  | [] => none
  | c :: s =>
    if c = ':' ∨ c = ')' then
      if dangling then none
      else if c = ':' then some (.group m none, s)
      else if seen = [] then none
      else some (.flags m, s)
    else if seen.contains c then none
    else if c = '-' then readFlags m false true (c :: seen) s
    else (m.set? c on).bind fun m => readFlags m on false (c :: seen) s

/-- Reads the name of a group. -/
def readName (s : List Char) : Option (List Char × List Char) :=
  let name := s.takeWhile (· ≠ '>')
  let starts := name.head?.any fun c => c = '_' || Text.isAlphabetic c
  let goesOn := name.tail.all fun c => Text.isAlphanumeric c || "_.[]".toList.contains c
  match s.dropWhile (· ≠ '>') with
  | _ :: rest => if starts && goesOn then some (name, rest) else none
  | [] => none

/-- Reads what stands behind a parenthesis; it cannot look around. -/
def read (m : Mode) (s : List Char) : Option (Opening × List Char) :=
  match m.skip s with
  | '?' :: '<' :: '=' :: _ | '?' :: '<' :: '!' :: _ => none
  | '?' :: 'P' :: '<' :: s | '?' :: '<' :: s =>
    (readName s).map fun (name, s) => (.group m (some name), s)
  | '?' :: s => readFlags m true false [] s
  | s => some (.group m none, s)

end Opening

/-- The parts of the current group, the open groups around it with their modes, the names of all
groups, whether there is something to repeat, and whether there is an edge of words that are not of
ASCII alone. -/
structure Reader where
  mode : Mode := {}
  nesting : Nesting := {}
  groups : List (Mode × Nesting) := []
  names : List (List Char) := []
  operand : Bool := false
  wordEdge : Bool := false
  deriving DecidableEq, Repr

namespace Reader

/-- Adds a part that can be repeated. -/
def part (r : Reader) (depth : Nat) : Reader :=
  { r with nesting := r.nesting.part depth, operand := true }

def openGroup (r : Reader) : Opening → Option Reader
  | .flags mode => some { r.part 0 with mode, operand := false }
  | .group mode name =>
    if name.any r.names.contains then none
    else some { r with
      mode
      nesting := {}
      groups := (r.mode, r.nesting) :: r.groups
      names := name.toList ++ r.names
      operand := false }

/-- A group gives way to the mode around it. -/
def closeGroup (r : Reader) : Option Reader :=
  match r.groups with
  | [] => none
  | (mode, nesting) :: groups => some ({ r with mode, nesting, groups }.part (r.nesting.depth + 1))

/-- Reads a part of a pattern. The brace that would end a count of repetitions ends the pattern, so
there are none. -/
def step (r : Reader) (c : Char) (s : List Char) : Option (Reader × List Char) := do
  match c with
  | '(' =>
    let (opening, s) ← Opening.read r.mode s
    return (← r.openGroup opening, s)
  | ')' => return (← r.closeGroup, s)
  | '|' => return ({ r with nesting := r.nesting.alternative, operand := false }, s)
  | '[' =>
    let (depth, s) ← CharClass.read r.mode s
    return (r.part depth, s)
  | '?' | '*' | '+' =>
    if ¬ r.operand then none
    return ({ r with nesting := r.nesting.repeated }, if s.head? = some '?' then s.tail else s)
  | '\x7b' => none
  | '\\' =>
    let (e, s) ← Escape.read r.mode s
    if ¬ e.fits r.mode then none
    let wordEdge := r.wordEdge || (e = .wordEdge && !r.mode.ascii)
    return ({ r.part 0 with wordEdge }, s)
  | '.' => if r.mode.ascii then none else return (r.part 0, s)
  | _ => return (r.part 0, s)

/-- Reads up to `fuel` parts. Each takes at least one character. -/
def run : Nat → Reader → List Char → Option Reader
  | 0, _, _ => none
  | fuel + 1, r, s =>
    match r.mode.skip s with
    | [] => if r.groups = [] ∧ r.nesting.depth ≤ Nesting.limit then some r else none
    | c :: s => (r.step c s).bind fun (r, s) => run fuel r s

end Reader

/-- Whether a text is a number, perhaps with a sign, a fraction and an exponent. -/
def isNumber (s : List Char) : Bool :=
  let unsigned (s : List Char) := if s.head? = some '+' ∨ s.head? = some '-' then s.tail else s
  let s := unsigned s
  let whole := s.takeWhile Decimal.isDigit
  let rest := s.dropWhile Decimal.isDigit
  let (fraction, rest) :=
    if rest.head? = some '.' then
      (rest.tail.takeWhile Decimal.isDigit, rest.tail.dropWhile Decimal.isDigit)
    else ([], rest)
  let exponent := unsigned rest.tail
  let ends := match rest with
    | [] => true
    | c :: _ => (c = 'e' || c = 'E') && exponent ≠ [] && exponent.all Decimal.isDigit
  (whole ++ fraction ≠ [] && ends) ||
    ["inf", "infinity", "nan"].contains (String.ofList (s.map Text.lower))

/-- What is wrong with a text that values are to be compared with: a number is compared as such, and
anything else as a pattern. -/
def fault? (s : List Char) : Option Fault :=
  if isNumber s then none
  else match Reader.run (s.length + 1) {} s with
    | none => some .malformed
    | some r => if r.wordEdge then some .wordEdge else none

end TopicReader.Pattern
