import TopicReader.Pattern.Escape
import TopicReader.Pattern.Nesting

/-! Classes of characters in brackets: single characters, ranges, named classes and other classes,
with operators between them. -/
namespace TopicReader.Pattern.CharClass

/-- How far a class has got: a bracket or dashes in front are taken as they are. -/
inductive Progress where
  | start
  | dashes
  | members
  deriving DecidableEq, Repr

/-- The classes that have names. -/
def names : List String :=
  ["alnum", "alpha", "ascii", "blank", "cntrl", "digit", "graph", "lower", "print", "punct",
    "space", "upper", "word", "xdigit"]

/-- Reads the rest of a class with a name, behind its bracket; also tells whether it is negated. -/
def named? : List Char → Option (Bool × List Char)
  | ':' :: s =>
    let negated := s.head? = some '^'
    let s := if negated then s.tail else s
    let name := String.ofList (s.takeWhile (· ≠ ':'))
    match s.dropWhile (· ≠ ':') with
    | ':' :: ']' :: rest => if names.contains name then some (negated, rest) else none
    | _ => none
  | _ => none

def member (m : Mode) : List Char → Option (Escape × List Char)
  | [] => none
  | '\\' :: s => Escape.read m s
  | c :: s => some (.literal c, s)

/-- The character behind a dash that counts. A number sign is passed over there, but not the comment
that it begins. -/
def behindDash? (m : Mode) (s : List Char) : Option Char :=
  if m.spaced then
    match s.dropWhile Text.isBlank with
    | '#' :: s => (s.dropWhile Text.isBlank).head?
    | s => s.head?
  else s.head?

/-- Reads a member of a class or a range of members. -/
def range (m : Mode) (s : List Char) : Option (List Char) := do
  let (first, s) ← member m s
  if ¬ first.fitsClass m then none
  match m.skip s with
  | [] => none
  | '-' :: s =>
    if behindDash? m s = some ']' ∨ behindDash? m s = some '-' then some ('-' :: s)
    else
      let (last, s) ← member m (m.skip s)
      if ¬ last.fitsClass m then none
      if (← first.char?) ≤ (← last.char?) then some s else none
  | s => some s

/-- Reads up to the first member. In ASCII mode the complement of a class would match parts of
characters. -/
def opening (m : Mode) (s : List Char) : Option (List Char) :=
  match m.skip s with
  | '^' :: s => if m.ascii then none else some s
  | s => some s

/-- Reads up to the end of the outermost of the classes that are open, and tells its depth. Up to
`fuel` members are read, each of which takes at least one character. -/
def rest (m : Mode) : Nat → Progress → List Nesting → Nesting → List Char →
    Option (Nat × List Char)
  | 0, _, _, _, _ => none
  | fuel + 1, progress, outer, n, s =>
    match m.skip s, progress with
    | [], _ => none
    | '-' :: s, .start | '-' :: s, .dashes => rest m fuel .dashes outer (n.part 0) s
    | ']' :: s, .start => rest m fuel .members outer (n.part 0) s
    | ']' :: s, _ =>
      match outer with
      | [] => some (n.depth + 1, s)
      | o :: outer => rest m fuel .members outer (o.part (n.depth + 1)) s
    | '[' :: s, _ =>
      match named? s with
      | some (negated, s) =>
        if m.ascii && negated then none else rest m fuel .members outer (n.part 0) s
      | none => (opening m s).bind (rest m fuel .start (n :: outer) {})
    | '&' :: '&' :: s, _ | '-' :: '-' :: s, _ | '~' :: '~' :: s, _ =>
      rest m fuel .members outer n.operator s
    | s, _ => (range m s).bind (rest m fuel .members outer (n.part 0))

/-- Reads a class behind its bracket, and tells its depth. -/
def read (m : Mode) (s : List Char) : Option (Nat × List Char) :=
  (opening m s).bind (rest m (s.length + 1) .start [] {})

end TopicReader.Pattern.CharClass
