/-! How deep the parts of a pattern lie inside each other. -/
namespace TopicReader.Pattern

/-- The parts that have been read side by side: their number, the depth of the deepest and of the
last, and the depth of what stands in front of the last sign between them. -/
structure Nesting where
  parts : Nat := 0
  deepest : Nat := 0
  last : Nat := 0
  before : Option Nat := none
  deriving DecidableEq, Repr

namespace Nesting

/-- How deep parts of patterns may lie. -/
def limit : Nat := 250

/-- Parts side by side are one part deeper than each of them. -/
def row (n : Nesting) : Nat := if n.parts < 2 then n.deepest else n.deepest + 1

def depth (n : Nesting) : Nat :=
  match n.before with
  | none => n.row
  | some d => max d n.row + 1

def part (n : Nesting) (depth : Nat) : Nesting :=
  { n with parts := n.parts + 1, deepest := max n.deepest depth, last := depth }

/-- Puts a sign of repetition on the last part. -/
def repeated (n : Nesting) : Nesting :=
  { n with deepest := max n.deepest (n.last + 1), last := n.last + 1 }

/-- All alternatives lie in one part. -/
def alternative (n : Nesting) : Nesting := { before := some (max (n.before.getD 0) n.row) }

/-- What an operator has on its left lies inside it. -/
def operator (n : Nesting) : Nesting := { before := some n.depth }

end Nesting
end TopicReader.Pattern
