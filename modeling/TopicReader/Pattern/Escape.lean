import TopicReader.Text.Hex
import TopicReader.Text.Letter

/-! What a backslash begins in a pattern. Outside ASCII mode everything stands for whole characters;
in it nothing may match a part of one. -/
namespace TopicReader.Pattern

/-- How a part of a pattern is read: with classes and edges of ASCII words alone, and with white
space and comments that do not count. -/
structure Mode where
  ascii : Bool := false
  spaced : Bool := false
  deriving DecidableEq, Repr

namespace Mode

/-- Skips white space and comments; the flag tells whether the reader is in a comment. -/
def skipSpace : Bool → List Char → List Char
  | _, [] => []
  | true, c :: s => skipSpace (c ≠ '\n') s
  | false, c :: s =>
    if Text.isBlank c then skipSpace false s else if c = '#' then skipSpace true s else c :: s

/-- Skips what does not count where a pattern is laid out in space. -/
def skip (m : Mode) (s : List Char) : List Char := if m.spaced then skipSpace false s else s

/-- Turns a flag on or off. The others change what a pattern matches, but not whether it is one. -/
def set? (m : Mode) (flag : Char) (on : Bool) : Option Mode :=
  match flag with
  | 'u' => some { m with ascii := !on }
  | 'x' => some { m with spaced := on }
  | 'i' | 'm' | 's' | 'R' | 'U' => some m
  | _ => none

end Mode

/-- What a backslash and the characters behind it stand for. A byte is a character only outside
ASCII mode. -/
inductive Escape where
  | literal (c : Char)
  | byte (c : Char)
  | charClass (negated : Bool)
  | category (letter : Char)
  | edge
  | wordEdge
  deriving DecidableEq, Repr

/-- The major categories of characters that one letter names, in either case. -/
def categories : List Char := "CLMNPSZclmnpsz".toList

namespace Escape

/-- Whether an escape may stand where any character may. -/
def fits (m : Mode) : Escape → Bool
  | .literal _ | .edge | .wordEdge => true
  | .byte _ => !m.ascii
  | .charClass negated => !(m.ascii && negated)
  | .category letter => !m.ascii && categories.contains letter

/-- Whether an escape may stand in a class, which has members but no places. -/
def fitsClass (m : Mode) : Escape → Bool
  | .literal c => !m.ascii || c.toNat < 0x80
  | .edge | .wordEdge => false
  | e => e.fits m

/-- The one character that an escape stands for. -/
def char? : Escape → Option Char
  | .literal c | .byte c => some c
  | _ => none

/-- The controls that a letter stands for. -/
def controls : List (Char × Char) :=
  [('a', '\x07'), ('f', '\x0c'), ('n', '\n'), ('r', '\r'), ('t', '\t'), ('v', '\x0b')]

/-- Reads a number of `n` hexadecimal digits. -/
def hexadecimal (m : Mode) : Nat → Nat → List Char → Option (Nat × List Char)
  | 0, value, s => some (value, s)
  | n + 1, value, s =>
    match m.skip s with
    | [] => none
    | c :: s => (Hex.value? c).bind fun d => hexadecimal m n (value * 16 + d) s

/-- Reads what stands behind a backslash. -/
def read (m : Mode) : List Char → Option (Escape × List Char)
  | [] => none
  | c :: s =>
    match [('x', 2), ('u', 4), ('U', 8)].lookup c with
    | some digits =>
      (hexadecimal m digits 0 s).bind fun (n, s) =>
        if ¬ n.isValidChar then none
        else
          let d := Char.ofNat n
          some (if c = 'x' ∧ 0x80 ≤ n then .byte d else .literal d, m.skip s)
    | none =>
      if c = 'p' ∨ c = 'P' then
        match m.skip s with
        | [] => none
        | letter :: s => some (.category letter, m.skip s)
      else if "dsw".toList.contains c then some (.charClass false, s)
      else if "DSW".toList.contains c then some (.charClass true, s)
      else if "bB<>".toList.contains c then some (.wordEdge, s)
      else if "Az".toList.contains c then some (.edge, s)
      else if c.toNat < 0x80 ∧ ¬ c.isAlphanum then some (.literal c, s)
      else (controls.lookup c).map fun d => (.literal d, s)

end Escape
end TopicReader.Pattern
