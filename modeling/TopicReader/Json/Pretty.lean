import TopicReader.Json.Text
import TopicReader.Json.Value
import TopicReader.Number.Shortest
import TopicReader.Text.Decimal

/-! Values written over several lines, with an indentation of two spaces for each level. -/
namespace TopicReader.Json

/-- The decimal point stands after `leading + 1` digits. From 0.00001 up to below 10^16 a number is
written out, with `.0` if it is whole; otherwise one digit stands before the point and the exponent
always carries its sign. -/
def layout (d : Shortest.Decimal) : List Char :=
  let digits := Decimal.digits d.digits
  let leading : Int := d.exponent + digits.length - 1
  if leading < -5 ∨ 16 ≤ leading then
    let fraction := if digits.tail.isEmpty then [] else '.' :: digits.tail
    let sign := if leading < 0 then '-' else '+'
    digits.take 1 ++ fraction ++ 'e' :: sign :: Decimal.digits leading.natAbs
  else if leading < 0 then
    '0' :: '.' :: List.replicate (-leading - 1).toNat '0' ++ digits
  else if 0 ≤ d.exponent then
    digits ++ List.replicate d.exponent.toNat '0' ++ ['.', '0']
  else
    digits.take (leading.toNat + 1) ++ '.' :: digits.drop (leading.toNat + 1)

def Number.chars : Number → List Char
  | .whole n => Decimal.chars n
  | .real negative x =>
    (if negative then ['-'] else []) ++
      if x.isZero then ['0', '.', '0'] else layout (Shortest.ofBinary64 x)

def newline (level : Nat) : List Char := '\n' :: List.replicate (2 * level) ' '

mutual

/-- A value at an indentation level. -/
def Value.pretty (level : Nat) : Value → List Char
  | .null => ['n', 'u', 'l', 'l']
  | .bool true => ['t', 'r', 'u', 'e']
  | .bool false => ['f', 'a', 'l', 's', 'e']
  | .number n => n.chars
  | .text s => Text.quoted s
  | .array [] => ['[', ']']
  | .array (v :: rest) =>
    '[' :: newline (level + 1) ++ v.pretty (level + 1) ++ prettyItems (level + 1) rest ++
      newline level ++ [']']
  | .object [] => ['\x7b', '\x7d']
  | .object ((name, v) :: rest) =>
    '\x7b' :: newline (level + 1) ++ Text.quoted name ++ ':' :: ' ' :: v.pretty (level + 1) ++
      prettyMembers (level + 1) rest ++ newline level ++ ['\x7d']

/-- The items after the first one. -/
def prettyItems (level : Nat) : List Value → List Char
  | [] => []
  | v :: rest => ',' :: newline level ++ v.pretty level ++ prettyItems level rest

/-- The members after the first one. -/
def prettyMembers (level : Nat) : List (String × Value) → List Char
  | [] => []
  | (name, v) :: rest =>
    ',' :: newline level ++ Text.quoted name ++ ':' :: ' ' :: v.pretty level ++
      prettyMembers level rest

end

end TopicReader.Json
