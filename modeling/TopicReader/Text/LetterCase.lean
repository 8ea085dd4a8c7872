/-! Names that are compared without regard to letter case. The names themselves are written in
ASCII, so only the characters whose other case is ASCII matter. -/
namespace TopicReader.Text

def lower (c : Char) : Char := if 'A' ≤ c ∧ c ≤ 'Z' then Char.ofNat (c.toNat + 32) else c

/-- The characters outside ASCII whose lower case has an ASCII letter in it: the Kelvin sign, and the
capital I with a dot, which keeps its dot as a mark of its own. -/
def asciiLower : List (Char × List Char) := [('\u212A', ['k']), ('\u0130', ['i', '\u0307'])]

/-- The lower case of a character where there is ASCII in it; any other character stays as it is. -/
def lowerCase (c : Char) : List Char := (asciiLower.lookup c).getD [lower c]

/-- Compares `s` in lower case with a name in lower case. No
character outside ASCII is lowered: none of their lower cases is part of a name that is compared so. -/
def isLowerName (name : String) (s : List Char) : Bool := s.map lower == name.toList

/-- The characters outside ASCII whose upper case is ASCII: dotless i, long s, sharp s and the Latin
ligatures. -/
def asciiUpper : List (Char × List Char) :=
  [('\u0131', ['I']), ('\u017F', ['S']), ('\u00DF', ['S', 'S']), ('\uFB00', ['F', 'F']),
    ('\uFB01', ['F', 'I']), ('\uFB02', ['F', 'L']), ('\uFB03', ['F', 'F', 'I']),
    ('\uFB04', ['F', 'F', 'L']), ('\uFB05', ['S', 'T']), ('\uFB06', ['S', 'T'])]

/-- The upper case of a character where that is ASCII; any other character stays as it is. -/
def upper (c : Char) : List Char :=
  if 'a' ≤ c ∧ c ≤ 'z' then [Char.ofNat (c.toNat - 32)] else (asciiUpper.lookup c).getD [c]

/-- Compares `s` in upper case with a name in upper case. -/
def isUpperName (name : String) (s : List Char) : Bool := s.flatMap upper == name.toList

end TopicReader.Text
