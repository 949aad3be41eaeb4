/-!
# UTF-16 code units

The JVM measures and compares strings in UTF-16 code units, and class files store strings
as UTF-16 units too.  A character of the basic multilingual plane is one unit; any other
character is a surrogate pair, a high unit `0xD800 + (c - 0x10000) / 0x400` followed by a low
unit `0xDC00 + (c - 0x10000) % 0x400`.

`decodeUnits` goes back from units to text.  A high unit followed by a low unit is one
character; a surrogate unit that is not part of such a pair becomes U+FFFD, and so every list
of units decodes to some text.
-/

-- Sums start from the core zero also where an algebra library is loaded, so that the
-- definitions below elaborate to the same terms in every build.
attribute [local instance (high)] Zero.ofOfNat0

namespace BasicJvm.Text

/-- The UTF-16 units of one character. -/
def charUnits (c : Char) : List Nat :=
  if c.toNat < 0x10000 then [c.toNat]
  else
    let v := c.toNat - 0x10000
    [0xD800 + v / 0x400, 0xDC00 + v % 0x400]

/-- The UTF-16 units of a text. -/
def utf16Units (s : String) : List Nat :=
  s.toList.flatMap charUnits

/-- The number of UTF-16 units of a text. -/
def utf16Length (s : String) : Nat :=
  (s.toList.map fun c => if c.toNat < 0x10000 then 1 else 2).sum

/-- Whether a unit is a high surrogate. -/
def isHighSurrogate (u : Nat) : Bool := 0xD800 ≤ u && u < 0xDC00

/-- Whether a unit is a low surrogate. -/
def isLowSurrogate (u : Nat) : Bool := 0xDC00 ≤ u && u < 0xE000

/-- The replacement character, standing for a unit that is not a character. -/
def replacementChar : Char := Char.ofNat 0xFFFD

/-- The character of a unit on its own: U+FFFD for a surrogate. -/
def unitChar (u : Nat) : Char :=
  if isHighSurrogate u || isLowSurrogate u then replacementChar else Char.ofNat u

/-- The characters of a list of UTF-16 units; stray surrogates become U+FFFD. -/
def decodeUnitsList : List Nat → List Char
  | [] => []
  | [u] => [unitChar u]
  | u :: v :: rest =>
    if isHighSurrogate u && isLowSurrogate v then
      Char.ofNat (0x10000 + (u - 0xD800) * 0x400 + (v - 0xDC00)) :: decodeUnitsList rest
    else unitChar u :: decodeUnitsList (v :: rest)

/-- The text of a list of UTF-16 units; stray surrogates become U+FFFD. -/
def decodeUnits (units : List Nat) : String := String.ofList (decodeUnitsList units)

end BasicJvm.Text
