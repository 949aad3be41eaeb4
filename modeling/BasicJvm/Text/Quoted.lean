import BasicJvm.Text.Printable

/-!
# Quoted text

A quoted text is a text between two quote marks in which every character can be read back.
The quote mark itself and the backslash are preceded by a backslash; printable characters
(`BasicJvm.Text.isPrintable`) stand for themselves; the seven control characters bell,
backspace, form feed, newline, carriage return, tab and vertical tab have one-letter
escapes; any other character below U+0020 and U+007F is written `\xHH`, any other one in the
basic multilingual plane `\uHHHH`, and the rest `\UHHHHHHHH`, always with lowercase hex
digits.

`quote` encloses a text in double quotes and `quoteChar` a single character in single
quotes.  Error messages, listings and dumps show texts this way.
-/

-- Powers use the core `NatPow` instance also where an algebra library is loaded, so that
-- the definitions below elaborate to the same terms in every build.
attribute [local instance (high)] instPowNat

namespace BasicJvm.Text

/-- The lowercase hexadecimal digit of a number below sixteen. -/
def hexDigit (n : Nat) : Char :=
  if n < 10 then Char.ofNat (48 + n) else Char.ofNat (87 + n)

/-- The `width` lowest hexadecimal digits of `n`, most significant first. -/
def hexDigits (width n : Nat) : List Char :=
  (List.range width).reverse.map fun i => hexDigit (n / 16 ^ i % 16)

/-- The escaped form of one character inside a text quoted with `mark`. -/
def escapeChar (mark c : Char) : List Char :=
  if c = mark ∨ c = '\\' then ['\\', c]
  else if isPrintable c then [c]
  else if c.toNat = 7 then ['\\', 'a']
  else if c.toNat = 8 then ['\\', 'b']
  else if c.toNat = 12 then ['\\', 'f']
  else if c = '\n' then ['\\', 'n']
  else if c = '\r' then ['\\', 'r']
  else if c = '\t' then ['\\', 't']
  else if c.toNat = 11 then ['\\', 'v']
  else if c.toNat < 32 ∨ c.toNat = 127 then '\\' :: 'x' :: hexDigits 2 c.toNat
  else if c.toNat < 0x10000 then '\\' :: 'u' :: hexDigits 4 c.toNat
  else '\\' :: 'U' :: hexDigits 8 c.toNat

/-- A text between double quotes, each character escaped as `escapeChar` says. -/
def quote (s : String) : String :=
  String.ofList ('"' :: (s.toList.flatMap (escapeChar '"')) ++ ['"'])

/-- A character between single quotes, escaped as `escapeChar` says. -/
def quoteChar (c : Char) : String :=
  let mark := Char.ofNat 39
  String.ofList (mark :: escapeChar mark c ++ [mark])

end BasicJvm.Text
