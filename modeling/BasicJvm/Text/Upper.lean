/-!
# Upper case of ASCII letters

Folding a source to upper case takes the upper case of a character as a parameter: the
characters that replace it, since a full case mapping may give several (`Source.foldCase`).
This module gives the one the core library has, `Char.toUpper`, which maps the letters `a` to
`z` to `A` to `Z` and leaves every other character as it is.
-/

namespace BasicJvm.Text

/-- The upper case of a character by the ASCII letters alone. -/
def asciiUpper (c : Char) : List Char := [c.toUpper]

end BasicJvm.Text
