/-!
# White space

White space is the Unicode `White_Space` property restricted to what text processing
skips: tab, newline, vertical tab, form feed, carriage return, space, U+0085, U+00A0, U+1680,
U+2000 to U+200A, U+2028, U+2029, U+202F, U+205F and U+3000.  `trimBlank` removes white
space from both ends of a text; answers typed at an INPUT prompt and source lines quoted in
error messages are trimmed this way.
-/

namespace BasicJvm.Text

/-- Whether a character is white space. -/
def isWhite (c : Char) : Bool :=
  let n := c.toNat
  (9 ≤ n && n ≤ 13) || n == 32 || n == 0x85 || n == 0xA0 || n == 0x1680 ||
    (0x2000 ≤ n && n ≤ 0x200A) || n == 0x2028 || n == 0x2029 || n == 0x202F ||
    n == 0x205F || n == 0x3000

/-- A text without white space at either end. -/
def trimBlank (s : String) : String :=
  String.ofList ((s.toList.dropWhile isWhite).reverse.dropWhile isWhite).reverse

end BasicJvm.Text
