/-!
# Tokens of BASIC source

A token is one word of a BASIC program: a keyword, the name of a built-in function, a
number, a variable name, a string literal, a symbol, or the end of a line or of the source.
A token remembers its text (for a string literal, the text between the quotes), the
1-based line where scanning for it began, and the character offset where scanning began,
before any blanks.

The vocabulary is fixed: `keywords` are the statement and operator words, `functionNames`
the built-in functions, and `symbols` the operators and punctuation.  `words` is the
keyword and function vocabulary together; the scanner takes the longest word that starts
at a position.
-/

namespace BasicJvm.Source

/-- The kind of a token. -/
inductive TokenKind where
  /-- The end of the source. -/
  | endOfFile
  /-- A newline. -/
  | endOfLine
  /-- A statement or operator word such as `PRINT` or `AND`. -/
  | keyword
  /-- The name of a built-in function such as `SIN` or `CHR$`. -/
  | function
  /-- A run of digits and points. -/
  | number
  /-- A variable name, letters then digits, perhaps ending in `$`. -/
  | name
  /-- A string literal; the token's text is what stands between the quotes. -/
  | string
  /-- An operator or a punctuation mark. -/
  | symbol
  deriving DecidableEq, Repr, Inhabited

/-- The name under which listings and dumps show a token kind. -/
def TokenKind.label : TokenKind → String
  | .endOfFile => "END-OF-FILE"
  | .endOfLine => "END-OF-LINE"
  | .keyword => "KEYWORD"
  | .function => "FUNCTION"
  | .number => "NUMBER"
  | .name => "NAME"
  | .string => "STRING"
  | .symbol => "SYMBOL"

/-- One token of the source. -/
structure Token where
  kind : TokenKind
  /-- The token's text; for a string literal the text between the quotes. -/
  text : String
  /-- The 1-based line on which scanning for the token began. -/
  line : Nat
  /-- The character offset at which scanning for the token began, before blanks. -/
  start : Nat
  deriving DecidableEq, Repr, Inhabited

/-- Whether a token has the given kind and text. -/
def Token.isA (t : Token) (kind : TokenKind) (text : String) : Bool :=
  t.kind == kind && t.text == text

/-- The statement and operator vocabulary.  `GOTO` and `GOSUB` are the two words
`GO TO` and `GO SUB`. -/
def keywords : List String :=
  ["PRINT", "GO", "TO", "SUB", "ON", "RETURN", "IF", "THEN", "INPUT", "REM",
   "FOR", "STEP", "NEXT", "DATA", "READ", "END", "STOP", "RESTORE", "LET",
   "DIM", "AND", "OR"]

/-- The names of the built-in functions. -/
def functionNames : List String :=
  ["INT", "SIN", "RND", "TAB", "ABS", "SGN", "SQR", "EXP", "LOG", "ATN", "LEN", "VAL",
   "CHR$"]

/-- The operators and punctuation marks, two-character symbols first. -/
def symbols : List String :=
  ["<=", "<>", ">=", "=", "<", ">", "+", "-", "*", "/", "^", "(", ")", ",", ";", ":"]

/-- Every keyword and function name, with the kind of token it makes. -/
def words : List (String × TokenKind) :=
  keywords.map (·, TokenKind.keyword) ++ functionNames.map (·, TokenKind.function)

end BasicJvm.Source
