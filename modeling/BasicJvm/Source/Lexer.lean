import BasicJvm.Source.Token
import BasicJvm.Text.Quoted

/-!
# Scanning BASIC source into tokens

The scanner reads the source as an array of characters.  At each position it skips blanks
(space, tab and carriage return) and then reads one token:

* at the end of the source, `endOfFile`;
* a newline makes `endOfLine` and starts the next line;
* an uppercase letter starts the longest keyword or function name found there, or else a
  variable name: letters up to the start of the next word, then digits, then an optional `$`;
* a digit or a point starts a number, the longest run of digits and points;
* a double quote starts a string literal that ends at the next double quote on the same
  line;
* otherwise the first symbol of `symbols` found there, the two-character ones first.

Anything else, and a string literal without its closing quote, is a `LexError`.

`scanAt` reads one token; `tokenize` reads them all and keeps the tokens read before an
error.  Every token but `endOfFile` consumes at least one character, which is what makes
`tokensFrom` end.
-/

namespace BasicJvm.Source

/-- Why the source could not be split into tokens. -/
inductive LexError where
  /-- A string literal has no closing quote before the end of its line. -/
  | unterminatedString (line : Nat)
  /-- A character that starts no token. -/
  | unexpectedChar (line : Nat) (c : Char)
  deriving DecidableEq, Repr

/-- The line on which the failing token began. -/
def LexError.line : LexError → Nat
  | .unterminatedString line => line
  | .unexpectedChar line _ => line

/-- The message of a scanning failure, after its line number. -/
def LexError.detail : LexError → String
  | .unterminatedString _ => "unterminated string literal"
  | .unexpectedChar _ c => "unexpected character " ++ Text.quoteChar c

/-- The full text of a scanning failure. -/
def LexError.message (e : LexError) : String :=
  "line " ++ toString e.line ++ ": " ++ e.detail

/-- Whether `c` is an ASCII uppercase letter. -/
def isUpperLetter (c : Char) : Bool := 'A' ≤ c && c ≤ 'Z'

/-- Whether `c` is an ASCII digit. -/
def isDigitChar (c : Char) : Bool := '0' ≤ c && c ≤ '9'

/-- A blank is skipped between tokens. -/
def isBlank (c : Char) : Bool := c == ' ' || c == '\t' || c == '\r'

/-- Whether the characters of `w` stand in `src` from position `here`. -/
def matchesAt (src : Array Char) (here : Nat) (w : String) : Bool :=
  (w.toList.zipIdx).all fun (c, i) => src[here + i]? == some c

/-- The longest keyword or function name that stands in `src` at `here`. -/
def wordAt (src : Array Char) (here : Nat) : Option (String × TokenKind) :=
  words.foldl (fun best w =>
    if matchesAt src here w.1 then
      match best with
      | some b => if b.1.length < w.1.length then some w else best
      | none => some w
    else best) none

/-- The first position at or after `pos` whose character fails `p`, or the end. -/
def skipWhile (p : Char → Bool) (src : Array Char) (pos : Nat) : Nat :=
  if h : pos < src.size then
    if p src[pos] then skipWhile p src (pos + 1) else pos
  else pos
termination_by src.size - pos

/-- The end of the letters of a variable name that starts before `pos`: letters are taken
until one starts a keyword or function name. -/
def nameLettersEnd (src : Array Char) (pos : Nat) : Nat :=
  if h : pos < src.size then
    if isUpperLetter src[pos] && (wordAt src pos).isNone then nameLettersEnd src (pos + 1)
    else pos
  else pos
termination_by src.size - pos

/-- The end of a variable name starting at `pos`: its first letter, further letters up to
the next word, digits, then an optional `$`. -/
def nameEnd (src : Array Char) (pos : Nat) : Nat :=
  let afterDigits := skipWhile isDigitChar src (nameLettersEnd src (pos + 1))
  if src[afterDigits]? == some '$' then afterDigits + 1 else afterDigits

/-- The position of the first closing quote or newline at or after `pos`, or the end. -/
def stringEnd (src : Array Char) (pos : Nat) : Nat :=
  skipWhile (fun c => c != '"' && c != '\n') src pos

/-- The text of the characters of `src` between two positions. -/
def slice (src : Array Char) (first last : Nat) : String :=
  String.ofList ((src.extract first last).toList)

/-- Read one token, scanning from `pos` on line `line`.  The answer is the token with the
position and line after it. -/
def scanAt (src : Array Char) (pos line : Nat) : Except LexError (Token × Nat × Nat) :=
  let here := skipWhile isBlank src pos
  let make (kind : TokenKind) (text : String) : Token := ⟨kind, text, line, pos⟩
  match src[here]? with
  | none => .ok (make .endOfFile "", here, line)
  | some c =>
    if c == '\n' then .ok (make .endOfLine "\n", here + 1, line + 1)
    else if isUpperLetter c then
      match wordAt src here with
      | some (w, kind) => .ok (make kind w, here + w.length, line)
      | none =>
        let e := nameEnd src here
        .ok (make .name (slice src here e), e, line)
    else if isDigitChar c || c == '.' then
      let e := skipWhile (fun d => isDigitChar d || d == '.') src here
      .ok (make .number (slice src here e), e, line)
    else if c == '"' then
      let e := stringEnd src (here + 1)
      if src[e]? == some '"' then .ok (make .string (slice src (here + 1) e), e + 1, line)
      else .error (.unterminatedString line)
    else
      match symbols.find? (matchesAt src here) with
      | some s => .ok (make .symbol s, here + s.length, line)
      | none => .error (.unexpectedChar line c)

/-- Read tokens from `pos` to the end of the source, after the tokens `acc` (newest first).
The answer lists the tokens in order, ending with `endOfFile` unless scanning failed. -/
def tokensFrom (src : Array Char) (pos line : Nat) (acc : List Token) :
    List Token × Option LexError :=
  match scanAt src pos line with
  | .error e => (acc.reverse, some e)
  | .ok (tok, next, nextLine) =>
    if tok.kind == .endOfFile then ((tok :: acc).reverse, none)
    else if _h : pos < next ∧ next ≤ src.size then tokensFrom src next nextLine (tok :: acc)
    else ((tok :: acc).reverse, none)
termination_by src.size - pos
decreasing_by omega

/-- Every token of a source, ending with `endOfFile`, or the tokens before the first
scanning failure together with that failure. -/
def tokenize (src : String) : List Token × Option LexError :=
  tokensFrom src.toList.toArray 0 1 []

end BasicJvm.Source
