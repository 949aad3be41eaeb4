import BasicJvm.Toml.Document

/-!
# Reading TOML text

The text is read by a parsing expression grammar: ordered choice, greedy repetition and
backtracking.  A document is expressions separated by line breaks; an expression is a table
header followed by key/value lines, a key/value line, a comment or nothing.  Keys are bare
(letters, digits, `-`, `_`) or quoted.  Values are tried in the order date-time, float,
integer, string, boolean, array, inline table.

Reading gives the document's statements in order (`Statement`).  The line counter of a
statement counts the line-break characters read before it, each `\r` and each `\n` alike.

When the text does not match, the problem is placed at the furthest point that any rule of
the grammar reached in a successful match, on the line of the character there (a line break
there belongs to the line after it): the line is `1` plus the number of `\n` up to and
including that character.
-/

namespace BasicJvm.Toml

/-- The state of reading. -/
structure Cursor where
  pos : Nat
  /-- The furthest end of a successful match of a rule. -/
  furthest : Nat
  /-- The line counter. -/
  line : Nat
  /-- The statements so far, newest first. -/
  out : List Statement

/-- A reading step: a result, or `none` with the furthest point reached. -/
def Peg (α : Type) : Type := Array Char → Cursor → Option α × Cursor

namespace Peg

/-- Succeed with a value. -/
def pure' {α : Type} (a : α) : Peg α := fun _ c => (some a, c)

/-- Sequence two steps. -/
def bind' {α β : Type} (p : Peg α) (f : α → Peg β) : Peg β := fun s c =>
  match p s c with
  | (some a, c') => f a s c'
  | (none, c') => (none, c')

instance : Monad Peg where
  pure := pure'
  bind := bind'

/-- Fail, keeping the furthest point. -/
def fail {α : Type} : Peg α := fun _ c => (none, c)

/-- The first of two choices that matches; the second starts where the first did, knowing
how far the first got. -/
def orElse {α : Type} (p q : Peg α) : Peg α := fun s c =>
  match p s c with
  | (some a, c') => (some a, c')
  | (none, c') => q s { c with furthest := max c.furthest c'.furthest }

/-- A choice that may match nothing. -/
def opt {α : Type} (p : Peg α) : Peg (Option α) := orElse (some <$> p) (pure none)

/-- A named rule: a match that moves on marks how far it got. -/
def rule {α : Type} (p : Peg α) : Peg α := fun s c =>
  match p s c with
  | (some a, c') =>
    (some a, if c.pos < c'.pos then { c' with furthest := max c'.furthest c'.pos } else c')
  | r => r

/-- The current position. -/
def position : Peg Nat := fun _ c => (some c.pos, c)

/-- The text between two positions. -/
def textBetween (a b : Nat) : Peg String := fun s c => (some (String.ofList (s.extract a b).toList), c)

/-- One character with a property. -/
def charIf (p : Char → Bool) : Peg Char := fun s c =>
  match s[c.pos]? with
  | some ch => if p ch then (some ch, { c with pos := c.pos + 1 }) else (none, c)
  | none => (none, c)

/-- Exactly the given characters. -/
def lit (w : String) : Peg Unit := fun s c =>
  let cs := w.toList
  if (List.range cs.length).all (fun i => s[c.pos + i]? == cs[i]?) then
    (some (), { c with pos := c.pos + cs.length })
  else (none, c)

/-- Succeed without reading when a step does not match here. -/
def notAhead {α : Type} (p : Peg α) : Peg Unit := fun s c =>
  match p s c with
  | (some _, c') => (none, { c with furthest := max c.furthest c'.furthest })
  | (none, c') => (some (), { c with furthest := max c.furthest c'.furthest })

/-- Repeat a step while it matches and reads something; at most `fuel` times. -/
def manyFuel {α : Type} (p : Peg α) : Nat → Peg (List α)
  | 0 => pure []
  | fuel + 1 => fun s c =>
    match p s c with
    | (some a, c') =>
      if c.pos < c'.pos then
        match manyFuel p fuel s c' with
        | (some as, c'') => (some (a :: as), c'')
        | (none, c'') => (some [a], { c' with furthest := max c'.furthest c''.furthest })
      else (some [], { c with furthest := max c.furthest c'.furthest })
    | (none, c') => (some [], { c with furthest := max c.furthest c'.furthest })

/-- Repeat a step as long as it matches. -/
def many {α : Type} (p : Peg α) : Peg (List α) := fun s c => manyFuel p (s.size - c.pos + 1) s c

/-- Repeat a step at least once. -/
def many1 {α : Type} (p : Peg α) : Peg (List α) := do
  let a ← p
  let as ← many p
  pure (a :: as)

/-- Record a statement. -/
def emit (st : Statement) : Peg Unit := fun _ c => (some (), { c with out := st :: c.out })

/-- The line counter. -/
def lineNow : Peg Nat := fun _ c => (some c.line, c)

/-- Add to the line counter. -/
def addLines (n : Nat) : Peg Unit := fun _ c => (some (), { c with line := c.line + n })

end Peg

open Peg

/-! ## Characters -/

/-- A line-break character. -/
def isLineBreak (c : Char) : Bool := c == '\r' || c == '\n'

/-- A character of a bare key. -/
def isBareKeyChar (c : Char) : Bool := c.isAlphanum || c == '-' || c == '_'

/-- A character that stands for itself in a basic string: anything from the space up but
the double quote and the backslash. -/
def isBasicUnescaped (c : Char) : Bool :=
  let n := c.toNat
  n == 0x20 || n == 0x21 || (0x23 ≤ n && n ≤ 0x5B) || 0x5D ≤ n

/-- A character of a literal string: the tab, and anything from the space up but the
apostrophe. -/
def isLiteralChar (c : Char) : Bool :=
  let n := c.toNat
  n == 9 || (0x20 ≤ n && n ≤ 0x26) || 0x28 ≤ n

/-- A character of a comment or a multi-line literal string: the tab, and anything from the
space up. -/
def isTextChar (c : Char) : Bool := c.toNat == 9 || 0x20 ≤ c.toNat

/-- A hexadecimal digit. -/
def isHexDigit (c : Char) : Bool :=
  c.isDigit || ('a' ≤ c && c ≤ 'f') || ('A' ≤ c && c ≤ 'F')

/-! ## Escapes -/

/-- The value of a hexadecimal digit. -/
def hexValue (c : Char) : Nat :=
  if c.isDigit then c.toNat - 48
  else if 'a' ≤ c && c ≤ 'f' then c.toNat - 87
  else c.toNat - 55

/-- The text of a quoted string with its escapes replaced: `\b`, `\t`, `\n`, `\f`, `\r`, `\"`,
`\\`, and `\u` or `\U` with the hexadecimal number of a character; `none` for any other
escape and for a number that is not a character. -/
def unescape : List Char → Option (List Char)
  | [] => some []
  | '\\' :: c :: rest =>
    let simple (out : Char) := (unescape rest).map (out :: ·)
    match c with
    | 'b' => simple (Char.ofNat 8)
    | 't' => simple '\t'
    | 'n' => simple '\n'
    | 'f' => simple (Char.ofNat 12)
    | 'r' => simple '\r'
    | '"' => simple '"'
    | '\\' => simple '\\'
    | 'u' | 'U' =>
      let width := if c == 'u' then 4 else 8
      let digits := rest.take width
      let n := digits.foldl (fun n d => 16 * n + hexValue d) 0
      if digits.length == width && digits.all isHexDigit && n.isValidChar then
        (unescape (rest.drop width)).map (Char.ofNat n :: ·)
      else none
    | _ => none
  | c :: rest => (unescape rest).map (c :: ·)
termination_by cs => cs.length

/-- A quoted string (quotes included) without its quotes and with its escapes replaced. -/
def unquote (text : String) : Option String :=
  (unescape ((text.toList.drop 1).dropLast)).map String.ofList

/-! ## The grammar -/

/-- Spaces and tabs. -/
def ws : Peg Unit := rule do
  let _ ← many (charIf fun c => c == ' ' || c == '\t')

/-- Line breaks, counted. -/
def newline : Peg Unit := rule do
  let breaks ← many1 (rule (charIf isLineBreak))
  addLines breaks.length

/-- Spaces, tabs and line breaks, the breaks counted. -/
def wsnl : Peg Unit := rule do
  let _ ← many (orElse (charIf fun c => c == ' ' || c == '\t') (do
    let c ← rule (charIf isLineBreak)
    addLines 1
    pure c))

/-- A comment to the end of the line. -/
def comment : Peg Unit := rule do
  lit "#"
  let _ ← rule (many (charIf isTextChar))

/-- A digit. -/
def digit : Peg Char := rule (charIf Char.isDigit)

/-- Digits that may be separated by single underscores, after a first digit. -/
def digitsAfter : Peg Unit := do
  let _ ← many (orElse (digit *> pure ()) (lit "_" *> digit *> pure ()))

/-- A hexadecimal digit. -/
def hexdigit : Peg Char := rule (charIf isHexDigit)

/-- Four hexadecimal digits. -/
def hexQuad : Peg Unit := rule do
  let _ ← hexdigit
  let _ ← hexdigit
  let _ ← hexdigit
  let _ ← hexdigit

/-- A backslash. -/
def escape : Peg Unit := rule (lit "\\")

/-- An escape sequence. -/
def escaped : Peg Unit := rule do
  escape
  orElse (charIf (fun c => "btnfr\"/\\".toList.contains c) *> pure ())
    (orElse (lit "u" *> hexQuad) (lit "U" *> hexQuad *> hexQuad))

/-- A character of a basic string. -/
def basicChar : Peg Unit := rule (orElse (rule (charIf isBasicUnescaped) *> pure ()) escaped)

/-- A quoted string, as written. -/
def quotedText : Peg String := do
  let a ← position
  lit "\""
  let _ ← many basicChar
  lit "\""
  let b ← position
  textBetween a b

/-- A key: bare, or quoted with its escapes replaced; a bad escape is recorded. -/
def key : Peg String := rule do
  orElse (rule do
      let a ← position
      let _ ← many1 (charIf isBareKeyChar)
      let b ← position
      textBetween a b)
    (rule do
      let text ← quotedText
      match unquote text with
      | some k => pure k
      | none =>
        emit (.fault "invalid syntax" (← lineNow))
        pure "")

/-- A value of the grammar: a value, or an inline table (already recorded as statements). -/
inductive Parsed where
  | value (v : Value)
  | inline

/-- The digits of a date or time field. -/
def digits (n : Nat) : Peg Unit := rule do
  for _ in List.range n do
    let _ ← digit

/-- A time of day. -/
def partialTime : Peg Unit := rule do
  digits 2; lit ":"; digits 2; lit ":"; digits 2
  let _ ← opt (rule (lit "." *> many1 digit))

/-- A date, or a date and a time with or without an offset, or a time. -/
def datetime : Peg Unit := rule do
  orElse (do
      rule (do digits 4; lit "-"; digits 2; lit "-"; digits 2)
      let _ ← opt (do
        lit "T"
        partialTime
        let _ ← opt (rule (orElse (lit "Z") (rule do
          let _ ← charIf (fun c => c == '-' || c == '+')
          digits 2; lit ":"; digits 2)))))
    partialTime

/-- An integer. -/
def integer : Peg Unit := rule do
  let _ ← opt (charIf fun c => c == '-' || c == '+')
  rule (orElse (do
      let _ ← charIf fun c => '1' ≤ c && c ≤ '9'
      let _ ← many1 (orElse (digit *> pure ()) (lit "_" *> digit *> pure ()))) (digit *> pure ()))

/-- A fraction part. -/
def frac : Peg Unit := rule do
  lit "."; let _ ← digit; digitsAfter

/-- An exponent part. -/
def exponent : Peg Unit := rule do
  let _ ← charIf fun c => c == 'e' || c == 'E'
  let _ ← opt (charIf fun c => c == '-' || c == '+')
  let _ ← digit
  digitsAfter

/-- A float. -/
def float : Peg Unit := rule do
  integer
  orElse (do frac; let _ ← opt exponent) (do let _ ← opt frac; exponent)

/-- The text matched by a step, without underscores. -/
def digitsText (p : Peg Unit) : Peg String := do
  let a ← position
  p
  let b ← position
  let t ← textBetween a b
  pure (String.ofList (t.toList.filter (· != '_')))

/-- A basic string. -/
def basicString : Peg Value := rule do
  let text ← quotedText
  match unquote text with
  | some s => pure (.string s)
  | none =>
    emit (.fault "invalid syntax" (← lineNow))
    pure (.string "")

/-- A multi-line basic string.  Its text as written, without a backslash at the end of a
line and the blank space after it, loses the line breaks at its start and then has its
escapes replaced; a bad escape is recorded. -/
def mlBasicString : Peg Value := rule do
  lit "\"\"\""
  let parts ← rule (many (orElse
    (do
      let a ← position
      orElse basicChar newline
      let b ← position
      textBetween a b)
    (do escape; newline; wsnl; pure "")))
  lit "\"\"\""
  match unescape ((String.join parts).toList.dropWhile isLineBreak) with
  | some cs => pure (.string (String.ofList cs))
  | none =>
    emit (.fault "invalid syntax" (← lineNow))
    pure (.string "")

/-- A literal string. -/
def literalString : Peg Value := rule do
  lit "'"
  let a ← position
  let _ ← rule (many (rule (charIf isLiteralChar)))
  let b ← position
  lit "'"
  return .string (← textBetween a b)

/-- A multi-line literal string, without the line breaks at its start. -/
def mlLiteralString : Peg Value := rule do
  lit "'''"
  let a ← position
  let _ ← rule (many (do
    notAhead (lit "'''")
    orElse (rule (charIf isTextChar) *> pure ()) newline))
  let b ← position
  lit "'''"
  return .string (String.ofList ((← textBetween a b).toList.dropWhile isLineBreak))

/-- A string of any of the four forms. -/
def string : Peg Value :=
  rule (orElse mlLiteralString (orElse literalString (orElse mlBasicString basicString)))

/-- A boolean. -/
def boolean : Peg Value := rule (orElse (lit "true" *> pure (.boolean true)) (lit "false" *> pure (.boolean false)))

mutual

/-- A value; an inline table is recorded under `key` when there is one, as a table of an
array of tables when `inArray` says the value is inside an array.  `fuel` bounds the nesting
of arrays and inline tables. -/
def val : Nat → Option String → Bool → Peg Parsed
  | 0, _, _ => fail
  | fuel + 1, key, inArray => rule (orElse ((.value ∘ .datetime) <$> digitsText datetime)
    (orElse ((.value ∘ .float) <$> digitsText float)
    (orElse ((.value ∘ .integer) <$> digitsText integer)
    (orElse (.value <$> string)
    (orElse (.value <$> boolean)
    (orElse (.value <$> array fuel key)
      (inlineTable fuel key inArray *> pure .inline)))))))

/-- An array; its items may be of different kinds. -/
def array : Nat → Option String → Peg Value
  | 0, _ => fail
  | fuel + 1, key => rule do
    lit "["
    wsnl
    let items ← opt (arrayValues fuel key)
    wsnl
    lit "]"
    pure (.array (items.getD []))

/-- The items of an array. -/
def arrayValues : Nat → Option String → Peg (List Value)
  | 0, _ => fail
  | fuel + 1, key => rule do
    let first ← arrayItem fuel key
    let rest ← many (do
      wsnl
      let _ ← opt comment
      wsnl
      rule (lit ",")
      wsnl
      let _ ← opt comment
      wsnl
      arrayItem fuel key)
    wsnl
    let _ ← opt (rule (lit ","))
    wsnl
    let _ ← opt comment
    pure (first :: rest)

/-- One item of an array. -/
def arrayItem : Nat → Option String → Peg Value
  | 0, _ => fail
  | fuel + 1, key => do
    match ← val fuel key true with
    | .value v => pure v
    | .inline => pure .inlineTable

/-- An inline table: under a key, its keys are recorded between the statements that open
and close it. -/
def inlineTable : Nat → Option String → Bool → Peg Unit
  | 0, _, _ => fail
  | fuel + 1, key, inArray => rule do
    lit "\x7b"
    if let some k := key then emit (.openInline k inArray (← lineNow))
    ws
    let _ ← rule (many (do
      keyval fuel inArray
      let _ ← opt (rule (do ws; lit ","; ws))))
    ws
    lit "\x7d"
    if key.isSome then emit .closeInline

/-- A key and its value.  A value that is or holds an inline table has recorded its table
already, and records no key. -/
def keyval : Nat → Bool → Peg Unit
  | 0, _ => fail
  | fuel + 1, inArray => rule do
    let k ← key
    ws
    lit "="
    ws
    match ← val fuel (some k) inArray with
    | .value v => if !v.holdsTable then emit (.assign k v (← lineNow))
    | .inline => pure ()

end

/-- A table header or an array header. -/
def table : Peg Unit := rule do
  let header (array : Bool) : Peg Unit := rule do
    lit (if array then "[[" else "[")
    ws
    let a ← position
    let keys ← rule do
      let first ← rule key
      let rest ← many (do
        rule (do ws; lit "."; ws)
        rule key)
      pure (first :: rest)
    let b ← position
    let text ← textBetween a b
    ws
    lit (if array then "]]" else "]")
    emit (.header keys text array (← lineNow))
  orElse (header false) (header true)

/-- One expression: a table header with the key/value lines after it, a key/value line, a
comment, or nothing. -/
def expression (fuel : Nat) : Peg Unit := rule do
  orElse (rule do
      ws
      table
      ws
      let _ ← opt comment
      let _ ← many (do
        wsnl
        keyval fuel false
        ws
        let _ ← opt comment))
    (orElse (do ws; keyval fuel false; ws; let _ ← opt comment)
      (orElse (do ws; let _ ← opt comment) ws))

/-- A whole document. -/
def document (fuel : Nat) : Peg Unit := rule do
  expression fuel
  let _ ← many (do newline; expression fuel)
  let _ ← opt newline
  notAhead (charIf fun _ => true)

/-- The line of the character at a position: one more than the line feeds up to and
including it. -/
def lineOfPosition (s : Array Char) (p : Nat) : Nat :=
  1 + ((s.extract 0 (p + 1)).toList.filter (· == '\n')).length

/-- The statements of a text, or the line where it stops matching the grammar. -/
def statements (text : String) : Except Nat (List Statement) :=
  let s := text.toList.toArray
  match document (s.size + 1) s ⟨0, 0, 1, []⟩ with
  | (some (), c) => .ok c.out.reverse
  | (none, c) => .error (max 1 (lineOfPosition s c.furthest))

end BasicJvm.Toml
