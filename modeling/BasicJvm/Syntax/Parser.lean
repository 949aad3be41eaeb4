import BasicJvm.Source.Lexer
import BasicJvm.Syntax.Ast
import BasicJvm.Number.Reading
import BasicJvm.Text.Blank

/-!
# Parsing BASIC programs

The parser reads tokens on demand with one token of lookahead, because the text of a `REM`
comment is taken raw from the source rather than as tokens.  The grammar is

```text
program    = { line } END-OF-FILE
line       = NUMBER statement { ":" statement } (END-OF-LINE | END-OF-FILE)
statement  = PRINT { expression | ";" | "," }
           | GO TO NUMBER | GO SUB NUMBER | RETURN | END | STOP
           | ON expression GO TO NUMBER { "," NUMBER }
           | IF expression THEN (NUMBER | statement)
           | [LET] variable "=" expression
           | DIM NAME "(" expression { "," expression } ")" { "," … }
           | FOR NAME "=" expression TO expression [STEP expression]
           | NEXT [NAME { "," NAME }]
           | INPUT [STRING ";"] variable { "," variable }
           | DATA ["-"] (NUMBER | STRING) { "," … }
           | READ variable { "," variable }
           | RESTORE [NUMBER]
           | REM <rest of the line>
variable   = NAME [ "(" expression { "," expression } ")" ]
expression = atom { binop expression }
atom       = NUMBER | STRING | variable | FUNCTION "(" expression { "," expression } ")"
           | "(" expression ")" | ("+" | "-") expression
```

Expressions are parsed by precedence climbing: `exprAbove p` reads an atom and then every
operator of precedence at least `p`, parsing the right operand one level tighter for a
left-grouping operator and at the same level for `^`; a sign takes its operand at the level
of `^`.  Types are checked as the tree is built, so a parsed program is well typed.

Line labels are positive decimal numbers below 2^63, written back without leading zeros;
the lines of a program are sorted by label, lines with equal labels being refused.

Every error but a scanning failure is a `ParseProblem`, reported with the line's label
(once it is read), the source line number and the trimmed text of that source line.  The
recursion is bounded by fuel proportional to the length of the source; each step that uses
fuel reads a token or leads to one that does, so the bound is never reached.
-/

-- Powers use the core `NatPow` instance also where an algebra library is loaded, so that
-- the definitions below elaborate to the same terms in every build.
attribute [local instance (high)] instPowNat

namespace BasicJvm.Syntax

open BasicJvm.Source
open BasicJvm.Number

/-- How a token is named in messages. -/
def describeToken (t : Token) : String :=
  match t.kind with
  | .endOfFile | .endOfLine => t.kind.label
  | .string => "string " ++ Text.quote t.text
  | k => k.label.toLower ++ " " ++ Text.quote t.text

/-- Why a token sequence is not a well-typed program. -/
inductive ParseProblem where
  | expected (what : String) (got : Token)
  | expectedLabel (got : Token)
  | invalidLabel (text : String)
  | duplicateLabel (label : String) (firstLine : Nat)
  | unexpectedAfterStatement (got : Token)
  | expectedStatement (got : Token)
  | unexpectedKeyword (word : String)
  | expectedVariableAfterLet (got : Token)
  | expectedToOrSub (got : Token)
  | cannotAssign (value target : ValueType) (name : String)
  | expectedArrayName (got : Token)
  | forNeedsNumber (got : Token)
  | nextNeedsNumber (got : Token)
  | expectedDataConstant (got : Token)
  | expectedVariable (got : Token)
  | expectedSeparator (got : Token)
  | needsNumber (what : String) (got : ValueType)
  | invalidNumber (text : String)
  | typeMismatch (left : ValueType) (op : BinOp) (right : ValueType)
  | needsNumbers (op : BinOp) (got : ValueType)
  | unaryNeedsNumber (sign : String) (got : ValueType)
  | expectedExpression (got : Token)
  | badCall (e : CallError)
  /-- The parser's recursion bound was reached. -/
  | tooDeep
  deriving Repr

/-- The text of a parse problem. -/
def ParseProblem.message : ParseProblem → String
  | .expected what got => "expected " ++ what ++ ", got " ++ describeToken got
  | .expectedLabel got => "expected line label, got " ++ describeToken got
  | .invalidLabel text => "invalid line label " ++ Text.quote text
  | .duplicateLabel label first =>
    "duplicate line label " ++ label ++ " (first used on line " ++ toString first ++ ")"
  | .unexpectedAfterStatement got => "unexpected " ++ describeToken got ++ " after statement"
  | .expectedStatement got => "expected statement, got " ++ describeToken got
  | .unexpectedKeyword word => "unexpected keyword " ++ word
  | .expectedVariableAfterLet got => "expected variable after LET, got " ++ describeToken got
  | .expectedToOrSub got => "expected TO or SUB after GO, got " ++ describeToken got
  | .cannotAssign value target name =>
    "cannot assign " ++ value.label ++ " to " ++ target.label ++ " variable " ++ name
  | .expectedArrayName got => "expected array name, got " ++ describeToken got
  | .forNeedsNumber got => "FOR needs a numeric variable, got " ++ describeToken got
  | .nextNeedsNumber got => "NEXT needs a numeric variable, got " ++ describeToken got
  | .expectedDataConstant got => "expected DATA constant, got " ++ describeToken got
  | .expectedVariable got => "expected variable, got " ++ describeToken got
  | .expectedSeparator got => "expected , or ), got " ++ describeToken got
  | .needsNumber what got => what ++ " needs a numeric expression, got " ++ got.label
  | .invalidNumber text => "invalid number " ++ Text.quote text
  | .typeMismatch l op r => "type mismatch: " ++ l.label ++ " " ++ op.text ++ " " ++ r.label
  | .needsNumbers op got => "operator " ++ op.text ++ " needs numbers, got " ++ got.label
  | .unaryNeedsNumber sign got => "unary " ++ sign ++ " needs a number, got " ++ got.label
  | .expectedExpression got => "expected expression, got " ++ describeToken got
  | .badCall e => e.message
  | .tooDeep => "program nested too deeply"

/-- Why a source is not a program: a scanning failure, or a parse problem with the label
of the line being parsed (empty before the label is read), the source line number and the
trimmed source line. -/
inductive ParseError where
  | lex (e : LexError)
  | grammar (label : String) (line : Nat) (problem : ParseProblem) (snippet : String)
  deriving Repr

/-- The full text of a parse error. -/
def ParseError.message : ParseError → String
  | .lex e => e.message
  | .grammar label line problem snippet =>
    let place :=
      if label.isEmpty then "line " ++ toString line
      else "line " ++ toString line ++ " (label " ++ label ++ ")"
    place ++ ": " ++ problem.message ++ "\n  |> " ++ snippet

/-- The parser's state: the source, the scanning position and line, the token looked at
but not consumed, and the label of the line being parsed. -/
structure ParserState where
  src : Array Char
  sourceLines : Array String
  pos : Nat
  line : Nat
  peeked : Option Token
  label : String

/-- Parsing actions. -/
abbrev ParseM := StateT ParserState (Except ParseError)

/-- Fail with a problem located at a token. -/
def failAt {α : Type} (tok : Token) (problem : ParseProblem) : ParseM α := do
  let s ← get
  let snippet := match s.sourceLines[tok.line - 1]? with
    | some text => if tok.line == 0 then "<source unavailable>" else Text.trimBlank text
    | none => "<source unavailable>"
  throw (.grammar s.label tok.line problem snippet)

/-- The next token, without consuming it. -/
def peekToken : ParseM Token := do
  let s ← get
  match s.peeked with
  | some t => return t
  | none =>
    match scanAt s.src s.pos s.line with
    | .error e => throw (.lex e)
    | .ok (tok, pos, line) =>
      set { s with pos := pos, line := line, peeked := some tok }
      return tok

/-- Consume the next token. -/
def nextToken : ParseM Token := do
  let t ← peekToken
  modify fun s => { s with peeked := none }
  return t

/-- The raw rest of the current source line from the token looked at (or from the
scanning position), up to but not including the newline. -/
def restOfLine : ParseM String := do
  let s ← get
  let (pos, line) := match s.peeked with
    | some t => (t.start, t.line)
    | none => (s.pos, s.line)
  let stop := skipWhile (· != '\n') s.src pos
  set { s with pos := stop, line := line, peeked := none }
  return slice s.src pos stop

/-- Consume the next token if it has this kind and text. -/
def acceptToken (kind : TokenKind) (text : String) : ParseM Bool := do
  let t ← peekToken
  if t.isA kind text then
    let _ ← nextToken
    return true
  else return false

/-- Consume a token that must have this kind and text. -/
def expectToken (kind : TokenKind) (text : String) : ParseM Token := do
  let t ← nextToken
  if t.isA kind text then return t else failAt t (.expected text t)

/-- Whether a token ends a statement. -/
def endsStatement (t : Token) : Bool :=
  t.kind == .endOfLine || t.kind == .endOfFile || t.isA .symbol ":"

/-- The operator that a token spells, if any. -/
def binOpOf (t : Token) : Option BinOp :=
  if t.kind == .symbol || t.kind == .keyword then BinOp.all.find? (·.text == t.text)
  else none

/-- The canonical label of a line-label token: the decimal value of its digits, which must
be positive and below 2^63. -/
def labelOf (t : Token) : ParseM String :=
  if t.kind != .number then failAt t (.expectedLabel t)
  else
    let cs := t.text.toList
    let n := cs.foldl (fun acc c => acc * 10 + (c.toNat - 48)) 0
    if !cs.isEmpty && cs.all (fun c => '0' ≤ c && c ≤ '9') && 0 < n && n < 2 ^ (63 : Nat) then
      return toString n
    else failAt t (.invalidLabel t.text)

/-- Read a line-label token. -/
def parseTarget : ParseM String := do
  labelOf (← nextToken)

/-- The binary32 value of a number token. -/
def numberOf (t : Token) : ParseM Single :=
  match readSingle t.text with
  | some v => return v
  | none => failAt t (.invalidNumber t.text)

/-- Build a binary expression, checking the operand types at the operator token. -/
def combine (tok : Token) (op : BinOp) (left right : Expr) : ParseM Expr :=
  if left.type != right.type then failAt tok (.typeMismatch left.type op right.type)
  else if left.type == .text && op != .add && !op.isComparison then
    failAt tok (.needsNumbers op left.type)
  else return .binary op left right

/-- Fail because the recursion bound was reached. -/
def outOfFuel {α : Type} : ParseM α := do
  failAt (← peekToken) .tooDeep

mutual

/-- An atom followed by every operator of precedence at least `minPrec`. -/
def exprAbove (fuel minPrec : Nat) : ParseM Expr :=
  match fuel with
  | 0 => outOfFuel
  | fuel + 1 => do
    let left ← atom fuel
    climb fuel minPrec left

/-- Extend `left` with operators of precedence at least `minPrec`. -/
def climb (fuel minPrec : Nat) (left : Expr) : ParseM Expr :=
  match fuel with
  | 0 => outOfFuel
  | fuel + 1 => do
    let tok ← peekToken
    match binOpOf tok with
    | none => return left
    | some op =>
      if op.precedence < minPrec then return left
      else
        let _ ← nextToken
        let next := if op.rightAssoc then op.precedence else op.precedence + 1
        let right ← exprAbove fuel next
        let e ← combine tok op left right
        climb fuel minPrec e

/-- A number, text, variable, call, parenthesized expression or signed operand. -/
def atom (fuel : Nat) : ParseM Expr :=
  match fuel with
  | 0 => outOfFuel
  | fuel + 1 => do
    let tok ← nextToken
    match tok.kind with
    | .number => return .number (← numberOf tok)
    | .string => return .text tok.text
    | .name =>
      let v ← reference fuel tok
      return v.toExpr
    | .function =>
      let openTok ← expectToken .symbol "("
      let args ← callArgs fuel []
      match lookupBuiltin tok.text (args.map Expr.type) with
      | .ok f => return .call f args
      | .error e => failAt openTok (.badCall e)
    | .symbol =>
      if tok.text == "(" then
        let e ← exprAbove fuel 1
        let _ ← expectToken .symbol ")"
        return e
      else if tok.text == "-" || tok.text == "+" then
        let operand ← exprAbove fuel unaryPrecedence
        if operand.type != .number then failAt tok (.unaryNeedsNumber tok.text operand.type)
        else if tok.text == "+" then return operand
        else return .neg operand
      else failAt tok (.expectedExpression tok)
    | _ => failAt tok (.expectedExpression tok)

/-- Call arguments up to the closing parenthesis, after the arguments `acc` (newest
first). -/
def callArgs (fuel : Nat) (acc : List Expr) : ParseM (List Expr) :=
  match fuel with
  | 0 => outOfFuel
  | fuel + 1 => do
    let e ← exprAbove fuel 1
    let tok ← nextToken
    if tok.isA .symbol ")" then return (e :: acc).reverse
    else if tok.isA .symbol "," then callArgs fuel (e :: acc)
    else failAt tok (.expectedSeparator tok)

/-- A variable whose name token has been read, with its indexes if a parenthesis
follows. -/
def reference (fuel : Nat) (name : Token) : ParseM Variable :=
  match fuel with
  | 0 => outOfFuel
  | fuel + 1 => do
    let tok ← peekToken
    if tok.isA .symbol "(" then
      let _ ← nextToken
      let idx ← indexes fuel tok []
      return ⟨name.text, idx⟩
    else return ⟨name.text, []⟩

/-- Numeric expressions up to the closing parenthesis, after `acc` (newest first); type
errors are reported at the opening parenthesis. -/
def indexes (fuel : Nat) (openTok : Token) (acc : List Expr) : ParseM (List Expr) :=
  match fuel with
  | 0 => outOfFuel
  | fuel + 1 => do
    let e ← numeric fuel openTok "index"
    let tok ← nextToken
    if tok.isA .symbol ")" then return (e :: acc).reverse
    else if tok.isA .symbol "," then indexes fuel openTok (e :: acc)
    else failAt tok (.expectedSeparator tok)

/-- An expression that must be a number; a text is reported at the token `anchor`. -/
def numeric (fuel : Nat) (anchor : Token) (what : String) : ParseM Expr :=
  match fuel with
  | 0 => outOfFuel
  | fuel + 1 => do
    let e ← exprAbove fuel 1
    if e.type != .number then failAt anchor (.needsNumber what e.type) else return e

end

/-- The items of a `PRINT` statement, after `acc` (newest first). -/
def printItems (fuel : Nat) (acc : List PrintItem) : ParseM (List PrintItem) :=
  match fuel with
  | 0 => outOfFuel
  | fuel + 1 => do
    let tok ← peekToken
    if endsStatement tok then return acc.reverse
    else if tok.isA .symbol ";" then
      let _ ← nextToken
      printItems fuel (.semicolon :: acc)
    else if tok.isA .symbol "," then
      let _ ← nextToken
      printItems fuel (.comma :: acc)
    else
      let acc := match acc with
        | .expr e :: rest => PrintItem.space :: .expr e :: rest
        | _ => acc
      let e ← exprAbove fuel 1
      printItems fuel (.expr e :: acc)

/-- Line labels separated by commas, after `acc` (newest first). -/
def labelList (fuel : Nat) (acc : List String) : ParseM (List String) :=
  match fuel with
  | 0 => outOfFuel
  | fuel + 1 => do
    let label ← parseTarget
    if ← acceptToken .symbol "," then labelList fuel (label :: acc)
    else return (label :: acc).reverse

/-- Variables separated by commas, after `acc` (newest first). -/
def variableList (fuel : Nat) (acc : List Variable) : ParseM (List Variable) :=
  match fuel with
  | 0 => outOfFuel
  | fuel + 1 => do
    let name ← nextToken
    if name.kind != .name then failAt name (.expectedVariable name)
    else
      let v ← reference fuel name
      if ← acceptToken .symbol "," then variableList fuel (v :: acc)
      else return (v :: acc).reverse

/-- The arrays of a `DIM` statement, after `acc` (newest first). -/
def dimArrays (fuel : Nat) (acc : List ArrayDecl) : ParseM (List ArrayDecl) :=
  match fuel with
  | 0 => outOfFuel
  | fuel + 1 => do
    let name ← nextToken
    if name.kind != .name then failAt name (.expectedArrayName name)
    else
      let openTok ← expectToken .symbol "("
      let sizes ← indexes fuel openTok []
      let decl : ArrayDecl := ⟨name.text, sizes⟩
      if ← acceptToken .symbol "," then dimArrays fuel (decl :: acc)
      else return (decl :: acc).reverse

/-- The variables of a `NEXT` statement, after `acc` (newest first). -/
def nextVars (fuel : Nat) (acc : List String) : ParseM (List String) :=
  match fuel with
  | 0 => outOfFuel
  | fuel + 1 => do
    let name ← nextToken
    if name.kind != .name || ValueType.ofName name.text != .number then
      failAt name (.nextNeedsNumber name)
    else if ← acceptToken .symbol "," then nextVars fuel (name.text :: acc)
    else return (name.text :: acc).reverse

/-- The constants of a `DATA` statement, after `acc` (newest first). -/
def dataValues (fuel : Nat) (acc : List DataValue) : ParseM (List DataValue) :=
  match fuel with
  | 0 => outOfFuel
  | fuel + 1 => do
    let first ← nextToken
    let negative := first.isA .symbol "-"
    let tok ← if negative then nextToken else pure first
    let value ←
      if tok.kind == .number then do
        let v ← numberOf tok
        pure (DataValue.number (if negative then v.neg else v))
      else if tok.kind == .string && !negative then pure (DataValue.text tok.text)
      else failAt tok (.expectedDataConstant tok)
    if ← acceptToken .symbol "," then dataValues fuel (value :: acc)
    else return (value :: acc).reverse

/-- An assignment whose target name token has been read. -/
def assignment (fuel : Nat) (name : Token) : ParseM Stmt := do
  let v ← reference fuel name
  let eq ← expectToken .symbol "="
  let value ← exprAbove fuel 1
  if value.type != v.type then failAt eq (.cannotAssign value.type v.type v.name)
  else return .assign v value

/-- One statement. -/
def statement (fuel : Nat) : ParseM Stmt :=
  match fuel with
  | 0 => outOfFuel
  | fuel + 1 => do
    let tok ← nextToken
    if tok.kind == .name then assignment fuel tok
    else if tok.kind != .keyword then failAt tok (.expectedStatement tok)
    else match tok.text with
    | "PRINT" => return .print (← printItems fuel [])
    | "GO" =>
      let t ← nextToken
      if t.isA .keyword "TO" then return .goto (← parseTarget)
      else if t.isA .keyword "SUB" then return .gosub (← parseTarget)
      else failAt t (.expectedToOrSub t)
    | "ON" =>
      let e ← numeric fuel tok "ON"
      let _ ← expectToken .keyword "GO"
      let _ ← expectToken .keyword "TO"
      return .onGoto e (← labelList fuel [])
    | "RETURN" => return .ret
    | "END" => return .finish
    | "STOP" => return .stop
    | "IF" =>
      let cond ← numeric fuel tok "IF"
      let _ ← expectToken .keyword "THEN"
      let t ← peekToken
      if t.kind == .number then return .ifThen cond (.goto (← parseTarget))
      else return .ifThen cond (← statement fuel)
    | "LET" =>
      let name ← nextToken
      if name.kind != .name then failAt name (.expectedVariableAfterLet name)
      else assignment fuel name
    | "DIM" => return .dim (← dimArrays fuel [])
    | "FOR" =>
      let name ← nextToken
      if name.kind != .name || ValueType.ofName name.text != .number then
        failAt name (.forNeedsNumber name)
      else
        let eq ← expectToken .symbol "="
        let start ← numeric fuel eq "FOR"
        let toTok ← expectToken .keyword "TO"
        let limit ← numeric fuel toTok "TO"
        let stepTok ← peekToken
        if stepTok.isA .keyword "STEP" then
          let _ ← nextToken
          let step ← numeric fuel stepTok "STEP"
          return .forLoop name.text start limit (some step)
        else return .forLoop name.text start limit none
    | "NEXT" =>
      let t ← peekToken
      if endsStatement t then return .next [] else return .next (← nextVars fuel [])
    | "INPUT" =>
      let t ← peekToken
      let prompt ← if t.kind == .string then do
          let _ ← nextToken
          let _ ← expectToken .symbol ";"
          pure t.text
        else pure ""
      return .input prompt (← variableList fuel [])
    | "DATA" => return .data (← dataValues fuel [])
    | "READ" => return .read (← variableList fuel [])
    | "RESTORE" =>
      let t ← peekToken
      if endsStatement t then return .restore none else return .restore (some (← parseTarget))
    | "REM" => return .rem (← restOfLine)
    | word => failAt tok (.unexpectedKeyword word)

/-- The statements of a line after the first, separated by colons, after `acc` (newest
first). -/
def lineStatements (fuel : Nat) (acc : List Stmt) : ParseM (List Stmt) :=
  match fuel with
  | 0 => outOfFuel
  | fuel + 1 => do
    let s ← statement fuel
    let tok ← nextToken
    if tok.isA .symbol ":" then lineStatements fuel (s :: acc)
    else if tok.kind != .endOfLine && tok.kind != .endOfFile then
      failAt tok (.unexpectedAfterStatement tok)
    else return (s :: acc).reverse

/-- The lines from the current position to the end, after `acc` (newest first); `seen`
pairs each label number read so far with its source line. -/
def programLines (fuel : Nat) (seen : List (Nat × Nat)) (acc : List Line) :
    ParseM (List Line) :=
  match fuel with
  | 0 => outOfFuel
  | fuel + 1 => do
    let tok ← nextToken
    if tok.kind == .endOfFile then return acc.reverse
    else if tok.kind == .endOfLine then programLines fuel seen acc
    else
      modify fun s => { s with label := "" }
      let label ← labelOf tok
      modify fun s => { s with label := label }
      let n := (decimalValue? label).getD 0
      match seen.lookup n with
      | some first => failAt tok (.duplicateLabel label first)
      | none =>
        let stmts ← lineStatements fuel []
        programLines fuel ((n, tok.line) :: seen) (⟨label, stmts, tok.line⟩ :: acc)

/-- The pieces of a text between newlines. -/
def sourceLinesOf (src : String) : Array String :=
  (src.splitOn "\n").toArray

/-- Parse a whole source into a program whose lines are sorted by label. -/
def parseProgram (src : String) : Except ParseError Program :=
  let chars := src.toList.toArray
  let start : ParserState := ⟨chars, sourceLinesOf src, 0, 1, none, ""⟩
  let fuel := 4 * (chars.size + 8)
  match (programLines fuel [] []).run' start with
  | .ok lines => .ok ⟨lines.mergeSort fun a b => a.number ≤ b.number⟩
  | .error e => .error e

end BasicJvm.Syntax
