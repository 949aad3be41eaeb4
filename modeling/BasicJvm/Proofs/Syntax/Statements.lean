import BasicJvm.Proofs.Syntax.Climbing

/-!
# The grammar of programs

The parser's grammar, as its documentation gives it, read the way the parser reads it:

```text
program    = { line } END-OF-FILE
line       = NUMBER statement { ":" statement } (END-OF-LINE | END-OF-FILE)
statement  = PRINT { expression | ";" | "," }
           | GO TO NUMBER | GO SUB NUMBER | RETURN | END | STOP
           | ON expression GO TO NUMBER { "," NUMBER }
           | IF expression THEN (NUMBER | statement)
           | [LET] variable "=" expression
           | DIM NAME "(" expression { "," expression } ")" { "," … }
           | FOR NAME "=" expression TO expression [STEP expression]
           | NEXT [NAME { "," NAME }]
           | INPUT [STRING ";"] variable { "," variable }
           | DATA ["-"] (NUMBER | STRING) { "," … }
           | READ variable { "," variable }
           | RESTORE [NUMBER]
           | REM <rest of the line>
```

Each relation here reads from one parser state to another with the parser's own `peekToken`,
`nextToken` and `restOfLine`, and gives what the parser builds.  Three readings of the
grammar are fixed the way the parser fixes them:

* An expression is the longest one the stratified grammar derives (`ExprText`), so in
  `PRINT "A" -1` the minus is a binary operator, never the sign of a second item.
* The checks the parser makes as it builds are part of the reading: expressions type check,
  conditions, selectors, bounds, steps, indexes and sizes are numbers, an assignment's value
  has its target's type, a `FOR` or `NEXT` variable is numeric, a `DATA` sign stands only
  before a number, and a `NUMBER` used as a label is a decimal label from 1 to 2^63 - 1,
  written back without leading zeros (`Token.label?`).
* Two expressions side by side in a `PRINT` are separated by a space item (`spaced`).

Labels that repeat are not the grammar's business: the parser refuses them on top of it.
-/

namespace BasicJvm.Source

/-- The value of a string of decimal digits. -/
def decimalValue (cs : List Char) : Nat :=
  cs.foldl (fun acc c => acc * 10 + (c.toNat - 48)) 0

/-- The label a number token spells: its digits, of a value from 1 to 2^63 - 1, written
without leading zeros. -/
def Token.label? (t : Token) : Option String :=
  if t.kind = .number ∧ t.text.toList ≠ [] ∧ (∀ c ∈ t.text.toList, '0' ≤ c ∧ c ≤ '9') ∧
      0 < decimalValue t.text.toList ∧ decimalValue t.text.toList < 2 ^ 63 then
    some (toString (decimalValue t.text.toList))
  else none

end BasicJvm.Source

namespace BasicJvm.Syntax

open BasicJvm.Source BasicJvm.Number

/-! ## Expressions, variables and labels -/

/-- `ExprText s e s'`: from `s` the stratified grammar derives a tree that type checks to
`e`, and stops at `s'`. -/
def ExprText (s : ParserState) (e : Expr) (s' : ParserState) : Prop :=
  ∃ t, Stratified 1 s t s' ∧ t.typed = some e

/-- A numeric expression. -/
def NumericText (s : ParserState) (e : Expr) (s' : ParserState) : Prop :=
  ExprText s e s' ∧ e.type = .number

/-- The indexes after a variable's name, each a number; none without a parenthesis. -/
def IndexText (s : ParserState) (idx : List Expr) (s' : ParserState) : Prop :=
  ∃ ts, Subscripts s ts s' ∧ Tree.typedAll ts = some idx ∧ ∀ x ∈ idx, x.type = .number

/-- Numeric expressions separated by commas, up to the closing parenthesis. -/
def SizesText (s : ParserState) (sizes : List Expr) (s' : ParserState) : Prop :=
  ∃ ts, Items s ts s' ∧ Tree.typedAll ts = some sizes ∧ ∀ x ∈ sizes, x.type = .number

/-- A token of the given kind and text, read. -/
def Expect (k : TokenKind) (x : String) (s s' : ParserState) : Prop :=
  ∃ tok, nextToken.run s = .ok (tok, s') ∧ tok.isA k x = true

/-- `Target s label s'`: a line label, read. -/
def Target (s : ParserState) (label : String) (s' : ParserState) : Prop :=
  ∃ tok, nextToken.run s = .ok (tok, s') ∧ tok.label? = some label

/-! ## Lists -/

/-- `CommaList item s as s'`: items separated by commas, the list ending where no comma
follows an item. -/
inductive CommaList {α : Type} (item : ParserState → α → ParserState → Prop) :
    ParserState → List α → ParserState → Prop where
  | last {s : ParserState} {a : α} {s₁ : ParserState} {tok : Token} {s' : ParserState}
      (first : item s a s₁) (peek : peekToken.run s₁ = .ok (tok, s'))
      (notComma : tok.isA .symbol "," = false) : CommaList item s [a] s'
  | more {s : ParserState} {a : α} {s₁ : ParserState} {tok : Token} {s₂ s₃ : ParserState}
      {as : List α} {s' : ParserState}
      (first : item s a s₁) (peek : peekToken.run s₁ = .ok (tok, s₂))
      (isComma : tok.isA .symbol "," = true) (take : nextToken.run s₂ = .ok (tok, s₃))
      (rest : CommaList item s₃ as s') : CommaList item s (a :: as) s'

/-- A variable: its name, then its indexes. -/
def VariableText (s : ParserState) (v : Variable) (s' : ParserState) : Prop :=
  ∃ name s₁ idx, nextToken.run s = .ok (name, s₁) ∧ name.kind = .name ∧
    IndexText s₁ idx s' ∧ v = ⟨name.text, idx⟩

/-- An array of a `DIM` statement: its name and its sizes in parentheses. -/
def ArrayText (s : ParserState) (a : ArrayDecl) (s' : ParserState) : Prop :=
  ∃ name s₁ s₂ sizes, nextToken.run s = .ok (name, s₁) ∧ name.kind = .name ∧
    Expect .symbol "(" s₁ s₂ ∧ SizesText s₂ sizes s' ∧ a = ⟨name.text, sizes⟩

/-- A variable of a `NEXT` statement: the name of a numeric scalar. -/
def CounterText (s : ParserState) (x : String) (s' : ParserState) : Prop :=
  ∃ name, nextToken.run s = .ok (name, s') ∧ name.kind = .name ∧
    ValueType.ofName name.text = .number ∧ x = name.text

/-- A constant of a `DATA` statement: a number, perhaps after a minus, or a text. -/
inductive DataText : ParserState → DataValue → ParserState → Prop where
  | number {s : ParserState} {tok : Token} {s' : ParserState} {v : Single}
      (take : nextToken.run s = .ok (tok, s')) (kind : tok.kind = .number)
      (value : readSingle tok.text = some v) : DataText s (.number v) s'
  | negative {s : ParserState} {sign : Token} {s₁ : ParserState} {tok : Token}
      {s' : ParserState} {v : Single}
      (first : nextToken.run s = .ok (sign, s₁)) (isSign : sign.isA .symbol "-" = true)
      (take : nextToken.run s₁ = .ok (tok, s')) (kind : tok.kind = .number)
      (value : readSingle tok.text = some v) : DataText s (.number v.neg) s'
  | text {s : ParserState} {tok : Token} {s' : ParserState}
      (take : nextToken.run s = .ok (tok, s')) (kind : tok.kind = .string) :
      DataText s (.text tok.text) s'

/-! ## `PRINT` items -/

/-- The items after an expression: a space goes before an expression that follows it
directly. -/
def spaced : List PrintItem → List PrintItem
  | .expr e :: rest => .space :: .expr e :: rest
  | items => items

/-- `PrintText s items s'`: the items of a `PRINT` statement, up to the end of the
statement. -/
inductive PrintText : ParserState → List PrintItem → ParserState → Prop where
  | stop {s : ParserState} {tok : Token} {s' : ParserState}
      (peek : peekToken.run s = .ok (tok, s')) (ends : endsStatement tok = true) :
      PrintText s [] s'
  | semicolon {s : ParserState} {tok : Token} {s₁ s₂ : ParserState} {items : List PrintItem}
      {s' : ParserState}
      (peek : peekToken.run s = .ok (tok, s₁)) (isSemicolon : tok.isA .symbol ";" = true)
      (take : nextToken.run s₁ = .ok (tok, s₂)) (rest : PrintText s₂ items s') :
      PrintText s (.semicolon :: items) s'
  | comma {s : ParserState} {tok : Token} {s₁ s₂ : ParserState} {items : List PrintItem}
      {s' : ParserState}
      (peek : peekToken.run s = .ok (tok, s₁)) (isComma : tok.isA .symbol "," = true)
      (take : nextToken.run s₁ = .ok (tok, s₂)) (rest : PrintText s₂ items s') :
      PrintText s (.comma :: items) s'
  | expr {s : ParserState} {tok : Token} {s₁ : ParserState} {e : Expr} {s₂ : ParserState}
      {items : List PrintItem} {s' : ParserState}
      (peek : peekToken.run s = .ok (tok, s₁)) (notEnd : endsStatement tok = false)
      (notSemicolon : tok.isA .symbol ";" = false) (notComma : tok.isA .symbol "," = false)
      (value : ExprText s₁ e s₂) (rest : PrintText s₂ items s') :
      PrintText s (.expr e :: spaced items) s'

/-! ## Statements -/

/-- An assignment after the target's name: the indexes, `=`, and a value of the target's
type. -/
def AssignText (name : Token) (s : ParserState) (st : Stmt) (s' : ParserState) : Prop :=
  ∃ idx s₁ s₂ value, IndexText s idx s₁ ∧ Expect .symbol "=" s₁ s₂ ∧ ExprText s₂ value s' ∧
    value.type = ValueType.ofName name.text ∧ st = .assign ⟨name.text, idx⟩ value

/-- `StmtText s st s'`: one statement, read from `s` to `s'`, is `st`. -/
inductive StmtText : ParserState → Stmt → ParserState → Prop where
  | assign {s : ParserState} {name : Token} {s₁ : ParserState} {st : Stmt} {s' : ParserState}
      (take : nextToken.run s = .ok (name, s₁)) (kind : name.kind = .name)
      (body : AssignText name s₁ st s') : StmtText s st s'
  | letAssign {s s₁ : ParserState} {name : Token} {s₂ : ParserState} {st : Stmt}
      {s' : ParserState}
      (word : Expect .keyword "LET" s s₁) (take : nextToken.run s₁ = .ok (name, s₂))
      (kind : name.kind = .name) (body : AssignText name s₂ st s') : StmtText s st s'
  | print {s s₁ : ParserState} {items : List PrintItem} {s' : ParserState}
      (word : Expect .keyword "PRINT" s s₁) (body : PrintText s₁ items s') :
      StmtText s (.print items) s'
  | goto {s s₁ s₂ : ParserState} {label : String} {s' : ParserState}
      (word : Expect .keyword "GO" s s₁) (toWord : Expect .keyword "TO" s₁ s₂)
      (target : Target s₂ label s') : StmtText s (.goto label) s'
  | gosub {s s₁ s₂ : ParserState} {label : String} {s' : ParserState}
      (word : Expect .keyword "GO" s s₁) (subWord : Expect .keyword "SUB" s₁ s₂)
      (target : Target s₂ label s') : StmtText s (.gosub label) s'
  | onGoto {s s₁ : ParserState} {e : Expr} {s₂ s₃ s₄ : ParserState} {labels : List String}
      {s' : ParserState}
      (word : Expect .keyword "ON" s s₁) (selector : NumericText s₁ e s₂)
      (goWord : Expect .keyword "GO" s₂ s₃) (toWord : Expect .keyword "TO" s₃ s₄)
      (targets : CommaList Target s₄ labels s') : StmtText s (.onGoto e labels) s'
  | ret {s s' : ParserState} (word : Expect .keyword "RETURN" s s') : StmtText s .ret s'
  | finish {s s' : ParserState} (word : Expect .keyword "END" s s') : StmtText s .finish s'
  | stop {s s' : ParserState} (word : Expect .keyword "STOP" s s') : StmtText s .stop s'
  | ifGoto {s s₁ : ParserState} {cond : Expr} {s₂ s₃ : ParserState} {tok : Token}
      {s₄ : ParserState} {label : String} {s' : ParserState}
      (word : Expect .keyword "IF" s s₁) (test : NumericText s₁ cond s₂)
      (thenWord : Expect .keyword "THEN" s₂ s₃) (peek : peekToken.run s₃ = .ok (tok, s₄))
      (kind : tok.kind = .number) (target : Target s₄ label s') :
      StmtText s (.ifThen cond (.goto label)) s'
  | ifThen {s s₁ : ParserState} {cond : Expr} {s₂ s₃ : ParserState} {tok : Token}
      {s₄ : ParserState} {body : Stmt} {s' : ParserState}
      (word : Expect .keyword "IF" s s₁) (test : NumericText s₁ cond s₂)
      (thenWord : Expect .keyword "THEN" s₂ s₃) (peek : peekToken.run s₃ = .ok (tok, s₄))
      (kind : tok.kind ≠ .number) (inner : StmtText s₄ body s') :
      StmtText s (.ifThen cond body) s'
  | dim {s s₁ : ParserState} {arrays : List ArrayDecl} {s' : ParserState}
      (word : Expect .keyword "DIM" s s₁) (body : CommaList ArrayText s₁ arrays s') :
      StmtText s (.dim arrays) s'
  | forLoop {s s₁ : ParserState} {name : Token} {s₂ s₃ : ParserState} {start : Expr}
      {s₄ s₅ : ParserState} {limit : Expr} {s₆ : ParserState} {tok : Token} {s' : ParserState}
      (word : Expect .keyword "FOR" s s₁) (take : nextToken.run s₁ = .ok (name, s₂))
      (kind : name.kind = .name) (numeric : ValueType.ofName name.text = .number)
      (eq : Expect .symbol "=" s₂ s₃) (first : NumericText s₃ start s₄)
      (toWord : Expect .keyword "TO" s₄ s₅) (bound : NumericText s₅ limit s₆)
      (peek : peekToken.run s₆ = .ok (tok, s')) (noStep : tok.isA .keyword "STEP" = false) :
      StmtText s (.forLoop name.text start limit none) s'
  | forStep {s s₁ : ParserState} {name : Token} {s₂ s₃ : ParserState} {start : Expr}
      {s₄ s₅ : ParserState} {limit : Expr} {s₆ : ParserState} {tok : Token}
      {s₇ s₈ : ParserState} {step : Expr} {s' : ParserState}
      (word : Expect .keyword "FOR" s s₁) (take : nextToken.run s₁ = .ok (name, s₂))
      (kind : name.kind = .name) (numeric : ValueType.ofName name.text = .number)
      (eq : Expect .symbol "=" s₂ s₃) (first : NumericText s₃ start s₄)
      (toWord : Expect .keyword "TO" s₄ s₅) (bound : NumericText s₅ limit s₆)
      (peek : peekToken.run s₆ = .ok (tok, s₇)) (isStep : tok.isA .keyword "STEP" = true)
      (stepWord : nextToken.run s₇ = .ok (tok, s₈)) (increment : NumericText s₈ step s') :
      StmtText s (.forLoop name.text start limit (some step)) s'
  | nextAll {s s₁ : ParserState} {tok : Token} {s' : ParserState}
      (word : Expect .keyword "NEXT" s s₁) (peek : peekToken.run s₁ = .ok (tok, s'))
      (ends : endsStatement tok = true) : StmtText s (.next []) s'
  | next {s s₁ : ParserState} {tok : Token} {s₂ : ParserState} {xs : List String}
      {s' : ParserState}
      (word : Expect .keyword "NEXT" s s₁) (peek : peekToken.run s₁ = .ok (tok, s₂))
      (notEnd : endsStatement tok = false) (counters : CommaList CounterText s₂ xs s') :
      StmtText s (.next xs) s'
  | input {s s₁ : ParserState} {tok : Token} {s₂ : ParserState} {vs : List Variable}
      {s' : ParserState}
      (word : Expect .keyword "INPUT" s s₁) (peek : peekToken.run s₁ = .ok (tok, s₂))
      (noPrompt : tok.kind ≠ .string) (targets : CommaList VariableText s₂ vs s') :
      StmtText s (.input "" vs) s'
  | inputPrompt {s s₁ : ParserState} {tok : Token} {s₂ s₃ s₄ : ParserState}
      {vs : List Variable} {s' : ParserState}
      (word : Expect .keyword "INPUT" s s₁) (peek : peekToken.run s₁ = .ok (tok, s₂))
      (prompt : tok.kind = .string) (take : nextToken.run s₂ = .ok (tok, s₃))
      (semicolon : Expect .symbol ";" s₃ s₄) (targets : CommaList VariableText s₄ vs s') :
      StmtText s (.input tok.text vs) s'
  | data {s s₁ : ParserState} {values : List DataValue} {s' : ParserState}
      (word : Expect .keyword "DATA" s s₁) (body : CommaList DataText s₁ values s') :
      StmtText s (.data values) s'
  | read {s s₁ : ParserState} {vs : List Variable} {s' : ParserState}
      (word : Expect .keyword "READ" s s₁) (targets : CommaList VariableText s₁ vs s') :
      StmtText s (.read vs) s'
  | restoreAll {s s₁ : ParserState} {tok : Token} {s' : ParserState}
      (word : Expect .keyword "RESTORE" s s₁) (peek : peekToken.run s₁ = .ok (tok, s'))
      (ends : endsStatement tok = true) : StmtText s (.restore none) s'
  | restore {s s₁ : ParserState} {tok : Token} {s₂ : ParserState} {label : String}
      {s' : ParserState}
      (word : Expect .keyword "RESTORE" s s₁) (peek : peekToken.run s₁ = .ok (tok, s₂))
      (notEnd : endsStatement tok = false) (target : Target s₂ label s') :
      StmtText s (.restore (some label)) s'
  | rem {s s₁ : ParserState} {text : String} {s' : ParserState}
      (word : Expect .keyword "REM" s s₁) (rest : restOfLine.run s₁ = .ok (text, s')) :
      StmtText s (.rem text) s'

/-! ## Lines and programs -/

/-- `LineText s sts s'`: the statements of a line, separated by colons, up to the end of
the line or of the source. -/
inductive LineText : ParserState → List Stmt → ParserState → Prop where
  | last {s : ParserState} {st : Stmt} {s₁ : ParserState} {tok : Token} {s' : ParserState}
      (first : StmtText s st s₁) (take : nextToken.run s₁ = .ok (tok, s'))
      (ends : tok.kind = .endOfLine ∨ tok.kind = .endOfFile) : LineText s [st] s'
  | more {s : ParserState} {st : Stmt} {s₁ : ParserState} {tok : Token} {s₂ : ParserState}
      {sts : List Stmt} {s' : ParserState}
      (first : StmtText s st s₁) (take : nextToken.run s₁ = .ok (tok, s₂))
      (colon : tok.isA .symbol ":" = true) (rest : LineText s₂ sts s') :
      LineText s (st :: sts) s'

/-- `ProgramText s ls`: from `s` to the end of the source, blank lines and the lines `ls`.
While a line is read the state holds its label. -/
inductive ProgramText : ParserState → List Line → Prop where
  | done {s : ParserState} {tok : Token} {s' : ParserState}
      (take : nextToken.run s = .ok (tok, s')) (eof : tok.kind = .endOfFile) : ProgramText s []
  | blank {s : ParserState} {tok : Token} {s₁ : ParserState} {ls : List Line}
      (take : nextToken.run s = .ok (tok, s₁)) (eol : tok.kind = .endOfLine)
      (rest : ProgramText s₁ ls) : ProgramText s ls
  | line {s : ParserState} {tok : Token} {s₁ : ParserState} {label : String}
      {sts : List Stmt} {s₂ : ParserState} {ls : List Line}
      (take : nextToken.run s = .ok (tok, s₁)) (labelled : tok.label? = some label)
      (stmts : LineText { s₁ with label := label } sts s₂) (rest : ProgramText s₂ ls) :
      ProgramText s (⟨label, sts, tok.line⟩ :: ls)

end BasicJvm.Syntax
