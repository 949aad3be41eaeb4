import BasicJvm.Syntax.Ast
import BasicJvm.Number.Decimal
import BasicJvm.Text.Quoted

/-!
# Listing programs

The listing of a program is its canonical text: one line per program line, the label, a
space, and the statements joined by ` : `.  Assignments always show `LET`, `GOTO` and
`GOSUB` are written as one word, numbers in their shortest positional form, and an `INPUT`
prompt as quoted text.  `PRINT` items are written without spaces: `;` and `,` as they are,
and two expressions side by side with one space between them.

An expression is written with exactly the parentheses its tree needs.  `exprText e ctx`
writes `e` where the surrounding operator binds with precedence `ctx`: a binary operation
is put in parentheses when it binds more loosely than that, its left operand is written
at its own precedence and its right operand one level tighter (the other way round for
`^`), and a negation is parenthesized inside anything tighter than a sign.
-/

namespace BasicJvm.Syntax

open BasicJvm.Number

mutual

/-- An expression written where the context binds with precedence `ctx`. -/
def exprText : Expr → Nat → String
  | .number v, _ => v.positional
  | .text s, _ => "\"" ++ s ++ "\""
  | .ref name idx, _ => refText name idx
  | .neg x, ctx =>
    let s := "-" ++ exprText x unaryPrecedence
    if ctx > unaryPrecedence then "(" ++ s ++ ")" else s
  | .call f args, _ => f.name ++ "(" ++ exprListText args ++ ")"
  | .binary op l r, ctx =>
    let prec := op.precedence
    let (lctx, rctx) := if op.rightAssoc then (prec + 1, prec) else (prec, prec + 1)
    let s := exprText l lctx ++ " " ++ op.text ++ " " ++ exprText r rctx
    if prec < ctx then "(" ++ s ++ ")" else s

/-- Expressions separated by `, `. -/
def exprListText : List Expr → String
  | [] => ""
  | [e] => exprText e 0
  | e :: es => exprText e 0 ++ ", " ++ exprListText es

/-- A variable or array element. -/
def refText (name : String) : List Expr → String
  | [] => name
  | idx => name ++ "(" ++ exprListText idx ++ ")"

end

/-- A variable as written in a statement. -/
def Variable.text (v : Variable) : String := refText v.name v.indexes

/-- Variables separated by `, `. -/
def variablesText (vs : List Variable) : String := ", ".intercalate (vs.map Variable.text)

/-- One `PRINT` item. -/
def PrintItem.text : PrintItem → String
  | .expr e => exprText e 0
  | .semicolon => ";"
  | .comma => ","
  | .space => " "

/-- A `DATA` constant. -/
def DataValue.literal : DataValue → String
  | .number v => v.positional
  | .text s => "\"" ++ s ++ "\""

/-- The canonical text of a statement. -/
def Stmt.text : Stmt → String
  | .print items =>
    "PRINT" ++ (if items.isEmpty then "" else " ") ++ String.join (items.map PrintItem.text)
  | .goto t => "GOTO " ++ t
  | .gosub t => "GOSUB " ++ t
  | .ret => "RETURN"
  | .onGoto e ts => "ON " ++ exprText e 0 ++ " GOTO " ++ ", ".intercalate ts
  | .ifThen c (.goto t) => "IF " ++ exprText c 0 ++ " THEN " ++ t
  | .ifThen c s => "IF " ++ exprText c 0 ++ " THEN " ++ s.text
  | .assign v e => "LET " ++ v.text ++ " = " ++ exprText e 0
  | .dim arrays =>
    "DIM " ++ ", ".intercalate (arrays.map fun a => a.name ++ "(" ++ exprListText a.sizes ++ ")")
  | .forLoop v a b step =>
    let head := "FOR " ++ v ++ " = " ++ exprText a 0 ++ " TO " ++ exprText b 0
    match step with
    | some s => head ++ " STEP " ++ exprText s 0
    | none => head
  | .next [] => "NEXT"
  | .next vs => "NEXT " ++ ", ".intercalate vs
  | .input prompt vs =>
    if prompt.isEmpty then "INPUT " ++ variablesText vs
    else "INPUT " ++ Text.quote prompt ++ "; " ++ variablesText vs
  | .data vs => "DATA " ++ ", ".intercalate (vs.map DataValue.literal)
  | .read vs => "READ " ++ variablesText vs
  | .restore none => "RESTORE"
  | .restore (some t) => "RESTORE " ++ t
  | .rem text => "REM" ++ text
  | .finish => "END"
  | .stop => "STOP"

/-- The canonical text of a line, without its newline. -/
def Line.text (l : Line) : String :=
  l.label ++ " " ++ " : ".intercalate (l.stmts.map Stmt.text)

/-- The listing of a program: each line's text followed by a newline. -/
def Program.listing (p : Program) : String :=
  String.join (p.lines.map fun l => l.text ++ "\n")

end BasicJvm.Syntax
