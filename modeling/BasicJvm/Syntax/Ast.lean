import BasicJvm.Syntax.Builtin
import BasicJvm.Number.Binary

/-!
# Syntax trees of BASIC programs

A program is a list of lines sorted by label; a line is a label and one or more
statements.  Expressions are numbers, texts, variables (scalars or array elements),
negation, binary operators and calls of built-in functions.

The binary operators bind, from loosest to tightest: `OR`, `AND`, the comparisons, `+` and
`-`, `*` and `/`, and `^`, which alone groups to the right.  Unary minus and plus bind like
`^`.  The type of an expression is read off its shape: a comparison, arithmetic and
negation give numbers, `+` gives the type of its left operand, and a variable the type its
name says.

A `THEN` followed by a line number is kept as `IF … THEN GOTO n`.
-/

namespace BasicJvm.Syntax

open BasicJvm.Number

/-- The binary operators. -/
inductive BinOp where
  | or | and | eq | ne | lt | le | gt | ge | add | sub | mul | div | pow
  deriving DecidableEq, Repr, Inhabited

/-- Every binary operator, in the order in which tokens are matched against them. -/
def BinOp.all : List BinOp :=
  [.or, .and, .eq, .ne, .lt, .le, .gt, .ge, .add, .sub, .mul, .div, .pow]

/-- The spelling of an operator. -/
def BinOp.text : BinOp → String
  | .or => "OR" | .and => "AND" | .eq => "=" | .ne => "<>" | .lt => "<" | .le => "<="
  | .gt => ">" | .ge => ">=" | .add => "+" | .sub => "-" | .mul => "*" | .div => "/"
  | .pow => "^"

/-- How tightly an operator binds, from 1 (`OR`) to 6 (`^`). -/
def BinOp.precedence : BinOp → Nat
  | .or => 1 | .and => 2 | .eq | .ne | .lt | .le | .gt | .ge => 3 | .add | .sub => 4
  | .mul | .div => 5 | .pow => 6

/-- Whether an operator groups to the right. -/
def BinOp.rightAssoc (op : BinOp) : Bool := op == .pow

/-- Whether an operator compares its operands. -/
def BinOp.isComparison (op : BinOp) : Bool :=
  op == .eq || op == .ne || op == .lt || op == .le || op == .gt || op == .ge

/-- How tightly unary minus and plus bind. -/
def unaryPrecedence : Nat := 6

/-- An expression. -/
inductive Expr where
  /-- A number constant. -/
  | number (value : Single)
  /-- A text constant. -/
  | text (value : String)
  /-- A scalar variable, or an array element when there are indexes. -/
  | ref (name : String) (indexes : List Expr)
  /-- Unary minus. -/
  | neg (operand : Expr)
  | binary (op : BinOp) (left right : Expr)
  /-- A call of a built-in function. -/
  | call (fn : Builtin) (args : List Expr)
  deriving Repr, Inhabited

/-- The type of an expression's value. -/
def Expr.type : Expr → ValueType
  | .number _ => .number
  | .text _ => .text
  | .ref name _ => ValueType.ofName name
  | .neg _ => .number
  | .binary op left _ => if op == .add then left.type else .number
  | .call fn _ => fn.result

/-- A variable as the target of an assignment, a `READ` or an `INPUT`. -/
structure Variable where
  name : String
  indexes : List Expr
  deriving Repr, Inhabited

/-- The type of a variable, read off its name. -/
def Variable.type (v : Variable) : ValueType := ValueType.ofName v.name

/-- Whether a variable is an array element. -/
def Variable.isArray (v : Variable) : Bool := !v.indexes.isEmpty

/-- The expression that reads a variable. -/
def Variable.toExpr (v : Variable) : Expr := .ref v.name v.indexes

/-- One item of a `PRINT` statement. -/
inductive PrintItem where
  /-- A value to print. -/
  | expr (e : Expr)
  /-- The separator `;`: nothing between the neighbours. -/
  | semicolon
  /-- The separator `,`: move to the next print zone. -/
  | comma
  /-- Two expressions side by side: one space between them. -/
  | space
  deriving Repr, Inhabited

/-- One array of a `DIM` statement. -/
structure ArrayDecl where
  name : String
  sizes : List Expr
  deriving Repr, Inhabited

/-- A constant of a `DATA` statement. -/
inductive DataValue where
  | number (value : Single)
  | text (value : String)
  deriving DecidableEq, Repr, Inhabited

/-- A statement. -/
inductive Stmt where
  | print (items : List PrintItem)
  | goto (target : String)
  | gosub (target : String)
  | ret
  | onGoto (selector : Expr) (targets : List String)
  /-- The statement `IF cond THEN body`; `IF cond THEN n` has the body `GOTO n`. -/
  | ifThen (cond : Expr) (body : Stmt)
  | assign (target : Variable) (value : Expr)
  | dim (arrays : List ArrayDecl)
  | forLoop (var : String) (start limit : Expr) (step : Option Expr)
  | next (vars : List String)
  | input (prompt : String) (targets : List Variable)
  | data (values : List DataValue)
  | read (targets : List Variable)
  | restore (target : Option String)
  | rem (text : String)
  | finish
  | stop
  deriving Repr, Inhabited

/-- Whether a `PRINT` statement ends its output line: when it has no items, or its last
item is an expression or a space. -/
def printEndsLine (items : List PrintItem) : Bool :=
  match items.getLast? with
  | none => true
  | some (.expr _) => true
  | some .space => true
  | some _ => false

/-- The number that a text of decimal digits stands for; none for an empty text or one with
another character. -/
def decimalValue? (s : String) : Option Nat :=
  let cs := s.toList
  if !cs.isEmpty && cs.all (fun c => '0' ≤ c && c ≤ '9') then
    some (cs.foldl (fun acc c => acc * 10 + (c.toNat - 48)) 0)
  else none

/-- A labelled line of the program. -/
structure Line where
  /-- The label in canonical form, the decimal digits of a positive number. -/
  label : String
  stmts : List Stmt
  /-- The 1-based line of the source where the line starts. -/
  sourceLine : Nat
  deriving Repr, Inhabited

/-- The number of a line's label. -/
def Line.number (l : Line) : Nat := (decimalValue? l.label).getD 0

/-- A parsed program, its lines sorted by label. -/
structure Program where
  lines : List Line
  deriving Repr, Inhabited

end BasicJvm.Syntax
