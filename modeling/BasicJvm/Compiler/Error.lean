import BasicJvm.Compiler.Symbols
import BasicJvm.Bytecode.Assemble

/-!
# Code generation errors

A program that parses can still fail to compile: a jump to a line that does not exist, an
array used with two shapes, a `NEXT` without its `FOR`, a `RESTORE` with no `DATA` after
its line, a line reached with two different `GOSUB` nestings, a `RETURN` no `GOSUB` leads
to, or a template class that cannot take the program.  The error names the label of the
line it concerns, when there is one.
-/

namespace BasicJvm.Compiler

open BasicJvm.Bytecode
open BasicJvm.ClassFile

/-- What went wrong while compiling. -/
inductive GenProblem where
  | unknownLine (label : String)
  | shape (e : ShapeError)
  | undimmed (name : String) (dims : Nat)
  | loop (e : LoopError)
  | restore (e : RestoreError)
  /-- A line reached with two different frames, shown as they are. -/
  | nesting (held got : String)
  | returnWithoutGosub
  | assembling (e : AsmError)
  | readingTemplate (e : ClassError)
  | template (e : ClassError)
  | classFile (e : ClassError)
  | poolOverflow
  deriving DecidableEq, Repr

/-- The message of a compilation problem. -/
def GenProblem.message : GenProblem → String
  | .unknownLine label => "unknown line " ++ label
  | .shape e => e.message
  | .undimmed name dims =>
    name ++ " has " ++ toString dims ++ " dimensions and must be DIMed"
  | .loop e => e.message
  | .restore e => "RESTORE: " ++ e.message
  | .nesting held got =>
    "control reaches this line with different GOSUB nesting (" ++ held ++ " vs " ++ got ++ ")"
  | .returnWithoutGosub => "RETURN without GOSUB"
  | .assembling e => "assembling run(): " ++ e.message
  | .readingTemplate e => "reading template: " ++ e.message
  | .template e => "template: " ++ e.message
  | .classFile e => e.message
  | .poolOverflow => "constant pool overflow"

/-- A compilation error and the label of the line it concerns, empty when none. -/
structure CodeGenError where
  label : String
  problem : GenProblem
  deriving DecidableEq, Repr

/-- The message of a compilation error, `label L: ` in front when there is a line. -/
def CodeGenError.message (e : CodeGenError) : String :=
  if e.label.isEmpty then e.problem.message else "label " ++ e.label ++ ": " ++ e.problem.message

end BasicJvm.Compiler
