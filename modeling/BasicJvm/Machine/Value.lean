import BasicJvm.Machine.Format
import BasicJvm.Text.Quoted

/-!
# Values of the interpreter

A value on the operand stack, in a local slot, in an array element or in a field is null, a
32-bit integer, a float, a double (kept as its bit pattern), a text, an array, or the running
program itself, which is the receiver of its own methods.

Arrays live on a heap and values refer to them by their place there, so that a store
through one reference is seen through every other.  A float array holds floats, which start
as zero; an object array holds values, which start as null.  One object array is special:
`noObjects` has no elements and no place on the heap.  It is what the DATA pool holds before
a program sets it.

An instruction that meets a value of the wrong kind, pops an empty operand stack or names a
local slot that is not there stops the run with a `Misuse`.  Its text names the types as the
interpreter's messages do: `int32`, `float32`, `float64`, `string`, `[]float32`, `[]interface {}`,
and `nil` for null.
-/

namespace BasicJvm.Vm

open BasicJvm.Number

/-- A value of the interpreter. -/
inductive Value where
  | null
  | int (v : Int32)
  | float (v : Single)
  /-- A double, as its bit pattern. -/
  | double (bits : UInt64)
  | text (s : String)
  /-- A float array, by its place on the heap. -/
  | floats (ref : Nat)
  /-- An object array, by its place on the heap. -/
  | objects (ref : Nat)
  /-- The object array with no elements and no place on the heap. -/
  | noObjects
  /-- The running program, the receiver of its own methods. -/
  | program
  deriving Inhabited, Repr

/-- The type name of a value in messages. -/
def Value.typeName : Value → String
  | .null => "nil"
  | .int _ => "int32"
  | .float _ => "float32"
  | .double _ => "float64"
  | .text _ => "string"
  | .floats _ => "[]float32"
  | .objects _ | .noObjects => "[]interface \x7b\x7d"
  | .program => "*vm.object"

/-- The text a value prints as where text is expected: a text as it is, null as `null`, a
number in the `PRINT` format, anything else as `?`. -/
def Value.shown : Value → String
  | .null => "null"
  | .text s => s
  | .float x => formatNumber x
  | _ => "?"

/-- The elements of an array on the heap. -/
inductive Cells where
  | floats (xs : Array Single)
  | objects (xs : Array Value)
  deriving Inhabited

/-- The number of elements. -/
def Cells.size : Cells → Nat
  | .floats xs => xs.size
  | .objects xs => xs.size

/-- Why an instruction could not use its operands. -/
inductive Misuse where
  /-- A value of type `found` where one of type `expected` was needed. -/
  | wrongType (found expected : String)
  /-- A read at a negative index: below the bottom of the operand stack, `index` places from
  its top, or before the start of a method body being decoded. -/
  | negativeIndex (index : Int)
  /-- A local slot past the `size` slots of the frame, or an element past the end of a
  list of `size` elements. -/
  | pastEnd (index size : Nat)
  deriving DecidableEq, Repr

/-- The text of a misuse. -/
def Misuse.message : Misuse → String
  | .wrongType found expected =>
    "interface conversion: interface \x7b\x7d is " ++ found ++ ", not " ++ expected
  | .negativeIndex i => "runtime error: index out of range [" ++ toString i ++ "]"
  | .pastEnd i n =>
    "runtime error: index out of range [" ++ toString i ++ "] with length " ++ toString n

end BasicJvm.Vm
