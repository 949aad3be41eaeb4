import BasicJvm.Machine.Value
import BasicJvm.ClassFile.Error
import BasicJvm.Bytecode.Decode

/-!
# How a run stops early

A run stops early with a `Fault`.  Most faults are runtime errors (`Trap`): the program's
own `runtimeError` call, a failed `READ` or `INPUT`, a bad array index, the step limit, an
instruction the interpreter does not run, or a `Misuse` of operands.  A runtime error is
placed at the instruction that raised it, as the method's name and descriptor and the
instruction's offset; one raised where no instruction is running (the end of `run` itself)
has no place.

A run may also never end: a runtime method can loop forever (`endless`), and the run stops
there without an answer.

The other faults come from the class file: an unreadable pool entry, a method body that
does not decode, or a malformed method descriptor.  They carry no place.  A body whose decoding
reads out of range stops the run with the runtime's text alone; met while a call resolves its
method, it is a misuse of operands at that call instead.
-/

namespace BasicJvm.Vm

open BasicJvm.ClassFile BasicJvm.Bytecode

/-- A runtime error. -/
inductive Trap where
  | negativeSize (n : Int)
  /-- An array index out of bounds; the message counts elements from one. -/
  | indexRange (index : Int) (size : Nat)
  | nullArray
  | notObjectArray (typeName : String)
  | dataNotArray (typeName : String)
  | constantTag (tag : Nat)
  | notBoundary (offset : Int)
  | unsupportedInstruction (name : String)
  | unsupportedMethod (ref : String)
  | fellOff (method : String)
  | stepLimit (limit : Nat)
  | invalidOperand (m : Misuse)
  | outOfData
  /-- A `READ` of a text into a numeric variable. -/
  | readIntoNumber (shown : String)
  /-- A `READ` of a number into a text variable. -/
  | readIntoText (shown : String)
  /-- The program's own error, with its text. -/
  | raised (text : String)
  | nullText
  | invalidNumber (text : String)
  | noInput
  | endOfInput
  deriving DecidableEq, Repr

/-- The text of a runtime error. -/
def Trap.message : Trap → String
  | .negativeSize n => "negative array size " ++ toString n
  | .indexRange i n =>
    "array index " ++ toString (i + 1) ++ " out of bounds (size " ++ toString n ++ ")"
  | .nullArray => "null array"
  | .notObjectArray t => "not an object array: " ++ t
  | .dataNotArray t => "data must be an object array, got " ++ t
  | .constantTag t => "unsupported constant tag " ++ toString t
  | .notBoundary o => "branch to " ++ toString o ++ " is not an instruction boundary"
  | .unsupportedInstruction n => "unsupported instruction " ++ n
  | .unsupportedMethod r => "unsupported method " ++ r
  | .fellOff m => "fell off the end of " ++ m
  | .stepLimit n => "step limit of " ++ toString n ++ " exceeded"
  | .invalidOperand m => "invalid operand: " ++ m.message
  | .outOfData => "out of DATA"
  | .readIntoNumber s => "READ of " ++ Text.quote s ++ " into a numeric variable"
  | .readIntoText s => "READ of " ++ s ++ " into a text variable"
  | .raised s => s
  | .nullText => "null text value"
  | .invalidNumber s => "invalid number " ++ Text.quote s
  | .noInput => "INPUT with no input available"
  | .endOfInput => "end of input"

/-- Where a runtime error was raised: a method's name and descriptor, and an offset in its
body. -/
structure Place where
  method : String
  offset : Nat
  deriving DecidableEq, Repr

/-- Why a run stopped early. -/
inductive Fault where
  | runtime (trap : Trap) (place : Option Place)
  | classFile (e : ClassError)
  /-- The body of a method, named with its descriptor, does not decode. -/
  | decoding (method : String) (e : DecodeFailure)
  | badDescriptor (desc : String)
  /-- An answer line is longer than the reader's buffer holds. -/
  | lineTooLong
  /-- A runtime method loops forever, so the run never ends. -/
  | endless
  deriving DecidableEq, Repr

/-- The text of a fault. -/
def Fault.message : Fault → String
  | .runtime t none => "runtime error: " ++ t.message
  | .runtime t (some p) =>
    "runtime error: " ++ t.message ++ " (in " ++ p.method ++ " at pc " ++ toString p.offset ++ ")"
  | .classFile e => e.message
  | .decoding m (.reported e) => "decoding " ++ m ++ ": " ++ e.message
  | .decoding _ e => e.message
  | .badDescriptor d => "bad method descriptor " ++ Text.quote d
  | .lineTooLong => "bufio.Scanner: token too long"
  | .endless => "the run never ends"

/-- Whether a fault is a runtime error. -/
def Fault.isRuntime : Fault → Bool
  | .runtime .. => true
  | _ => false

/-- A runtime error placed where it has no place yet; other faults are left as they are. -/
def Fault.placeAt (p : Place) : Fault → Fault
  | .runtime t none => .runtime t (some p)
  | f => f

end BasicJvm.Vm
