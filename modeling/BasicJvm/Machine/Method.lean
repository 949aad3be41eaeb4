import BasicJvm.Machine.Fault
import BasicJvm.ClassFile.Code

/-!
# Methods as the interpreter runs them

A call needs two things from a method descriptor: how many arguments it pops, each with the
number of local slots it fills (two for `D` and `J`, one for anything else), and whether it
leaves a result (its return type is not `V`).  `CallShape.ofDescriptor` reads them off the
descriptor's bytes, split by `splitDescriptor`: after `(` come parameters up to `)`, each
being any number of `[`, then either `L` up to and including the next `;` or any single byte;
the return type is the rest.  It checks no more than that.

A `Method` is a method of the loaded class with its body decoded, its call shape, its
number of local slots, and the index of the instruction that starts at each offset of the
body, for branches.
-/

namespace BasicJvm.Vm

open BasicJvm.ClassFile BasicJvm.Bytecode

/-- How a method is called. -/
structure CallShape where
  /-- The local slots of each argument, in order. -/
  widths : List Nat
  /-- Whether the call leaves a result. -/
  returnsValue : Bool
  deriving DecidableEq, Repr, Inhabited

/-- The number of local slots a parameter fills: two for a double or a long. -/
def paramWidth (param : List UInt8) : Nat :=
  if param == [68] || param == [74] then 2 else 1

/-- The byte of `;`. -/
def semicolonByte : UInt8 := 59

/-- The first parameter of a descriptor's bytes, and the bytes after it: some `[`, then `L`
up to and including the next `;` or any single byte; `none` when the bytes end first. -/
def nextParam (bs : List UInt8) : Option (List UInt8 × List UInt8) :=
  let brackets := bs.takeWhile (· == 91)
  match bs.drop brackets.length with
  | [] => none
  | 76 :: tail =>
    match tail.findIdx? (· == semicolonByte) with
    | none => none
    | some k => some (brackets ++ 76 :: tail.take (k + 1), tail.drop (k + 1))
  | c :: tail => some (brackets ++ [c], tail)

/-- The parameters of a descriptor from the byte after `(`, each as its bytes, and the bytes
after `)`; `none` when a parameter or the `)` is missing.  Every parameter takes at least one
byte, so `fuel` at the length of the bytes suffices. -/
def readParams : Nat → List UInt8 → List (List UInt8) → Option (List (List UInt8) × List UInt8)
  | 0, _, _ => none
  | _ + 1, [], _ => none
  | fuel + 1, b :: bs, acc =>
    if b == 41 then some (acc.reverse, bs) else
    match nextParam (b :: bs) with
    | none => none
    | some (param, rest) => readParams fuel rest (param :: acc)

/-- The parameters and the return type of a method descriptor, as bytes, if it has the form
of one. -/
def splitDescriptor (desc : String) : Option (List (List UInt8) × List UInt8) :=
  match desc.toUTF8.toList with
  | 40 :: rest => readParams (rest.length + 1) rest []
  | _ => none

/-- The call shape of a method descriptor, if it has the form of one. -/
def CallShape.ofDescriptor (desc : String) : Option CallShape :=
  (splitDescriptor desc).map fun (params, ret) => ⟨params.map paramWidth, ret != [86]⟩

/-- The call shape of a method descriptor, or the fault of a malformed one. -/
def callShape (desc : String) : Except Fault CallShape :=
  match CallShape.ofDescriptor desc with
  | some s => .ok s
  | none => .error (.badDescriptor desc)

/-- A method of the loaded class, ready to run. -/
structure Method where
  name : String
  desc : String
  shape : CallShape
  code : Array Decoded
  /-- The index of the instruction starting at each offset of the body. -/
  starts : Array (Option Nat)
  maxLocals : Nat
  deriving Inhabited

/-- The method's name and descriptor, as messages show it. -/
def Method.site (m : Method) : String := m.name ++ m.desc

/-- The index of the instruction that starts at an offset, if one does. -/
def Method.indexAt (m : Method) (offset : Int) : Option Nat :=
  if offset < 0 then none else (m.starts.getD offset.toNat none)

/-- The table from offsets to the instructions starting there. -/
def startTable (code : List Decoded) : Array (Option Nat) :=
  let size := code.foldl (fun n d => max n (d.offset + 1)) 0
  (code.zipIdx).foldl (fun t (d, i) => t.set! d.offset (some i)) (Array.replicate size none)

/-- Decode a method of the class: its body must be found and decode, and its descriptor
must have the form of one. -/
def loadMethod (cf : ParsedClass) (name desc : String) : Except Fault Method := do
  let code ← (cf.methodCode name desc).mapError .classFile
  let insns ← (decode code.code).mapError (.decoding (name ++ desc))
  let shape ← callShape desc
  pure ⟨name, desc, shape, insns.toArray, startTable insns, code.maxLocals⟩

end BasicJvm.Vm
