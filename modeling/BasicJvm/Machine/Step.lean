import BasicJvm.Machine.Natives
import BasicJvm.Number.Arithmetic

/-!
# One instruction

`execute f d` runs the instruction `d` of the activation `f`, which is the innermost one, and
says what became of the activation (`Effect`): it goes on (with its index moved to the next
instruction or to a branch target), it waits at a call while a method of the class runs, or
it returned.

The instructions are those a compiled program uses, and a few more: integer and float
constants and arithmetic, the float comparisons, the integer branches and both switches,
loads and stores of locals, float and object arrays of one or more dimensions, the fields of
the program object, and calls.  Operands are popped in the order the instruction names them,
from the top; a pop from an empty stack, an operand of the wrong type or a local slot past
the frame is a misuse.  `new` and anything else that is not listed is refused.

A call resolves its pool entry first (`resolve`).  A method of the class itself or of its
superclass is one of the runtime methods when one has its name and descriptor, and else the
class's own method if it has one with a body; a method of another class is one of the
library methods.  The arguments are then popped, last first, and the receiver after them
unless the call is static.  A called method of the class gets a fresh frame: the receiver in
slot 0 and the arguments from slot 1 on, a double or a long taking two slots.
-/

namespace BasicJvm.Vm

open BasicJvm.ClassFile BasicJvm.Bytecode BasicJvm.Number

/-- What an instruction did to the activation that ran it. -/
inductive Effect where
  /-- The activation goes on as it now is. -/
  | next (f : Frame)
  /-- The activation waits at its call while `callee` runs. -/
  | call (f : Frame) (callee : Frame)
  /-- The activation returned. -/
  | done

/-! ## The operand stack and the locals -/

/-- Push a value. -/
def Frame.push (f : Frame) (v : Value) : Frame := { f with stack := v :: f.stack }

/-- Pop a value. -/
def Frame.pop (f : Frame) : Exec (Value × Frame) :=
  match f.stack with
  | v :: rest => pure (v, { f with stack := rest })
  | [] => misuse (.negativeIndex (-1))

/-- Pop an integer. -/
def Frame.popInt (f : Frame) : Exec (Int32 × Frame) := do
  let (v, f) ← f.pop
  return (← asInt v, f)

/-- Pop a float. -/
def Frame.popFloat (f : Frame) : Exec (Single × Frame) := do
  let (v, f) ← f.pop
  return (← asFloat v, f)

/-- Pop a double. -/
def Frame.popDouble (f : Frame) : Exec (UInt64 × Frame) := do
  let (v, f) ← f.pop
  return (← asDouble v, f)

/-- Pop a float array, by its place on the heap. -/
def Frame.popFloats (f : Frame) : Exec (Nat × Frame) := do
  match ← f.pop with
  | (.floats r, f) => pure (r, f)
  | (v, _) => misuse (.wrongType v.typeName "[]float32")

/-- Pop an object array: its place on the heap, or `none` for the array with no place. -/
def Frame.popObjects (f : Frame) : Exec (Option Nat × Frame) := do
  match ← f.pop with
  | (.objects r, f) => pure (some r, f)
  | (.noObjects, f) => pure (none, f)
  | (.null, _) => trap .nullArray
  | (v, _) => trap (.notObjectArray v.typeName)

/-- Pop `n` values; the first in the list is the deepest. -/
def Frame.popMany (f : Frame) : Nat → Exec (List Value × Frame)
  | 0 => pure ([], f)
  | n + 1 => do
    let (v, f) ← f.pop
    let (vs, f) ← f.popMany n
    pure (vs ++ [v], f)

/-- Pop `n` integers, checking each as it is popped; the first in the list is the deepest. -/
def Frame.popInts (f : Frame) : Nat → Exec (List Int32 × Frame)
  | 0 => pure ([], f)
  | n + 1 => do
    let (v, f) ← f.popInt
    let (vs, f) ← f.popInts n
    pure (vs ++ [v], f)

/-- The value in a local slot. -/
def Frame.load (f : Frame) (slot : Nat) : Exec Value :=
  match f.locals[slot]? with
  | some v => pure v
  | none => misuse (.pastEnd slot f.locals.size)

/-- Set a local slot. -/
def Frame.store (f : Frame) (slot : Nat) (v : Value) : Exec Frame :=
  if slot < f.locals.size then pure { f with locals := f.locals.set! slot v }
  else misuse (.pastEnd slot f.locals.size)

/-- Go on at the next instruction. -/
def Frame.advance (f : Frame) : Effect := .next { f with pc := f.pc + 1 }

/-- Go on at the instruction starting at a target offset, which must be one. -/
def Frame.jump (f : Frame) (target : Int) : Exec Effect :=
  match f.method.indexAt target with
  | some i => pure (.next { f with pc := i })
  | none => trap (.notBoundary target)

/-! ## Arrays -/

/-- The position of an index in an array of `n` elements. -/
def checkIndex (i : Int32) (n : Nat) : Exec Nat :=
  if i.toInt < 0 || n ≤ i.toInt then trap (.indexRange i.toInt n) else pure i.toInt.toNat

/-- A descriptor without its first `[`, if it has one. -/
def elementDescriptor (desc : String) : String :=
  if desc.startsWith "[" then String.ofList (desc.toList.drop 1) else desc

/-- The array that `multianewarray` makes for a descriptor and counts, outermost first:
nested object arrays down to float arrays (for `F` elements) or object arrays.  The first
count is checked when it is reached; an array of no elements makes no inner arrays. -/
def newNested (desc : String) : List Int32 → Exec Value
  | [] => misuse (.pastEnd 0 0)
  | [n] => do
    if n.toInt < 0 then trap (.negativeSize n.toInt)
    let elem := elementDescriptor desc
    if elem == "F" then newFloats n.toInt.toNat else newObjects n.toInt.toNat
  | n :: rest => do
    if n.toInt < 0 then trap (.negativeSize n.toInt)
    let elem := elementDescriptor desc
    let inner ← (List.range n.toInt.toNat).mapM fun _ => newNested elem rest
    return .objects (← allocate (.objects inner.toArray))

/-! ## Constants and calls -/

/-- The value of an `ldc` constant: an integer, a float or a text. -/
def constantValue (pool : Pool) (index : Nat) : Exec Value := do
  match ← lift ((pool.get index).mapError .classFile) with
  | .integer bits => pure (.int bits.toInt32)
  | .float bits => pure (.float ⟨bits⟩)
  | .string s => return .text (← lift ((pool.utf8 s).mapError .classFile))
  | c => trap (.constantTag c.tag)

/-- What a call runs. -/
inductive Callee where
  | native (n : Native)
  | method (m : Method)

/-- A resolved call: what it runs and how it is called. -/
structure Target where
  callee : Callee
  shape : CallShape

/-- Resolve the method reference of a call. -/
def resolve (index : Nat) : Exec Target := do
  let m ← get
  let (owner, name, desc) ← lift ((m.loaded.cf.pool.memberRef index).mapError .classFile)
  let shape ← lift (callShape desc)
  let callee? : Option Callee ←
    if owner == m.loaded.name || owner == m.loaded.super then
      match RuntimeNative.ofKey? (name ++ desc) with
      | some n => pure (some (.native (.runtime n)))
      | none => tryCatch (return some (.method (← methodFor name desc))) fun e =>
        match e with
        -- a read out of range while decoding is no answer of the lookup: the call meets it
        | .decoding _ (.outOfRange i) => misuse (.negativeIndex i)
        | .decoding _ .endless => throw e
        | _ => pure none
    else pure ((LibraryNative.ofKey? (owner ++ "." ++ name ++ desc)).map fun n => .native (.library n))
  match callee? with
  | some c => pure ⟨c, shape⟩
  | none => trap (.unsupportedMethod (Ref.mk owner name desc).text)

/-- The locals of a called method: the receiver in slot 0 and the arguments from slot 1, each
taking as many slots as its width. -/
def calleeLocals (m : Method) (receiver : Value) (args : List Value) : Array Value :=
  let size := max m.maxLocals (1 + 2 * args.length)
  let start := (Array.replicate size Value.null).set! 0 receiver
  let (locals, _) := (args.zipIdx).foldl
    (fun (ls, slot) (a, i) => (ls.set! slot a, slot + m.shape.widths.getD i 1)) (start, 1)
  locals

/-- Make a call: pop the arguments and the receiver, then run a method without bytecode at
once or start a method of the class. -/
def invoke (f : Frame) (index : Nat) (static : Bool) : Exec Effect := do
  let t ← resolve index
  let (args, f) ← f.popMany t.shape.widths.length
  let (receiver, f) ← if static then pure (Value.null, f) else f.pop
  match t.callee with
  | .native n =>
    let v ← n.call receiver args
    pure (if t.shape.returnsValue then f.push v else f).advance
  | .method m =>
    pure (.call f ⟨m, 0, [], calleeLocals m receiver args, t.shape.returnsValue⟩)

/-! ## The instructions -/

/-- Whether an integer comparison holds, for the six conditions in the order `eq`, `ne`,
`lt`, `ge`, `gt`, `le`. -/
def conditionHolds (op : Opcode) (a b : Int32) : Bool :=
  match op with
  | .ifeq | .ifIcmpeq => a == b
  | .ifne | .ifIcmpne => a != b
  | .iflt | .ifIcmplt => a < b
  | .ifge | .ifIcmpge => a ≥ b
  | .ifgt | .ifIcmpgt => a > b
  | _ => a ≤ b

/-- The result of `fcmpl` (NaN compares low) or `fcmpg` (NaN compares high). -/
def floatCompare (a b : Single) (nanHigh : Bool) : Int32 :=
  match a.order? b with
  | none => if nanHigh then 1 else -1
  | some .gt => 1
  | some .lt => -1
  | some .eq => 0

/-- Run a float operation on the two top floats. -/
def Frame.floatOp (f : Frame) (op : Single → Single → Single) : Exec Effect := do
  let (b, f) ← f.popFloat
  let (a, f) ← f.popFloat
  pure (f.push (.float (op a b))).advance

/-- Run one instruction of the innermost activation. -/
def execute (f : Frame) (d : Decoded) : Exec Effect := do
  match d.op, d.args with
  | .nop, _ => pure f.advance
  | .aconstNull, _ => pure (f.push .null).advance
  | .iconstM1, _ => pure (f.push (.int (-1))).advance
  | .iconst0, _ => pure (f.push (.int 0)).advance
  | .iconst1, _ => pure (f.push (.int 1)).advance
  | .iconst2, _ => pure (f.push (.int 2)).advance
  | .iconst3, _ => pure (f.push (.int 3)).advance
  | .iconst4, _ => pure (f.push (.int 4)).advance
  | .iconst5, _ => pure (f.push (.int 5)).advance
  | .fconst0, _ => pure (f.push (.float (Single.ofInt 0))).advance
  | .fconst1, _ => pure (f.push (.float (Single.ofInt 1))).advance
  | .fconst2, _ => pure (f.push (.float (Single.ofInt 2))).advance
  | .bipush, .imm v | .sipush, .imm v => pure (f.push (.int (Int32.ofInt v))).advance
  | .ldc, .pool i => return (f.push (← constantValue (← get).loaded.cf.pool i)).advance
  | .iload, .slot n | .fload, .slot n | .aload, .slot n =>
    return (f.push (← f.load n)).advance
  | .istore, .slot n | .fstore, .slot n | .astore, .slot n => do
    let (v, f) ← f.pop
    return (← f.store n v).advance
  | .faload, _ => do
    let (i, f) ← f.popInt
    let (r, f) ← f.popFloats
    let xs ← floatCells r
    let k ← checkIndex i xs.size
    pure (f.push (.float (xs.getD k Single.zero))).advance
  | .aaload, _ => do
    let (i, f) ← f.popInt
    let (r, f) ← f.popObjects
    let xs ← objectCells r
    let k ← checkIndex i xs.size
    pure (f.push (xs.getD k .null)).advance
  | .fastore, _ => do
    let (v, f) ← f.popFloat
    let (i, f) ← f.popInt
    let (r, f) ← f.popFloats
    let xs ← floatCells r
    let k ← checkIndex i xs.size
    updateCells r fun
      | .floats ys => .floats (ys.set! k v)
      | c => c
    pure f.advance
  | .aastore, _ => do
    let (v, f) ← f.pop
    let (i, f) ← f.popInt
    let (r, f) ← f.popObjects
    let xs ← objectCells r
    let k ← checkIndex i xs.size
    if let some ref := r then
      updateCells ref fun
        | .objects ys => .objects (ys.set! k v)
        | c => c
    pure f.advance
  | .pop, _ => do
    let (_, f) ← f.pop
    pure f.advance
  | .dup, _ =>
    match f.stack with
    | v :: _ => pure (f.push v).advance
    | [] => misuse (.negativeIndex (-1))
  | .swap, _ =>
    match f.stack with
    | a :: b :: rest => pure { f with stack := b :: a :: rest }.advance
    | [_] => misuse (.negativeIndex (-1))
    | [] => misuse (.negativeIndex (-2))
  | .iadd, _ => do
    let (b, f) ← f.popInt
    let (a, f) ← f.popInt
    pure (f.push (.int (a + b))).advance
  | .isub, _ => do
    let (b, f) ← f.popInt
    let (a, f) ← f.popInt
    pure (f.push (.int (a - b))).advance
  | .fadd, _ => f.floatOp Single.add
  | .fsub, _ => f.floatOp Single.sub
  | .fmul, _ => f.floatOp Single.mul
  | .fdiv, _ => f.floatOp Single.div
  | .fneg, _ => do
    let (a, f) ← f.popFloat
    pure (f.push (.float a.neg)).advance
  | .i2f, _ => do
    let (a, f) ← f.popInt
    pure (f.push (.float (Single.ofInt a.toInt))).advance
  | .f2i, _ => do
    let (a, f) ← f.popFloat
    pure (f.push (.int (Int32.ofInt a.truncate))).advance
  | .f2d, _ => do
    let (a, f) ← f.popFloat
    pure (f.push (.double a.toDouble.toUInt64)).advance
  | .d2f, _ => do
    let (a, f) ← f.popDouble
    pure (f.push (.float (Single.ofDouble a.toNat))).advance
  | .i2c, _ => do
    let (a, f) ← f.popInt
    pure (f.push (.int (Int32.ofNat (a.toUInt32.toNat % 65536)))).advance
  | .fcmpl, _ | .fcmpg, _ => do
    let (b, f) ← f.popFloat
    let (a, f) ← f.popFloat
    pure (f.push (.int (floatCompare a b (d.op == .fcmpg)))).advance
  | .ifeq, .branch t | .ifne, .branch t | .iflt, .branch t | .ifge, .branch t
  | .ifgt, .branch t | .ifle, .branch t => do
    let (a, f) ← f.popInt
    if conditionHolds d.op a 0 then f.jump t else pure f.advance
  | .ifIcmpeq, .branch t | .ifIcmpne, .branch t | .ifIcmplt, .branch t
  | .ifIcmpge, .branch t | .ifIcmpgt, .branch t | .ifIcmple, .branch t => do
    let (b, f) ← f.popInt
    let (a, f) ← f.popInt
    if conditionHolds d.op a b then f.jump t else pure f.advance
  | .goto, .branch t | .gotoW, .branch t => f.jump t
  | .tableswitch, .table low dflt targets => do
    let (key, f) ← f.popInt
    let i := key.toInt - low
    let target := if 0 ≤ i then targets.getD i.toNat dflt else dflt
    f.jump target
  | .lookupswitch, .lookup dflt keys targets => do
    let (key, f) ← f.popInt
    let target := match keys.findIdx? (· == key.toInt) with
      | some i => targets.getD i dflt
      | none => dflt
    f.jump target
  | .returnVoid, _ => pure .done
  | .getfield, .pool i => do
    let (_, name, _) ← lift (((← get).loaded.cf.pool.memberRef i).mapError .classFile)
    let (_, f) ← f.pop
    return (f.push (← getField name)).advance
  | .putfield, .pool i => do
    let (_, name, _) ← lift (((← get).loaded.cf.pool.memberRef i).mapError .classFile)
    let (v, f) ← f.pop
    let (_, f) ← f.pop
    putField name v
    pure f.advance
  | .invokevirtual, .pool i | .invokespecial, .pool i => invoke f i false
  | .invokestatic, .pool i => invoke f i true
  | .newarray, _ => do
    let (n, f) ← f.popInt
    if n.toInt < 0 then trap (.negativeSize n.toInt)
    return (f.push (← newFloats n.toInt.toNat)).advance
  | .anewarray, _ => do
    let (n, f) ← f.popInt
    if n.toInt < 0 then trap (.negativeSize n.toInt)
    return (f.push (← newObjects n.toInt.toNat)).advance
  | .multianewarray, .multiArray i dims => do
    let desc ← lift (((← get).loaded.cf.pool.className i).mapError .classFile)
    let (sizes, f) ← f.popInts dims
    return (f.push (← newNested desc sizes)).advance
  | .arraylength, _ => do
    match ← f.pop with
    | (.floats r, f) => return (f.push (.int (Int32.ofNat (← floatCells r).size))).advance
    | (.objects r, f) => return (f.push (.int (Int32.ofNat (← objectCells (some r)).size))).advance
    | (.noObjects, f) => pure (f.push (.int 0)).advance
    | _ => trap .nullArray
  | op, _ => trap (.unsupportedInstruction op.name)

end BasicJvm.Vm
