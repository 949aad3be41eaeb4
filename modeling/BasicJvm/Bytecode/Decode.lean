import BasicJvm.Bytecode.Instr
import BasicJvm.ClassFile.Pool

/-!
# Decoding bytecode

`decode` splits a method body into instructions, front to back.  The short load and store
forms are read back as the long form with a slot, `ldc_w` as `ldc`, and `wide` as the load
or store it widens.  Branch and switch offsets become absolute offsets, which may lie
outside the body.  An instruction that runs past the end is truncated; opcodes other than
the known ones are refused.

The cursor moves on by each instruction's size.  The size of a `tableswitch` counts
`high - low + 1` targets, with the difference taken in 32 bits: a range of 2^31 or more wraps,
the count is zero or less, and so may be the size.  The cursor then stays or moves back,
which the decoder does not guard against: before the start of the body, reading the next
opcode is out of range; at an offset it has read before, decoding goes round forever.

`disassemble` writes one line per instruction: the offset right-aligned in five columns,
the mnemonic, and the operands, with pool constants and references resolved.
-/

-- Powers use the core `NatPow` instance also where an algebra library is loaded, so that
-- the definitions below elaborate to the same terms in every build.
attribute [local instance (high)] instPowNat

namespace BasicJvm.Bytecode

open BasicJvm.ClassFile

/-- The operands of a decoded instruction. -/
inductive Operands where
  | none
  /-- A load or store slot. -/
  | slot (n : Nat)
  /-- The immediate of `bipush`, `sipush` or `newarray`. -/
  | imm (value : Int)
  /-- A pool index: `ldc`, field and method references, `new`, `anewarray`. -/
  | pool (index : Nat)
  /-- The pool index and dimensions of `multianewarray`. -/
  | multiArray (index dims : Nat)
  /-- A branch target. -/
  | branch (target : Int)
  | table (low : Int) (dflt : Int) (targets : List Int)
  | lookup (dflt : Int) (keys : List Int) (targets : List Int)
  deriving DecidableEq, Repr, Inhabited

/-- One instruction read back from bytecode. -/
structure Decoded where
  offset : Nat
  /-- The bytes the instruction takes; zero or less for a `tableswitch` whose range wraps. -/
  size : Int
  op : Opcode
  args : Operands
  deriving DecidableEq, Repr, Inhabited

/-- Why bytecode cannot be decoded. -/
inductive DecodeProblem where
  | truncated
  | unsupportedWide (byte : Nat)
  | tableBounds (high low : Int)
  | negativeLookup
  | unsupportedOpcode (byte : Nat)
  deriving DecidableEq, Repr

/-- A decoding problem at an offset. -/
structure DecodeError where
  offset : Nat
  problem : DecodeProblem
  deriving DecidableEq, Repr

/-- The message of a decoding problem. -/
def DecodeError.message (e : DecodeError) : String :=
  "offset " ++ toString e.offset ++ ": " ++
    match e.problem with
    | .truncated => "truncated instruction"
    | .unsupportedWide b => "unsupported wide " ++ opcodeByteName b
    | .tableBounds high low =>
      "tableswitch high " ++ toString high ++ " < low " ++ toString low
    | .negativeLookup => "negative lookupswitch size"
    | .unsupportedOpcode b => "unsupported opcode 0x" ++ String.ofList (Text.hexDigits 2 b)

/-- How decoding a body fails: with a problem the decoder reports, or because the cursor
moved back, out of the body or to an offset already read. -/
inductive DecodeFailure where
  | reported (e : DecodeError)
  /-- The cursor is at `index`, before the start of the body, where the next opcode is read:
  a fault of the runtime, not a reported problem. -/
  | outOfRange (index : Int)
  /-- The cursor came back to an offset it had read: decoding never ends. -/
  | endless
  deriving DecidableEq, Repr

/-- The text of a decoding failure: the runtime's text for a read out of range. -/
def DecodeFailure.message : DecodeFailure → String
  | .reported e => e.message
  | .outOfRange i => "runtime error: index out of range [" ++ toString i ++ "]"
  | .endless => "decoding never ends"

/-- The byte at an index, zero past the end. -/
def byteAt (code : Array UInt8) (i : Nat) : Nat := (code.getD i 0).toNat

/-- The unsigned two-byte number at an index. -/
def u2At (code : Array UInt8) (i : Nat) : Nat := byteAt code i * 256 + byteAt code (i + 1)

/-- The signed two-byte number at an index. -/
def s2At (code : Array UInt8) (i : Nat) : Int :=
  let v := u2At code i
  if v < 32768 then v else (v : Int) - 65536

/-- The signed four-byte number at an index. -/
def s4At (code : Array UInt8) (i : Nat) : Int :=
  let v := u2At code i * 65536 + u2At code (i + 2)
  if v < 2 ^ (31 : Nat) then v else (v : Int) - 2 ^ (32 : Nat)

/-- The signed byte at an index. -/
def s1At (code : Array UInt8) (i : Nat) : Int :=
  let v := byteAt code i
  if v < 128 then v else (v : Int) - 256

/-- A 32-bit difference as a signed 32-bit number. -/
def wrap32 (v : Int) : Int :=
  let m := v % 2 ^ (32 : Nat)
  if m < 2 ^ (31 : Nat) then m else m - 2 ^ (32 : Nat)

/-- The instruction at `pc`, which is inside the body. -/
def decodeAt (code : Array UInt8) (pc : Nat) : Except DecodeProblem Decoded := do
  let need (n : Int) : Except DecodeProblem Unit :=
    if (pc : Int) + n > code.size then .error .truncated else .ok ()
  let b := byteAt code pc
  match shortLocal? b with
  | some (op, slot) => return ⟨pc, 1, op, .slot slot⟩
  | none =>
  match Opcode.ofByte? b with
  | none => throw (.unsupportedOpcode b)
  | some op =>
  match op with
  | .iload | .fload | .aload | .istore | .fstore | .astore =>
    need 2
    return ⟨pc, 2, op, .slot (byteAt code (pc + 1))⟩
  | .wide =>
    need 4
    let w := byteAt code (pc + 1)
    match shortLocal? w, Opcode.ofByte? w with
    | none, some inner =>
      if inner.isLocal then return ⟨pc, 4, inner, .slot (u2At code (pc + 2))⟩
      else throw (.unsupportedWide w)
    | _, _ => throw (.unsupportedWide w)
  | .bipush =>
    need 2
    return ⟨pc, 2, op, .imm (s1At code (pc + 1))⟩
  | .newarray =>
    need 2
    return ⟨pc, 2, op, .imm (byteAt code (pc + 1))⟩
  | .sipush =>
    need 3
    return ⟨pc, 3, op, .imm (s2At code (pc + 1))⟩
  | .ldc =>
    need 2
    return ⟨pc, 2, .ldc, .pool (byteAt code (pc + 1))⟩
  | .ldcW =>
    need 3
    return ⟨pc, 3, .ldc, .pool (u2At code (pc + 1))⟩
  | .getfield | .putfield | .invokevirtual | .invokespecial | .invokestatic | .new
  | .anewarray =>
    need 3
    return ⟨pc, 3, op, .pool (u2At code (pc + 1))⟩
  | .multianewarray =>
    need 4
    return ⟨pc, 4, op, .multiArray (u2At code (pc + 1)) (byteAt code (pc + 3))⟩
  | .tableswitch =>
    let base := pc + 1 + switchPad pc
    need (base - pc + 12)
    let dflt := (pc : Int) + s4At code base
    let low := s4At code (base + 4)
    let high := s4At code (base + 8)
    if high < low then throw (.tableBounds high low)
    let n := wrap32 (high - low) + 1
    let size : Int := (base - pc + 12 : Nat) + 4 * n
    need size
    let targets := (List.range n.toNat).map fun j => (pc : Int) + s4At code (base + 12 + 4 * j)
    return ⟨pc, size, op, .table low dflt targets⟩
  | .lookupswitch =>
    let base := pc + 1 + switchPad pc
    need (base - pc + 12)
    let dflt := (pc : Int) + s4At code base
    let n := s4At code (base + 4)
    if n < 0 then throw .negativeLookup
    let size := base - pc + 8 + 8 * n.toNat
    need size
    let keys := (List.range n.toNat).map fun j => s4At code (base + 8 + 8 * j)
    let targets := (List.range n.toNat).map fun j => (pc : Int) + s4At code (base + 12 + 8 * j)
    return ⟨pc, size, op, .lookup dflt keys targets⟩
  | .gotoW =>
    need 5
    return ⟨pc, 5, op, .branch ((pc : Int) + s4At code (pc + 1))⟩
  | _ =>
    if op.isBranch then
      need 3
      return ⟨pc, 3, op, .branch ((pc : Int) + s2At code (pc + 1))⟩
    else return ⟨pc, 1, op, .none⟩

/-- The instructions from the cursor `pc` on, after `acc` (newest first), reading at most
`fuel` more instructions.  Which instruction is read depends on the cursor alone, so a walk
that reads more instructions than the body has offsets has come back to one of them. -/
def decodeFrom (code : Array UInt8) (acc : List Decoded) (pc : Int) (fuel : Nat) :
    Except DecodeFailure (List Decoded) :=
  if code.size ≤ pc then .ok acc.reverse
  else if pc < 0 then .error (.outOfRange pc)
  else match fuel with
    | 0 => .error .endless
    | fuel + 1 =>
      match decodeAt code pc.toNat with
      | .error p => .error (.reported ⟨pc.toNat, p⟩)
      | .ok d => decodeFrom code (d :: acc) (pc + d.size) fuel

/-- The instructions of a method body. -/
def decode (code : List UInt8) : Except DecodeFailure (List Decoded) :=
  decodeFrom code.toArray [] 0 code.length

/-- Numbers written as a bracketed, space-separated list. -/
def offsetsText (ns : List Int) : String :=
  "[" ++ " ".intercalate (ns.map toString) ++ "]"

/-- The operand text of a decoded instruction, with pool entries resolved. -/
def operandsText (pool : Pool) (d : Decoded) : Except ClassError String :=
  match d.op, d.args with
  | _, .slot n => pure (" " ++ toString n)
  | _, .imm v => pure (" " ++ toString v)
  | .ldc, .pool i => do
    match ← pool.get i with
    | .float bits => pure (" " ++ (Number.Single.mk bits).shortest)
    | .integer bits =>
      let v : Int := if bits.toNat < 2 ^ (31 : Nat) then bits.toNat else (bits.toNat : Int) - 2 ^ (32 : Nat)
      pure (" " ++ toString v)
    | .string s => pure (" " ++ Text.quote ((pool.utf8 s).toOption.getD ""))
    | _ => pure ""
  | .new, .pool i | .anewarray, .pool i => do
    pure (" " ++ (← pool.className i))
  | _, .pool i => do
    let (owner, name, desc) ← pool.memberRef i
    pure (" " ++ (Ref.mk owner name desc).text)
  | _, .multiArray i dims => do
    pure (" " ++ (← pool.className i) ++ " " ++ toString dims)
  | _, .table low dflt targets =>
    pure (" low " ++ toString low ++ " targets " ++ offsetsText targets ++ " default " ++
      toString dflt)
  | _, .lookup dflt keys targets =>
    pure (" keys " ++ offsetsText keys ++ " targets " ++ offsetsText targets ++ " default " ++
      toString dflt)
  | _, .branch target => pure (" " ++ toString target)
  | _, .none => pure ""

/-- The offset right-aligned in five columns. -/
def offsetColumn (n : Nat) : String :=
  let s := toString n
  String.ofList (List.replicate (5 - s.length) ' ') ++ s

/-- Why a body cannot be disassembled. -/
inductive ListingError where
  | decoding (e : DecodeFailure)
  | constant (e : ClassError)
  deriving DecidableEq, Repr

/-- The message of a disassembly problem. -/
def ListingError.message : ListingError → String
  | .decoding e => e.message
  | .constant e => e.message

/-- One line per instruction of a method body. -/
def disassemble (code : List UInt8) (pool : Pool) : Except ListingError String := do
  let insns ← (decode code).mapError .decoding
  let lines ← insns.mapM fun d => do
    let ops ← (operandsText pool d).mapError .constant
    pure (offsetColumn d.offset ++ ": " ++ d.op.name ++ ops ++ "\n")
  pure (String.join lines)

end BasicJvm.Bytecode
