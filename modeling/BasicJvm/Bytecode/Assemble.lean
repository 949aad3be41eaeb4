import BasicJvm.Bytecode.Simulate
import BasicJvm.ClassFile.Code

/-!
# Assembling a method body

`assemble` turns symbolic code into the Code attribute of a no-argument instance method.

1. *Simulation* (`simulate`) checks the types, computes the stack and locals limits, and
   finds for every `dispatch` the `gosub` sites it returns to.
2. *Lowering* drops the instructions no path reaches and expands the pseudo-instructions:
   a `gosub` becomes a push of its key and a `goto`, a `dispatch` a `lookupswitch` over the
   keys of its sites, in increasing order.
3. *Layout* gives every instruction its offset and size and its constant pool entry.  A
   branch whose target is more than 32767 bytes away is *widened*: a `goto` becomes
   `goto_w`, a conditional branch the negated branch over a `goto_w`.  Widening moves later
   code, so layout repeats until no branch needs widening.
4. *Encoding* writes the bytes: loads and stores of slots 0 to 3 use the one-byte forms,
   slots up to 255 the two-byte forms and larger slots `wide`; `ldc` becomes `ldc_w` for
   pool indexes above 255; switches are padded to a multiple of four.
5. With stack maps asked for, a `StackMapTable` gets one full frame for every distinct
   offset that a branch can reach: each label, and the instruction after each widened
   conditional branch.
-/

-- Powers use the core `NatPow` instance also where an algebra library is loaded, so that
-- the definitions below elaborate to the same terms in every build.
attribute [local instance (high)] instPowNat

namespace BasicJvm.Bytecode

open BasicJvm.ClassFile

/-- Why code cannot be assembled. -/
inductive AsmError where
  | flow (e : FlowError)
  | localRange (slot : Int)
  | noConstant
  | bodyTooLarge (size : Nat)
  | undefinedLabel (l : Label)
  | branchRange (offset : Nat) (l : Label) (rel : Int)
  | internal (text : String) (got size : Nat)
  | frameTooLarge (locals stack : Nat)
  deriving DecidableEq, Repr

/-- The message of an assembly problem. -/
def AsmError.message : AsmError → String
  | .flow e => e.message
  | .localRange slot => "local slot " ++ toString slot ++ " out of range"
  | .noConstant => "unsupported constant <nil>"
  | .bodyTooLarge size => "method body is " ++ toString size ++ " bytes, limit is 65535"
  | .undefinedLabel l => "undefined label " ++ labelText l
  | .branchRange offset l rel =>
    "branch from offset " ++ toString offset ++ " to " ++ labelText l ++ " is out of range (" ++
      toString rel ++ " bytes)"
  | .internal text got size =>
    "internal error: " ++ text ++ " encoded to " ++ toString got ++ " bytes, laid out as " ++
      toString size
  | .frameTooLarge locals stack =>
    "frame too large: " ++ toString locals ++ " locals, " ++ toString stack ++ " stack"

/-- An instruction on its way into the body. -/
structure Node where
  instr : Instr
  /-- The frame at a label, or after a conditional branch. -/
  frame : Option Frame
  offset : Nat
  size : Nat
  /-- The pool index of the instruction's constant or reference. -/
  cp : Nat
  /-- Whether a branch goes through `goto_w`. -/
  wide : Bool
  deriving Inhabited

/-- A node not yet laid out. -/
def Node.ofInstr (instr : Instr) (frame : Option Frame) : Node := ⟨instr, frame, 0, 0, 0, false⟩

/-- The nodes of the instruction at index `i`: none when no path reaches it.  A `gosub`
becomes a push of its key and a `goto`, a `dispatch` a `lookupswitch` over the keys of its
sites in increasing order; a label keeps the frame it is reached with, and a conditional
branch the frame of the instruction after it. -/
def lowerAt (code : List Instr) (sim : Simulation) (instr : Instr) (i : Nat) : List Node :=
  match sim.incoming.getD i none with
  | none => []
  | some inFrame =>
    match instr with
    | .gosub key target _ => [.ofInstr (pushInt key) none, .ofInstr (.jump .goto target) none]
    | .dispatch dflt =>
      let sites := ((sim.matched.getD i none).getD []).mergeSort (fun a b => a.key ≤ b.key)
      [.ofInstr (.lookupSwitch dflt (sites.map (·.key)) (sites.map (·.ret))) none]
    | .label _ => [.ofInstr instr (some inFrame)]
    | .jump op _ =>
      if op != .goto && i + 1 < code.length then [.ofInstr instr (sim.incoming.getD (i + 1) none)]
      else [.ofInstr instr none]
    | _ => [.ofInstr instr none]

/-- The reachable instructions, with the pseudo-instructions expanded. -/
def lower (code : List Instr) (sim : Simulation) : List Node :=
  code.zipIdx.flatMap fun (instr, i) => lowerAt code sim instr i

/-- The pool index of an `ldc` constant. -/
def Literal.addTo (pool : Pool) : Literal → Pool × Nat
  | .int v => pool.addInteger (v % 2 ^ (32 : Nat)).toNat.toUInt32
  | .float v => pool.addFloat v.bits
  | .string s => pool.addString s

/-- The size and pool index of a node placed at `pc`. -/
def placeNode (pool : Pool) (n : Node) (pc : Nat) : Except AsmError (Pool × Nat × Nat) :=
  match n.instr with
  | .label _ => .ok (pool, 0, 0)
  | .var _ slot =>
    if slot < 0 ∨ slot > 65535 then .error (.localRange slot)
    else if slot ≤ 3 then .ok (pool, 1, 0)
    else if slot ≤ 255 then .ok (pool, 2, 0)
    else .ok (pool, 4, 0)
  | .imm .sipush _ => .ok (pool, 3, 0)
  | .imm _ _ => .ok (pool, 2, 0)
  | .ldc v =>
    let (pool, cp) := v.addTo pool
    .ok (pool, if cp > 255 then 3 else 2, cp)
  | .plain .ldc | .plain .ldcW => .error .noConstant
  | .member op ref =>
    let (pool, cp) := if op == .getfield || op == .putfield then
        pool.addFieldref ref.owner ref.name ref.desc
      else pool.addMethodref ref.owner ref.name ref.desc
    .ok (pool, 3, cp)
  | .typed _ cls =>
    let (pool, cp) := pool.addClass cls
    .ok (pool, 3, cp)
  | .multiArray cls _ =>
    let (pool, cp) := pool.addClass cls
    .ok (pool, 4, cp)
  | .tableSwitch _ _ targets => .ok (pool, 1 + switchPad pc + 12 + 4 * targets.length, 0)
  | .lookupSwitch _ _ targets => .ok (pool, 1 + switchPad pc + 8 + 8 * targets.length, 0)
  | .jump op _ =>
    if n.wide then .ok (pool, if op == .goto then 5 else 8, 0) else .ok (pool, 3, 0)
  | _ => .ok (pool, 1, 0)

/-- One layout pass: offsets, sizes and pool indexes, and the body's length. -/
def place (pool : Pool) (nodes : Array Node) : Except AsmError (Pool × Array Node × Nat) := do
  let (pool, placed, pc) ← nodes.foldlM (fun (pool, acc, pc) n => do
      let (pool, size, cp) ← placeNode pool n pc
      pure (pool, acc.push { n with offset := pc, size, cp }, pc + size))
    (pool, (#[] : Array Node), 0)
  if pc > 65535 then throw (.bodyTooLarge pc)
  pure (pool, placed, pc)

/-- The offset of every label. -/
def labelOffsets (nodes : Array Node) : List (Label × Nat) :=
  nodes.toList.filterMap fun n =>
    match n.instr with
    | .label l => some (l, n.offset)
    | _ => none

/-- The offset of a label. -/
def offsetOf (labels : List (Label × Nat)) (l : Label) : Except AsmError Nat :=
  match labels.lookup l with
  | some o => .ok o
  | none => .error (.undefinedLabel l)

/-- Whether a relative offset fits in a signed 16-bit number. -/
def fitsShort (rel : Int) : Bool := -32768 ≤ rel && rel ≤ 32767

/-- The nodes with every branch that cannot reach its target widened, and whether any
was. -/
def widen (nodes : Array Node) : Except AsmError (Array Node × Bool) := do
  let labels := labelOffsets nodes
  nodes.foldlM (fun (acc, widened) n => do
      match n.instr with
      | .jump _ target =>
        if n.wide then pure (acc.push n, widened) else
        let dest ← offsetOf labels target
        if fitsShort ((dest : Int) - n.offset) then pure (acc.push n, widened)
        else pure (acc.push { n with wide := true }, true)
      | _ => pure (acc.push n, widened))
    ((#[] : Array Node), false)

/-- Lay the nodes out, widening branches until all reach, at most `fuel` passes. -/
def layout (pool : Pool) (nodes : Array Node) : Nat → Except AsmError (Pool × Array Node × Nat)
  | 0 => place pool nodes
  | fuel + 1 => do
    let (pool, placed, length) ← place pool nodes
    let (widened, changed) ← widen placed
    if changed then layout pool widened fuel else pure (pool, placed, length)

/-- A signed 32-bit number as four big-endian bytes. -/
def s4 (v : Int) : List UInt8 := u4 (v % 2 ^ (32 : Nat)).toNat

/-- A signed 16-bit number as two big-endian bytes. -/
def s2 (v : Int) : List UInt8 := u2 (v % 2 ^ (16 : Nat)).toNat

/-- The bytes of one node. -/
def encodeNode (labels : List (Label × Nat)) (n : Node) : Except AsmError (List UInt8) := do
  let rel (fromOffset : Nat) (l : Label) : Except AsmError Int := do
    pure ((← offsetOf labels l : Nat) - (fromOffset : Int))
  match n.instr with
  | .label _ => pure []
  | .var op slot =>
    let slot := slot.toNat
    if n.size == 1 then pure [(op.shortForm + slot).toUInt8]
    else if n.size == 2 then pure [op.code.toUInt8, slot.toUInt8]
    else pure ([0xc4, op.code.toUInt8] ++ u2 slot)
  | .imm .sipush v => pure ([0x11] ++ s2 v)
  | .imm op v => pure [op.code.toUInt8, (v % 256).toNat.toUInt8]
  | .ldc _ => pure (if n.size == 2 then [0x12, n.cp.toUInt8] else [0x13] ++ u2 n.cp)
  | .member op _ | .typed op _ => pure ([op.code.toUInt8] ++ u2 n.cp)
  | .multiArray _ dims => pure ([0xc5] ++ u2 n.cp ++ [(dims % 256).toNat.toUInt8])
  | .tableSwitch low dflt targets => do
    let d ← rel n.offset dflt
    let ts ← targets.mapM (rel n.offset)
    pure ([0xaa] ++ List.replicate (switchPad n.offset) 0 ++ s4 d ++ s4 low ++
      s4 (low + targets.length - 1) ++ ts.flatMap s4)
  | .lookupSwitch dflt keys targets => do
    let d ← rel n.offset dflt
    let ts ← targets.mapM (rel n.offset)
    pure ([0xab] ++ List.replicate (switchPad n.offset) 0 ++ s4 d ++ s4 targets.length ++
      (keys.zip ts).flatMap fun (k, t) => s4 k ++ s4 t)
  | .jump op target =>
    if n.wide then
      if op == .goto then pure ([0xc8] ++ s4 (← rel n.offset target))
      else pure ([op.negate.code.toUInt8, 0, 8, 0xc8] ++ s4 (← rel (n.offset + 3) target))
    else do
      let r ← rel n.offset target
      if !fitsShort r then throw (.branchRange n.offset target r)
      pure ([op.code.toUInt8] ++ s2 r)
  | instr => pure [instr.opcode.code.toUInt8]

/-- The bytes of the body. -/
def encode (nodes : Array Node) : Except AsmError (List UInt8) := do
  let labels := labelOffsets nodes
  let parts ← nodes.toList.mapM fun n => do
    let bytes ← encodeNode labels n
    if bytes.length != n.size then throw (.internal n.instr.text bytes.length n.size)
    pure bytes
  pure parts.flatten

/-- The bytes of a verification type in a stack map frame. -/
def vtypeBytes (pool : Pool) : VType → Pool × List UInt8
  | .top => (pool, [0])
  | .int => (pool, [1])
  | .float => (pool, [2])
  | .double => (pool, [3])
  | .null => (pool, [5])
  | .object cls =>
    let (pool, i) := pool.addClass cls
    (pool, [7] ++ u2 i)

/-- The bytes of a list of verification types, after their count. -/
def vtypesBytes (pool : Pool) (ts : List VType) : Pool × List UInt8 :=
  ts.foldl (fun (pool, acc) t =>
    let (pool, b) := vtypeBytes pool t
    (pool, acc ++ b)) (pool, u2 ts.length)

/-- The offset a branch can land on at a laid-out node: a label's own offset, or the offset
after a widened conditional branch, which jumps over its `goto_w` when the condition fails. -/
def Node.landing? (n : Node) : Option Nat :=
  match n.instr with
  | .label _ => some n.offset
  | .jump op _ => if n.wide && op != .goto then some (n.offset + n.size) else none
  | _ => none

/-- One node's part of the StackMapTable: a full frame where a branch can land on it, when no
frame was written at that offset yet; with the pool, the frame count, the entries so far and
the last offset written. -/
def stackMapStep (length : Nat) (acc : Pool × Nat × List UInt8 × Int) (n : Node) :
    Pool × Nat × List UInt8 × Int :=
  let (pool, count, entries, prev) := acc
  match n.landing? with
  | none => acc
  | some offset =>
    if (offset : Int) == prev || offset ≥ length then acc else
    let delta : Int := if prev ≥ 0 then offset - prev - 1 else offset
    let frame := n.frame.getD default
    let (pool, localBytes) := vtypesBytes pool (trimTop frame.locals)
    let (pool, stackBytes) := vtypesBytes pool frame.stack.reverse
    (pool, count + 1, entries ++ [255] ++ u2 delta.toNat ++ localBytes ++ stackBytes, offset)

/-- The StackMapTable of a laid-out body, if there is any frame to write. -/
def stackMapTable (pool : Pool) (nodes : Array Node) (length : Nat) : Pool × Option Attribute :=
  let (pool, count, entries, _) := nodes.foldl (stackMapStep length) (pool, 0, [], -1)
  if count == 0 then (pool, none) else
  let (pool, name) := pool.addUtf8 "StackMapTable"
  (pool, some ⟨name, u2 count ++ entries⟩)

/-- What assembling a body gives: the pool with the body's constants added, the Code
attribute, and the number of symbolic instructions it came from. -/
structure Assembled where
  pool : Pool
  code : Code
  instrs : Nat

/-- Assemble code as the body of a no-argument instance method of class `owner`, adding
its constants to `pool`; with `stackMaps` a StackMapTable is written. -/
def assemble (pool : Pool) (owner : String) (stackMaps : Bool) (code : List Instr) :
    Except AsmError Assembled := do
  let entry : Frame := ⟨[.object owner], []⟩
  let sim ← (simulate code entry).mapError .flow
  let nodes := (lower code sim).toArray
  let (pool, placed, length) ← layout pool nodes (nodes.size + 1)
  let body ← encode placed
  if sim.maxLocals > 65535 || sim.maxStack > 65535 then
    throw (.frameTooLarge sim.maxLocals sim.maxStack)
  let (pool, attrs) :=
    if stackMaps then
      match stackMapTable pool placed length with
      | (pool, some a) => (pool, [a])
      | (pool, none) => (pool, [])
    else (pool, [])
  pure ⟨pool, ⟨sim.maxStack, sim.maxLocals, body, [], attrs⟩, code.length⟩

end BasicJvm.Bytecode
