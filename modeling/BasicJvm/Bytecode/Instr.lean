import BasicJvm.Bytecode.Opcode
import BasicJvm.Number.Decimal
import BasicJvm.Text.Quoted

/-!
# Symbolic instructions

The assembler's input is a list of symbolic instructions.  Branches name labels instead of
offsets, constants are values instead of pool indexes, and loads and stores name a slot
in their long form; the assembler picks encodings, offsets and pool entries.

Besides the real instructions there are three pseudo-instructions: `label` places a
label, `gosub key target ret` pushes a return-site key and jumps to `target` (with `ret`
placed right after it), and `dispatch default` pops a key and jumps back to the return
label of the `gosub` that pushed it, or to `default`.

`pushInt` and `pushFloat` choose the shortest push of a constant: `iconst`, `bipush`,
`sipush` or `ldc` for ints, `fconst` for non-negative 0, 1 and 2 and `ldc` otherwise for
floats.
-/

namespace BasicJvm.Bytecode

open BasicJvm.Number

/-- A branch target.  Label 0 stands for no label. -/
abbrev Label := Int

/-- How a label is written. -/
def labelText (l : Label) : String := "L" ++ toString l

/-- A field or method: owner class, name and descriptor. -/
structure Ref where
  owner : String
  name : String
  desc : String
  deriving DecidableEq, Repr, Inhabited

/-- How a reference is written: `Owner.name(desc)` for methods, `Owner.name:desc` for
fields. -/
def Ref.text (r : Ref) : String :=
  if r.desc.startsWith "(" then r.owner ++ "." ++ r.name ++ r.desc
  else r.owner ++ "." ++ r.name ++ ":" ++ r.desc

/-- A constant that `ldc` pushes. -/
inductive Literal where
  | int (value : Int)
  | float (value : Single)
  | string (value : String)
  deriving DecidableEq, Repr, Inhabited

/-- A symbolic instruction. -/
inductive Instr where
  /-- An instruction without operands.  An `ldc` of this form has no constant. -/
  | plain (op : Opcode)
  /-- A load or store of a local slot. -/
  | var (op : Opcode) (slot : Int)
  /-- An instruction with an immediate operand: `bipush`, `sipush` or `newarray`. -/
  | imm (op : Opcode) (value : Int)
  | ldc (value : Literal)
  /-- A conditional branch or `goto`. -/
  | jump (op : Opcode) (target : Label)
  | label (l : Label)
  /-- A field access or method call. -/
  | member (op : Opcode) (ref : Ref)
  /-- An instruction naming a class: `new` or `anewarray`. -/
  | typed (op : Opcode) (cls : String)
  | multiArray (desc : String) (dims : Int)
  | tableSwitch (low : Int) (dflt : Label) (targets : List Label)
  | lookupSwitch (dflt : Label) (keys : List Int) (targets : List Label)
  | gosub (key : Int) (target ret : Label)
  | dispatch (dflt : Label)
  deriving DecidableEq, Repr, Inhabited

/-- The opcode of an instruction. -/
def Instr.opcode : Instr → Opcode
  | .plain op | .var op _ | .imm op _ | .jump op _ | .member op _ | .typed op _ => op
  | .ldc _ => .ldc
  | .label _ => .label
  | .multiArray .. => .multianewarray
  | .tableSwitch .. => .tableswitch
  | .lookupSwitch .. => .lookupswitch
  | .gosub .. => .gosub
  | .dispatch _ => .dispatch

/-- The padding after a switch opcode at `offset`, up to a multiple of four. -/
def switchPad (offset : Nat) : Nat := (4 - (offset + 1) % 4) % 4

/-- The `newarray` type code of `float[]`. -/
def floatArrayType : Int := 6

/-- The shortest push of an int constant. -/
def pushInt (v : Int) : Instr :=
  if -1 ≤ v ∧ v ≤ 5 then
    .plain ([Opcode.iconstM1, .iconst0, .iconst1, .iconst2, .iconst3, .iconst4, .iconst5].getD
      (v + 1).toNat .nop)
  else if -128 ≤ v ∧ v ≤ 127 then .imm .bipush v
  else if -32768 ≤ v ∧ v ≤ 32767 then .imm .sipush v
  else .ldc (.int v)

/-- The shortest push of a float constant. -/
def pushFloat (v : Single) : Instr :=
  if v.bits == 0 then .plain .fconst0
  else if v.bits == 0x3f800000 then .plain .fconst1
  else if v.bits == 0x40000000 then .plain .fconst2
  else .ldc (.float v)

/-- Labels written as a bracketed, space-separated list. -/
def labelsText (ls : List Label) : String :=
  "[" ++ " ".intercalate (ls.map labelText) ++ "]"

/-- Numbers written as a bracketed, space-separated list. -/
def intsText (ns : List Int) : String :=
  "[" ++ " ".intercalate (ns.map toString) ++ "]"

/-- How an instruction is written in messages. -/
def Instr.text : Instr → String
  | .label l => labelText l ++ ":"
  | .var op slot => op.name ++ " " ++ toString slot
  | .imm .newarray _ => "newarray float"
  | .imm op v => op.name ++ " " ++ toString v
  | .ldc (.string s) => "ldc " ++ Text.quote s
  | .ldc (.int v) => "ldc " ++ toString v
  | .ldc (.float v) => "ldc " ++ v.shortest
  | .plain .ldc => "ldc <nil>"
  | .member op r => op.name ++ " " ++ r.text
  | .typed op cls => op.name ++ " " ++ cls
  | .multiArray desc dims => "multianewarray " ++ desc ++ " " ++ toString dims
  | .tableSwitch low dflt targets =>
    "tableswitch " ++ toString low ++ " " ++ labelsText targets ++ " default " ++ labelText dflt
  | .lookupSwitch dflt keys targets =>
    "lookupswitch " ++ intsText keys ++ " " ++ labelsText targets ++ " default " ++
      labelText dflt
  | .gosub key target ret =>
    "gosub " ++ toString key ++ " " ++ labelText target ++ " return " ++ labelText ret
  | .dispatch dflt => "dispatch default " ++ labelText dflt
  | .jump op target => op.name ++ " " ++ labelText target
  | .plain op => op.name

end BasicJvm.Bytecode
