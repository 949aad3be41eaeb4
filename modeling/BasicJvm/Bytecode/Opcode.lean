/-!
# JVM opcodes

The opcodes that the assembler, the decoder and the interpreter know, with their byte
values and their mnemonic names.  Three pseudo-opcodes above the byte range exist only
inside the assembler: `label` places a label, `gosub` pushes a return-site key and jumps,
and `dispatch` pops a key and jumps back to the matching `gosub`.

The short load and store forms (`iload_0` … `astore_3`) are not opcodes of their own here:
the encoder picks them for slots 0 to 3, and the decoder reads them back as the long form
with a slot.
-/

namespace BasicJvm.Bytecode

/-- An opcode known to the assembler. -/
inductive Opcode where
  | nop
  | aconstNull
  | iconstM1
  | iconst0
  | iconst1
  | iconst2
  | iconst3
  | iconst4
  | iconst5
  | fconst0
  | fconst1
  | fconst2
  | bipush
  | sipush
  | ldc
  | ldcW
  | iload
  | fload
  | aload
  | faload
  | aaload
  | istore
  | fstore
  | astore
  | fastore
  | aastore
  | pop
  | dup
  | swap
  | iadd
  | fadd
  | isub
  | fsub
  | fmul
  | fdiv
  | fneg
  | i2f
  | f2i
  | f2d
  | d2f
  | i2c
  | fcmpl
  | fcmpg
  | ifeq
  | ifne
  | iflt
  | ifge
  | ifgt
  | ifle
  | ifIcmpeq
  | ifIcmpne
  | ifIcmplt
  | ifIcmpge
  | ifIcmpgt
  | ifIcmple
  | goto
  | tableswitch
  | lookupswitch
  | returnVoid
  | getfield
  | putfield
  | invokevirtual
  | invokespecial
  | invokestatic
  | new
  | newarray
  | anewarray
  | arraylength
  | wide
  | multianewarray
  | gotoW
  | label
  | gosub
  | dispatch
  deriving DecidableEq, Repr, Inhabited

/-- The numeric value of an opcode; pseudo-opcodes are above 255. -/
def Opcode.code : Opcode → Nat
  | .nop => 0x00
  | .aconstNull => 0x01
  | .iconstM1 => 0x02
  | .iconst0 => 0x03
  | .iconst1 => 0x04
  | .iconst2 => 0x05
  | .iconst3 => 0x06
  | .iconst4 => 0x07
  | .iconst5 => 0x08
  | .fconst0 => 0x0b
  | .fconst1 => 0x0c
  | .fconst2 => 0x0d
  | .bipush => 0x10
  | .sipush => 0x11
  | .ldc => 0x12
  | .ldcW => 0x13
  | .iload => 0x15
  | .fload => 0x17
  | .aload => 0x19
  | .faload => 0x30
  | .aaload => 0x32
  | .istore => 0x36
  | .fstore => 0x38
  | .astore => 0x3a
  | .fastore => 0x51
  | .aastore => 0x53
  | .pop => 0x57
  | .dup => 0x59
  | .swap => 0x5f
  | .iadd => 0x60
  | .fadd => 0x62
  | .isub => 0x64
  | .fsub => 0x66
  | .fmul => 0x6a
  | .fdiv => 0x6e
  | .fneg => 0x76
  | .i2f => 0x86
  | .f2i => 0x8b
  | .f2d => 0x8d
  | .d2f => 0x90
  | .i2c => 0x92
  | .fcmpl => 0x95
  | .fcmpg => 0x96
  | .ifeq => 0x99
  | .ifne => 0x9a
  | .iflt => 0x9b
  | .ifge => 0x9c
  | .ifgt => 0x9d
  | .ifle => 0x9e
  | .ifIcmpeq => 0x9f
  | .ifIcmpne => 0xa0
  | .ifIcmplt => 0xa1
  | .ifIcmpge => 0xa2
  | .ifIcmpgt => 0xa3
  | .ifIcmple => 0xa4
  | .goto => 0xa7
  | .tableswitch => 0xaa
  | .lookupswitch => 0xab
  | .returnVoid => 0xb1
  | .getfield => 0xb4
  | .putfield => 0xb5
  | .invokevirtual => 0xb6
  | .invokespecial => 0xb7
  | .invokestatic => 0xb8
  | .new => 0xbb
  | .newarray => 0xbc
  | .anewarray => 0xbd
  | .arraylength => 0xbe
  | .wide => 0xc4
  | .multianewarray => 0xc5
  | .gotoW => 0xc8
  | .label => 0x100
  | .gosub => 0x101
  | .dispatch => 0x102

/-- The mnemonic of an opcode. -/
def Opcode.name : Opcode → String
  | .nop => "nop"
  | .aconstNull => "aconst_null"
  | .iconstM1 => "iconst_m1"
  | .iconst0 => "iconst_0"
  | .iconst1 => "iconst_1"
  | .iconst2 => "iconst_2"
  | .iconst3 => "iconst_3"
  | .iconst4 => "iconst_4"
  | .iconst5 => "iconst_5"
  | .fconst0 => "fconst_0"
  | .fconst1 => "fconst_1"
  | .fconst2 => "fconst_2"
  | .bipush => "bipush"
  | .sipush => "sipush"
  | .ldc => "ldc"
  | .ldcW => "ldc_w"
  | .iload => "iload"
  | .fload => "fload"
  | .aload => "aload"
  | .faload => "faload"
  | .aaload => "aaload"
  | .istore => "istore"
  | .fstore => "fstore"
  | .astore => "astore"
  | .fastore => "fastore"
  | .aastore => "aastore"
  | .pop => "pop"
  | .dup => "dup"
  | .swap => "swap"
  | .iadd => "iadd"
  | .fadd => "fadd"
  | .isub => "isub"
  | .fsub => "fsub"
  | .fmul => "fmul"
  | .fdiv => "fdiv"
  | .fneg => "fneg"
  | .i2f => "i2f"
  | .f2i => "f2i"
  | .f2d => "f2d"
  | .d2f => "d2f"
  | .i2c => "i2c"
  | .fcmpl => "fcmpl"
  | .fcmpg => "fcmpg"
  | .ifeq => "ifeq"
  | .ifne => "ifne"
  | .iflt => "iflt"
  | .ifge => "ifge"
  | .ifgt => "ifgt"
  | .ifle => "ifle"
  | .ifIcmpeq => "if_icmpeq"
  | .ifIcmpne => "if_icmpne"
  | .ifIcmplt => "if_icmplt"
  | .ifIcmpge => "if_icmpge"
  | .ifIcmpgt => "if_icmpgt"
  | .ifIcmple => "if_icmple"
  | .goto => "goto"
  | .tableswitch => "tableswitch"
  | .lookupswitch => "lookupswitch"
  | .returnVoid => "return"
  | .getfield => "getfield"
  | .putfield => "putfield"
  | .invokevirtual => "invokevirtual"
  | .invokespecial => "invokespecial"
  | .invokestatic => "invokestatic"
  | .new => "new"
  | .newarray => "newarray"
  | .anewarray => "anewarray"
  | .arraylength => "arraylength"
  | .wide => "wide"
  | .multianewarray => "multianewarray"
  | .gotoW => "goto_w"
  | .label => "label"
  | .gosub => "gosub"
  | .dispatch => "dispatch"

/-- Every opcode. -/
def Opcode.all : List Opcode :=
  [.nop, .aconstNull, .iconstM1, .iconst0, .iconst1, .iconst2, .iconst3, .iconst4, .iconst5,
   .fconst0, .fconst1, .fconst2, .bipush, .sipush, .ldc, .ldcW, .iload, .fload, .aload,
   .faload, .aaload, .istore, .fstore, .astore, .fastore, .aastore, .pop, .dup, .swap, .iadd,
   .fadd, .isub, .fsub, .fmul, .fdiv, .fneg, .i2f, .f2i, .f2d, .d2f, .i2c, .fcmpl, .fcmpg,
   .ifeq, .ifne, .iflt, .ifge, .ifgt, .ifle, .ifIcmpeq, .ifIcmpne, .ifIcmplt, .ifIcmpge,
   .ifIcmpgt, .ifIcmple, .goto, .tableswitch, .lookupswitch, .returnVoid, .getfield, .putfield,
   .invokevirtual, .invokespecial, .invokestatic, .new, .newarray, .anewarray, .arraylength,
   .wide, .multianewarray, .gotoW, .label, .gosub, .dispatch]

/-- The opcode with a given byte value, if the assembler knows one. -/
def Opcode.ofByte? (b : Nat) : Option Opcode :=
  if b < 256 then Opcode.all.find? (·.code == b) else none

/-- The opcode with a given mnemonic, if any. -/
def Opcode.ofName? (s : String) : Option Opcode :=
  Opcode.all.find? (·.name == s)

/-- Whether an opcode is a two-byte-offset branch: a conditional branch or `goto`. -/
def Opcode.isBranch (op : Opcode) : Bool :=
  (0x99 ≤ op.code && op.code ≤ 0xa4) || op == .goto

/-- Whether an opcode is a conditional branch. -/
def Opcode.isConditional (op : Opcode) : Bool :=
  0x99 ≤ op.code && op.code ≤ 0xa4

/-- The conditional branch taken exactly when `op` is not taken. -/
def Opcode.negate (op : Opcode) : Opcode :=
  match Opcode.ofByte? (0x99 + ((op.code - 0x99) ^^^ 1)) with
  | some o => o
  | none => op

/-- Whether an opcode loads or stores a local variable. -/
def Opcode.isLocal (op : Opcode) : Bool :=
  op == .iload || op == .fload || op == .aload ||
    op == .istore || op == .fstore || op == .astore

/-- The byte of the slot-0 short form of a load or store opcode. -/
def Opcode.shortForm (op : Opcode) : Nat :=
  match op with
  | .iload => 0x1a
  | .fload => 0x22
  | .aload => 0x2a
  | .istore => 0x3b
  | .fstore => 0x43
  | .astore => 0x4b
  | _ => 0

/-- The long form and slot that a short load or store byte stands for. -/
def shortLocal? (b : Nat) : Option (Opcode × Nat) :=
  [Opcode.iload, .fload, .aload, .istore, .fstore, .astore].findSome? fun op =>
    if op.shortForm ≤ b && b < op.shortForm + 4 then some (op, b - op.shortForm) else none

/-- The name of an opcode byte: its mnemonic when it is known, `op_0x` and its hex digits
otherwise. -/
def opcodeByteName (b : Nat) : String :=
  match Opcode.ofByte? b with
  | some op => op.name
  | none =>
    let digits := Nat.toDigits 16 b
    "op_0x" ++ String.ofList (if digits.length < 2 then '0' :: digits else digits)

end BasicJvm.Bytecode
