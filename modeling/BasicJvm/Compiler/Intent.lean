import BasicJvm.Bytecode.Instr

/-!
# Intents

The first pass of the compiler queues *intents*: instructions of the `run` method that are
still symbolic in the two things only the second pass knows, the name of the class and the
pool offsets of `DATA` lines.  An intent also may stand for the start of a program line,
whose label is placed only if something jumps there.

`Intent.text` is how the plan dump shows an intent; calls on the program object are written
on `this`.
-/

namespace BasicJvm.Compiler

open BasicJvm.Bytecode

/-- One queued instruction of the `run` method. -/
inductive Intent where
  | op (op : Opcode)
  /-- A load or store of a slot. -/
  | var (op : Opcode) (slot : Nat)
  /-- A push of a constant. -/
  | const (value : Literal)
  | jump (op : Opcode) (target : Label)
  | label (l : Label)
  /-- The start of a program line. -/
  | line (label : String)
  /-- A call of a method of the program class. -/
  | runtimeCall (name desc : String)
  /-- A call of a JDK method. -/
  | jdkCall (op : Opcode) (owner name desc : String)
  /-- A field of the program object. -/
  | runtimeField (op : Opcode) (name desc : String)
  | newArray (desc : String) (dims : Nat)
  | newObjects (owner : String)
  | tableSwitch (low : Int) (dflt : Label) (targets : List Label)
  | gosub (key : Int) (target ret : Label)
  /-- A return from a subroutine, `dflt` when no `GOSUB` matches. -/
  | ret (dflt : Label)
  /-- Set the data pointer to the first `DATA` at or after a line, queued by the
  statement of line `owner`. -/
  | restore (target owner : String)
  deriving DecidableEq, Repr, Inhabited

/-- How the plan dump shows an intent. -/
def Intent.text : Intent → String
  | .op o => o.name
  | .var o slot => o.name ++ " " ++ toString slot
  | .const (.string s) => "const " ++ Text.quote s
  | .const (.int v) => "const " ++ toString v
  | .const (.float v) => "const " ++ v.shortest
  | .jump o target => o.name ++ " " ++ labelText target
  | .label l => labelText l ++ ":"
  | .line name => "line " ++ name ++ ":"
  | .runtimeCall name desc => "invokevirtual this." ++ name ++ desc
  | .jdkCall o owner name desc => o.name ++ " " ++ owner ++ "." ++ name ++ desc
  | .runtimeField o name desc => o.name ++ " this." ++ name ++ ":" ++ desc
  | .newArray desc dims => "multianewarray " ++ desc ++ " " ++ toString dims
  | .newObjects owner => "anewarray " ++ owner
  | .tableSwitch low dflt targets =>
    "tableswitch " ++ toString low ++ " " ++ labelsText targets ++ " default " ++ labelText dflt
  | .gosub key target back =>
    "gosub " ++ toString key ++ " " ++ labelText target ++ " return " ++ labelText back
  | .ret dflt => "return-dispatch default " ++ labelText dflt
  | .restore target _ => if target.isEmpty then "restore" else "restore " ++ target

/-- Whether the dump writes an intent flush left: line starts and labels. -/
def Intent.isMark : Intent → Bool
  | .line _ | .label _ => true
  | _ => false

end BasicJvm.Compiler
