import BasicJvm.Compiler.Generate
import BasicJvm.ClassFile.Template

/-!
# The second pass: emitting the class

`Plan.instructions` lowers the intents to symbolic instructions once the class name is
known: calls and fields of the program object go to the class itself, a line start becomes
its label when something jumps there, and a `RESTORE` sets the field `nextDataPtr` to the
pool offset of its `DATA` line.

`Plan.emit` then reads the template class, which must have a `run()V` method, renames it,
assembles the instructions against its constant pool (with stack maps from class file
version 50 on) and puts the result in as the body of `run`.  Assembly errors that concern
the program are reported at the line the offending label belongs to: a line reached with
two different `GOSUB` nestings, or a `RETURN` that no `GOSUB` reaches.
-/

namespace BasicJvm.Compiler

open BasicJvm.Bytecode
open BasicJvm.ClassFile

/-- The instructions of one intent. -/
def Plan.lowerIntent (p : Plan) (className : String) : Intent → Except CodeGenError (List Instr)
  | .op o => .ok [.plain o]
  | .var o slot => .ok [.var o slot]
  | .const (.float v) => .ok [pushFloat v]
  | .const (.int v) => .ok [pushInt v]
  | .const (.string s) => .ok [.ldc (.string s)]
  | .jump o target => .ok [.jump o target]
  | .label l => .ok [.label l]
  | .line name =>
    match p.syms.placedTarget name with
    | some l => .ok [.label l]
    | none => .ok []
  | .runtimeCall name desc => .ok [.member .invokevirtual ⟨className, name, desc⟩]
  | .jdkCall o owner name desc => .ok [.member o ⟨owner, name, desc⟩]
  | .runtimeField o name desc => .ok [.member o ⟨className, name, desc⟩]
  | .newArray desc dims => .ok [.multiArray desc dims]
  | .newObjects owner => .ok [.typed .anewarray owner]
  | .tableSwitch low dflt targets => .ok [.tableSwitch low dflt targets]
  | .gosub key target back => .ok [.gosub key target back]
  | .ret dflt => .ok [.dispatch dflt]
  | .restore target owner =>
    match p.syms.dataOffset target with
    | .ok offset =>
      .ok [.var .aload 0, pushInt offset, .member .putfield ⟨className, "nextDataPtr", "I"⟩]
    | .error e => .error ⟨owner, .restore e⟩

/-- The instructions of the whole plan, prologue first. -/
def Plan.instructions (p : Plan) (className : String) : Except CodeGenError (List Instr) := do
  let parts ← (p.prologue ++ p.body).mapM (p.lowerIntent className)
  pure parts.flatten

/-- A compilation error without a line. -/
def problem {α : Type} (e : GenProblem) : Except CodeGenError α := .error ⟨"", e⟩

/-- The log record of an assembled method. -/
def assembledRecord (owner : String) (a : Assembled) : Log.Record :=
  ⟨.debug, "Assembled method",
    [("owner", .text owner), ("instrs", .int a.instrs), ("bytes", .int a.code.code.length),
     ("maxStack", .int a.code.maxStack), ("maxLocals", .int a.code.maxLocals)]⟩

/-- The class file of a plan: the template renamed to `className`, with `run` as the
plan's code; and the log records of assembling and emitting. -/
def Plan.emit (p : Plan) (className : String) (template : List UInt8) :
    Except CodeGenError (List UInt8 × List Log.Record) := do
  let cf ← match parseClass template with
    | .ok cf => pure cf
    | .error e => problem (.readingTemplate e)
  match cf.findMethod "run" "()V" with
  | .ok _ => pure ()
  | .error e => problem (.template e)
  let cf ← match cf.rename className with
    | .ok cf => pure cf
    | .error e => problem (.classFile e)
  let code ← p.instructions className
  let a ← match assemble cf.pool className (cf.major ≥ versionStackMaps) code with
    | .ok a => pure a
    | .error (.flow (.merge l held got)) => .error ⟨p.syms.labelLine l, .nesting held got⟩
    | .error (.flow (.unmatchedReturn dflt)) =>
      .error ⟨p.syms.labelLine dflt, .returnWithoutGosub⟩
    | .error e => problem (.assembling e)
  let cf := { cf with pool := a.pool }
  let cf ← match cf.setMethodCode "run" "()V" a.code with
    | .ok cf => pure cf
    | .error e => problem (.classFile e)
  if cf.pool.overflowed then problem .poolOverflow
  let out ← match cf.bytes with
    | .ok b => pure b
    | .error e => problem (.classFile e)
  let emitted : Log.Record := ⟨.debug, "Emitted class",
    [("name", .text className), ("major", .int cf.major), ("code", .int a.code.code.length),
     ("bytes", .int out.length)]⟩
  pure (out, [assembledRecord className a, emitted])

end BasicJvm.Compiler
