import BasicJvm.Compiler.Error
import BasicJvm.Compiler.Intent
import BasicJvm.Log.Record

/-!
# The first pass: planning the `run` method

`generate` walks the program once, line by line, and queues the intents of its body.  Each
line starts with a line intent; then each statement adds its code:

* Numbers are floats.  Truth is `0` and falsehood `-1`: a comparison pushes `0` when it
  holds and `-1` otherwise, and `IF` goes on with its statement when the condition, cut to
  an int, is zero, and to the next line otherwise.  `AND` and `OR` keep the left operand
  when it decides the result.
* Array elements are found through `aaload` of every index but the last, which is left
  with the array for the final load or store; indexes count from 1.
* `FOR` stores the start, keeps limit and step in hidden slots and marks the loop body;
  `NEXT` adds the step and jumps back while the sign of the step differs from the sign of
  the variable minus the limit.
* `GOSUB` and `RETURN` become the assembler's `gosub` and `dispatch`; a `RETURN` that no
  `GOSUB` matches at run time calls `runtimeError`.

After the body, arrays of more than one dimension must have been dimensioned.  The
*prologue* then fills the `DATA` pool and gives every slot a first value (zero, the empty
text, or an array: of the default size, or of size zero when a `DIM` sizes it later), so
every local is defined on every path.
-/

-- Powers use the core `NatPow` instance also where an algebra library is loaded, so that
-- the definitions below elaborate to the same terms in every build.
attribute [local instance (high)] instPowNat

namespace BasicJvm.Compiler

open BasicJvm.Syntax
open BasicJvm.Bytecode

/-- The options of the code generator. -/
structure GenOptions where
  /-- The length of arrays used without `DIM`; zero or less means 10. -/
  defaultArraySize : Int
  deriving DecidableEq, Repr, Inhabited

/-- The state of the first pass. -/
structure Gen where
  syms : Symbols
  out : Array Intent
  /-- The label and number of the line being compiled, none after the last one. -/
  line : Option (String × Nat)

/-- The first pass, failing with a code generation error. -/
abbrev GenM := StateT Gen (Except CodeGenError)

/-- The label of the current line, empty when there is none. -/
def currentLabel : GenM String := do
  pure (((← get).line.map Prod.fst).getD "")

/-- The number of the current line. -/
def currentNumber : GenM Nat := do
  pure (((← get).line.map Prod.snd).getD 0)

/-- Fail at the current line. -/
def failHere {α : Type} (p : GenProblem) : GenM α := do
  throw ⟨← currentLabel, p⟩

/-- Queue an intent. -/
def emit (i : Intent) : GenM Unit := modify fun g => { g with out := g.out.push i }

/-- Queue an instruction without operands. -/
def emitOp (op : Opcode) : GenM Unit := emit (.op op)

/-- Queue a push of a constant. -/
def push (v : Literal) : GenM Unit := emit (.const v)

/-- Queue a load of the program object. -/
def this : GenM Unit := emit (.var .aload 0)

/-- Queue a call of a method of the program class. -/
def callRuntime (name desc : String) : GenM Unit := emit (.runtimeCall name desc)

/-- Run a symbol table update. -/
def withSyms {α : Type} (f : Symbols → Symbols × α) : GenM α := do
  let g ← get
  let (syms, a) := f g.syms
  set { g with syms }
  pure a

/-- A fresh label of the current line. -/
def newLabel : GenM Label := do
  let line ← currentLabel
  withSyms (·.newLabel line)

/-- The branch label of a line. -/
def lineTarget (label : String) : GenM Label := do
  match (← get).syms.lineTarget label with
  | some (syms, l) =>
    modify fun g => { g with syms }
    pure l
  | none => failHere (.unknownLine label)

/-- The slot of a scalar variable. -/
def scalarSlot (name : String) : GenM Slot := withSyms (·.scalarSlot name)

/-- Register a use of an array at the current line and queue a load of it. -/
def loadArray (name : String) (dims : Nat) : GenM Unit := do
  let line ← currentLabel
  match (← get).syms.useArray ⟨name, ValueType.ofName name, dims⟩ line with
  | .ok syms => modify fun g => { g with syms }
  | .error e => failHere (.shape e)
  let slot ← withSyms (·.arraySlot name)
  emit (.var .aload slot.index)

/-- The branch taken when a comparison holds, applied to the `fcmpg` or `compareTo`
result. -/
def compareJump : BinOp → Opcode
  | .eq => .ifeq
  | .ne => .ifne
  | .lt => .iflt
  | .le => .ifle
  | .gt => .ifgt
  | _ => .ifge

/-- The float instruction of an arithmetic operator. -/
def arithmeticOp : BinOp → Opcode
  | .add => .fadd
  | .sub => .fsub
  | .mul => .fmul
  | _ => .fdiv

mutual

/-- Queue the code that pushes the value of an expression. -/
def genExpr : Expr → GenM Unit
  | .number v => push (.float v)
  | .text s => push (.string s)
  | .ref name [] => do
    let slot ← scalarSlot name
    emit (.var (if ValueType.ofName name == .text then .aload else .fload) slot.index)
  | .ref name (i :: is) => do
    loadArray name (is.length + 1)
    genIndexes (i :: is)
    emitOp (if ValueType.ofName name == .text then .aaload else .faload)
  | .neg x => do
    genExpr x
    emitOp .fneg
  | .binary op l r =>
    if op == .and || op == .or then do
      genExpr l
      emitOp .dup
      emitOp .f2i
      let done ← newLabel
      emit (.jump (if op == .and then .ifne else .ifeq) done)
      emitOp .pop
      genExpr r
      emit (.label done)
    else do
      genExpr l
      if op == .pow then emitOp .f2d
      genExpr r
      let text := l.type == .text
      if op == .pow then
        emitOp .f2d
        emit (.jdkCall .invokestatic "java/lang/Math" "pow" "(DD)D")
        emitOp .d2f
      else if op == .add && text then
        emit (.jdkCall .invokevirtual "java/lang/String" "concat"
          "(Ljava/lang/String;)Ljava/lang/String;")
      else if op.isComparison then
        if text then
          emit (.jdkCall .invokevirtual "java/lang/String" "compareTo" "(Ljava/lang/String;)I")
        else emitOp .fcmpg
        let yes ← newLabel
        let done ← newLabel
        emit (.jump (compareJump op) yes)
        push (.float (Number.Single.mk 0xbf800000))
        emit (.jump .goto done)
        emit (.label yes)
        push (.float (Number.Single.mk 0))
        emit (.label done)
      else emitOp (arithmeticOp op)
  | .call f args => do
    if f.kind == .runtime then this
    genExprs args
    f.before.forM emitOp
    match f.kind with
    | .runtime => callRuntime f.runtimeMethod f.descriptor
    | .static => emit (.jdkCall .invokestatic f.owner f.method f.desc)
    | .virtual => emit (.jdkCall .invokevirtual f.owner f.method f.desc)
    f.after.forM emitOp

/-- Queue the code of expressions, one after another. -/
def genExprs : List Expr → GenM Unit
  | [] => pure ()
  | e :: es => do
    genExpr e
    genExprs es

/-- Queue the index code of an array element: each index cut to an int and made
zero-based, every one but the last followed by the load of the inner array. -/
def genIndexes : List Expr → GenM Unit
  | [] => pure ()
  | [e] => do
    genExpr e
    emitOp .f2i
    push (.int 1)
    emitOp .isub
  | e :: es => do
    genExpr e
    emitOp .f2i
    push (.int 1)
    emitOp .isub
    emitOp .aaload
    genIndexes es

end

/-- Queue the code that stores the value pushed by `value` into a variable. -/
def store (v : Variable) (value : GenM Unit) : GenM Unit := do
  let text := v.type == .text
  match v.indexes with
  | [] =>
    let slot ← scalarSlot v.name
    value
    emit (.var (if text then .astore else .fstore) slot.index)
  | idx =>
    loadArray v.name idx.length
    genIndexes idx
    value
    emitOp (if text then .aastore else .fastore)

/-- Queue a print of a constant text. -/
def printConst (s : String) : GenM Unit := do
  this
  push (.string s)
  callRuntime "print" "(Ljava/lang/String;)V"

/-- Queue the code of a `PRINT` statement. -/
def genPrint (items : List PrintItem) : GenM Unit := do
  for item in items do
    match item with
    | .expr e =>
      this
      genExpr e
      callRuntime "print" ("(" ++ e.type.descriptor ++ ")V")
    | .comma =>
      this
      callRuntime "nextPrintZone" "()V"
    | .space => printConst " "
    | .semicolon => pure ()
  if printEndsLine items then
    this
    callRuntime "println" "()V"

/-- The float `1`. -/
def floatOne : Number.Single := ⟨0x3f800000⟩

/-- Queue the code of a `FOR` statement. -/
def genFor (var : String) (start limit : Expr) (step : Option Expr) : GenM Unit := do
  store ⟨var, []⟩ (genExpr start)
  let body ← newLabel
  let line ← currentLabel
  let id ← withSyms (·.pushLoop var body line)
  let limitSlot ← withSyms (·.allocate (forSlotKey "END" id) .number none true)
  let stepSlot ← withSyms (·.allocate (forSlotKey "INC" id) .number none true)
  genExpr limit
  emit (.var .fstore limitSlot.index)
  match step with
  | some s => genExpr s
  | none => push (.float floatOne)
  emit (.var .fstore stepSlot.index)
  emit (.label body)

/-- Queue the code that closes one loop: the innermost, or the innermost over `name`. -/
def genNextOne (name : String) : GenM Unit := do
  let loop ← match (← get).syms.popLoop name with
    | .ok (syms, loop) => do
      modify fun g => { g with syms }
      pure loop
    | .error e => failHere (.loop e)
  let v := (← scalarSlot loop.var).index
  let syms := (← get).syms
  let limit := ((syms.slotOf (forSlotKey "END" loop.id)).map (·.index)).getD 0
  let step := ((syms.slotOf (forSlotKey "INC" loop.id)).map (·.index)).getD 0
  emit (.var .fload v)
  emit (.var .fload step)
  emitOp .fadd
  emit (.var .fstore v)
  emit (.var .fload step)
  push (.float ⟨0⟩)
  emitOp .fcmpg
  emit (.var .fload v)
  emit (.var .fload limit)
  emitOp .fcmpg
  emit (.jump .ifIcmpne loop.body)

/-- Queue the code of a statement. -/
def genStmt : Stmt → GenM Unit
  | .print items => genPrint items
  | .goto t => do
    let l ← lineTarget t
    emit (.jump .goto l)
  | .gosub t => do
    let l ← lineTarget t
    let ret ← newLabel
    let key ← withSyms (·.nextReturnSite)
    emit (.gosub key l ret)
    emit (.label ret)
  | .ret => do
    let dflt ← newLabel
    emit (.ret dflt)
    emit (.label dflt)
    this
    push (.string "no matching GOSUB")
    callRuntime "runtimeError" "(Ljava/lang/String;)V"
    emitOp .returnVoid
  | .onGoto e targets => do
    genExpr e
    emitOp .f2i
    let ls ← targets.mapM lineTarget
    let after ← newLabel
    emit (.tableSwitch 1 after ls)
    emit (.label after)
  | .ifThen c body => do
    genExpr c
    emitOp .f2i
    let n ← currentNumber
    let next ← withSyms (·.nextLineTarget n)
    emit (.jump .ifne next)
    genStmt body
  | .assign v e => store v (genExpr e)
  | .dim arrays =>
    arrays.forM fun a => do
      let line ← currentLabel
      let d : ArrayDim := ⟨a.name, ValueType.ofName a.name, a.sizes.length⟩
      match (← get).syms.declareArray d line with
      | .ok syms => modify fun g => { g with syms }
      | .error e => failHere (.shape e)
      let slot ← withSyms (·.arraySlot a.name)
      a.sizes.forM fun size => do
        genExpr size
        emitOp .f2i
      emit (.newArray slot.descriptor a.sizes.length)
      emit (.var .astore slot.index)
  | .forLoop var start limit step => genFor var start limit step
  | .next [] => genNextOne ""
  | .next vars => vars.forM genNextOne
  | .input prompt targets => do
    if !prompt.isEmpty then
      printConst prompt
      printConst "? "
    targets.forM fun v =>
      store v do
        this
        callRuntime ("input" ++ v.type.label) ("()" ++ v.type.descriptor)
  | .data values => do
    let n ← currentNumber
    modify fun g => { g with syms := g.syms.addData n values }
  | .read targets =>
    targets.forM fun v =>
      store v do
        this
        callRuntime ("read" ++ v.type.label) ("()" ++ v.type.descriptor)
  | .restore t => do
    emit (.restore (t.getD "") (← currentLabel))
  | .rem _ => pure ()
  | .finish | .stop => emitOp .returnVoid

/-- The `Float.valueOf` boxing of a DATA number. -/
def boxFloat : Intent := .jdkCall .invokestatic "java/lang/Float" "valueOf" "(F)Ljava/lang/Float;"

/-- Queue the prologue: the DATA pool and a first value for every slot. -/
def genPrologue (defaultArraySize : Int) : GenM Unit := do
  let syms := (← get).syms
  if !syms.data.isEmpty then
    this
    push (.int syms.data.size)
    emit (.newObjects "java/lang/Object")
    for (v, i) in syms.data.toList.zipIdx do
      emitOp .dup
      push (.int i)
      match v with
      | .number x =>
        push (.float x)
        emit boxFloat
      | .text s => push (.string s)
      emitOp .aastore
    emit (.runtimeField .putfield "data" "[Ljava/lang/Object;")
  for slot in syms.slots.toList do
    match slot.array with
    | some d =>
      let dimmed := ((syms.arrayInfo slot.key).map (·.dimmed)).getD false
      let size : Int := if dimmed then 0 else defaultArraySize
      for _ in List.range d.dims do push (.int size)
      emit (.newArray slot.descriptor d.dims)
      emit (.var .astore slot.index)
    | none =>
      if slot.type == .text then
        push (.string "")
        emit (.var .astore slot.index)
      else
        push (.float ⟨0⟩)
        emit (.var .fstore slot.index)

/-- The plan of the `run` method: the prologue, the body and the symbol table. -/
structure Plan where
  prologue : List Intent
  body : List Intent
  syms : Symbols
  deriving Inhabited

/-- A signed 32-bit number from an integer, wrapping. -/
def toInt32 (n : Int) : Int :=
  let m := n % 2 ^ (32 : Nat)
  if m < 2 ^ (31 : Nat) then m else m - 2 ^ (32 : Nat)

/-- The body code of every line, then the final label and `return`. -/
def genProgram (p : Program) : GenM Unit := do
  for line in p.lines do
    modify fun g => { g with line := some (line.label, line.number) }
    emit (.line line.label)
    line.stmts.forM genStmt
  modify fun g => { g with line := none }
  emit (.label endLabel)
  emitOp .returnVoid

/-- The first pass over a program, and its log record. -/
def generate (p : Program) (opts : GenOptions) : Except CodeGenError (Plan × Log.Record) := do
  let size := toInt32 (if opts.defaultArraySize ≤ 0 then 10 else opts.defaultArraySize)
  let ((), g) ← (genProgram p).run ⟨Symbols.ofProgram p, #[], none⟩
  if let some info := g.syms.undimmedArray then
    throw ⟨info.label, .undimmed info.dim.name info.dim.dims⟩
  let body := g.out.toList
  let ((), g) ← (genPrologue size).run { g with out := #[] }
  let syms := g.syms
  let record : Log.Record := ⟨.debug, "Planned program",
    [("lines", .int p.lines.length), ("slots", .int syms.slots.size), ("intents", .int body.length),
     ("data", .int syms.data.size), ("targets", .int syms.liveTargets.length)]⟩
  pure (⟨g.out.toList, body, syms⟩, record)

/-- The plan written one intent per line: the prologue, then the body with line starts and
labels flush left. -/
def Plan.dump (p : Plan) : String :=
  "; prologue\n" ++ String.join (p.prologue.map fun i => "  " ++ i.text ++ "\n") ++
  "; body\n" ++
  String.join (p.body.map fun i => (if i.isMark then "" else "  ") ++ i.text ++ "\n")

end BasicJvm.Compiler
