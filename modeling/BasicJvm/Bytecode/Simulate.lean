import BasicJvm.Bytecode.Instr
import BasicJvm.Bytecode.Types

/-!
# Dataflow simulation

Before anything is encoded, the assembler runs the verifier's type checker over the
symbolic code.  A *frame* is the types of the locals and of the operand stack at one
instruction.  The simulation starts at instruction 0 with the entry frame and follows
every path: each instruction's frame is the first one that reaches it, and any later path
must bring an equal frame (trailing `top` locals aside), or the code is refused with a
merge error.  The instructions reached are kept, the others dropped.

Pending instructions are kept on a stack, the most recently reached first.  Along the way
the simulation records the deepest stack and the highest local slot written.

Subroutines are checked without `jsr`: a `gosub` registers a *return site* (its key, its
return label and its frame) and jumps with the key pushed; a `dispatch` pops the key and
returns to every site whose frame equals its own.  A site registered later makes every
dispatch seen so far run again.  A `dispatch` reached with an empty stack has no `gosub`
leading to it.
-/

-- Sums start from the core zero also where an algebra library is loaded, so that the
-- definitions below elaborate to the same terms in every build.
attribute [local instance (high)] Zero.ofOfNat0

namespace BasicJvm.Bytecode

/-- The types of the locals and of the operand stack at one point of the code. -/
structure Frame where
  locals : List VType
  /-- The operand stack, top first. -/
  stack : List VType
  deriving DecidableEq, Repr, Inhabited

/-- Types without their trailing `top`s. -/
def trimTop (ts : List VType) : List VType :=
  (ts.reverse.dropWhile (· == .top)).reverse

/-- Whether two frames agree: the same locals up to trailing `top`s, the same stack. -/
def Frame.agrees (f g : Frame) : Bool :=
  trimTop f.locals == trimTop g.locals && f.stack == g.stack

/-- Types written as a bracketed, space-separated list. -/
def typesText (ts : List VType) : String :=
  "[" ++ " ".intercalate (ts.map VType.name) ++ "]"

/-- How a frame is written in messages: locals, then the stack from the bottom. -/
def Frame.text (f : Frame) : String :=
  "locals " ++ typesText (trimTop f.locals) ++ " stack " ++ typesText f.stack.reverse

/-- The stack depth in slots. -/
def Frame.depth (f : Frame) : Nat := (f.stack.map VType.size).sum

/-- The type of a local slot; `top` when unset. -/
def Frame.localType (f : Frame) (i : Int) : VType :=
  if i < 0 then .top else f.locals.getD i.toNat .top

/-- The frame with a local slot set, the locals extended with `top` up to it. -/
def Frame.setLocal (f : Frame) (i : Nat) (t : VType) : Frame :=
  let padded := f.locals ++ List.replicate (i + 1 - f.locals.length) .top
  { f with locals := padded.set i t }

/-- Why one instruction does not check. -/
inductive StepProblem where
  | fallsOff
  | undefinedLabel (l : Label)
  | siteConflict (key : Int) (first second : Label)
  | underflow
  | expected (want found : VType)
  | expectedRef (found : VType)
  | noConstant
  | localHolds (slot : Int) (t : VType)
  | descriptor (e : DescriptorError)
  | wrongArray (op : Opcode) (arr : VType)
  | twoSlot (what : String)
  | keysTargets (keys targets : Nat)
  | argument (index : Nat) (ref : Ref) (inner : StepProblem)
  | receiver (ref : Ref) (inner : StepProblem)
  | newarrayType (code : Int)
  | dimensions (dims : Int) (cls : String)
  | unsupported (op : Opcode)
  deriving DecidableEq, Repr

/-- The message of a step problem. -/
def StepProblem.message : StepProblem → String
  | .fallsOff => "execution falls off the end of the method"
  | .undefinedLabel l => "undefined label " ++ labelText l
  | .siteConflict key a b =>
    "return-site key " ++ toString key ++ " used by " ++ labelText a ++ " and " ++ labelText b
  | .underflow => "operand stack underflow"
  | .expected want found => "expected " ++ want.name ++ " on stack, found " ++ found.name
  | .expectedRef found => "expected a reference on stack, found " ++ found.name
  | .noConstant => "unsupported constant <nil>"
  | .localHolds slot t => "local " ++ toString slot ++ " holds " ++ t.name
  | .descriptor e => e.message
  | .wrongArray op arr => op.name ++ " on " ++ arr.name
  | .twoSlot what => what ++ " of a two-slot value"
  | .keysTargets k t => toString k ++ " keys for " ++ toString t ++ " targets"
  | .argument j ref inner => "argument " ++ toString j ++ " of " ++ ref.text ++ ": " ++ inner.message
  | .receiver ref inner => "receiver of " ++ ref.text ++ ": " ++ inner.message
  | .newarrayType code => "unsupported newarray type " ++ toString code
  | .dimensions dims cls => toString dims ++ " dimensions for " ++ cls
  | .unsupported op => "unsupported instruction " ++ op.name

/-- Why code does not check. -/
inductive FlowError where
  | emptyBody
  | duplicateLabel (l : Label)
  /-- A label reached with two different frames. -/
  | merge (l : Label) (held got : String)
  /-- A `dispatch` reached with nothing on the stack. -/
  | unmatchedReturn (dflt : Label)
  /-- A problem with the instruction at an index. -/
  | step (index : Nat) (text : String) (problem : StepProblem)
  /-- The simulation did not settle within its bound. -/
  | unsettled
  deriving DecidableEq, Repr

/-- The message of a flow error. -/
def FlowError.message : FlowError → String
  | .emptyBody => "empty method body"
  | .duplicateLabel l => "label " ++ labelText l ++ " placed twice"
  | .merge l held got => "inconsistent frames at " ++ labelText l ++ ": " ++ held ++ " vs " ++ got
  | .unmatchedReturn dflt => "dispatch " ++ labelText dflt ++ " reached without a gosub"
  | .step i text p => "instruction " ++ toString i ++ " (" ++ text ++ "): " ++ p.message
  | .unsettled => "simulation did not settle"

/-- A return site: the key a `gosub` pushes, its return label, and its frame. -/
structure Site where
  key : Int
  ret : Label
  frame : Frame
  deriving DecidableEq, Repr, Inhabited

/-- The state of the simulation. -/
structure Simulation where
  code : Array Instr
  labels : List (Label × Nat)
  /-- The frame each instruction is first reached with. -/
  incoming : Array (Option Frame)
  /-- The return sites, in the order they were registered. -/
  sites : List Site
  /-- The dispatches stepped so far, in the order first stepped. -/
  dispatches : List Nat
  /-- For each dispatch, the sites it returned to when last stepped. -/
  matched : Array (Option (List Site))
  maxStack : Nat
  maxLocals : Nat
  /-- Instructions still to step, the next one first. -/
  work : List Nat
  deriving Inhabited

/-- What a step can end with besides success. -/
inductive StepError where
  | merge (l : Label) (held got : String)
  | unmatchedReturn (dflt : Label)
  | problem (p : StepProblem)

/-- Stepping one instruction. -/
abbrev StepM := StateT Simulation (Except StepError)

/-- Fail with a step problem. -/
def fail {α : Type} (p : StepProblem) : StepM α := throw (.problem p)

/-- Bring frame `f` to instruction `target`. -/
def flow (target : Nat) (f : Frame) : StepM Unit := do
  let s ← get
  if s.code.size ≤ target then fail .fallsOff
  match s.incoming.getD target none with
  | some cur =>
    if !cur.agrees f then
      let l := match s.code.getD target default with
        | .label l => l
        | _ => 0
      throw (.merge l cur.text f.text)
  | none =>
    set { s with incoming := s.incoming.set! target (some f), work := target :: s.work }

/-- Bring frame `f` to a label. -/
def jump (l : Label) (f : Frame) : StepM Unit := do
  match (← get).labels.lookup l with
  | some i => flow i f
  | none => fail (.undefinedLabel l)

/-- Register a return site; a new one makes every dispatch seen so far run again. -/
def addSite (key : Int) (ret : Label) (f : Frame) : StepM Unit := do
  let s ← get
  match s.sites.find? (·.key == key) with
  | some st => if st.ret != ret then fail (.siteConflict key st.ret ret)
  | none =>
    set { s with sites := s.sites ++ [Site.mk key ret f], work := s.dispatches.reverse ++ s.work }

/-- The top of the stack, popped. -/
def pop (f : Frame) : Except StepProblem (VType × Frame) :=
  match f.stack with
  | t :: rest => .ok (t, { f with stack := rest })
  | [] => .error .underflow

/-- The top of the stack, popped, which must be of the given primitive type. -/
def popKind (want : VType) (f : Frame) : Except StepProblem (VType × Frame) := do
  let (t, f) ← pop f
  if t != want then throw (.expected want t)
  pure (t, f)

/-- The top of the stack, popped, which must be a reference. -/
def popRef (f : Frame) : Except StepProblem (VType × Frame) := do
  let (t, f) ← pop f
  if !t.isRef then throw (.expectedRef t)
  pure (t, f)

/-- A value of type `want` popped: any reference for a reference type. -/
def popType (want : VType) (f : Frame) : Except StepProblem Frame :=
  if want.isRef then Prod.snd <$> popRef f else Prod.snd <$> popKind want f

/-- Pop `n` values of a primitive type. -/
def popN (want : VType) : Nat → Frame → Except StepProblem Frame
  | 0, f => .ok f
  | n + 1, f => do
    let (_, f) ← popKind want f
    popN want n f

/-- The frame with a value pushed. -/
def Frame.push (f : Frame) (t : VType) : Frame := { f with stack := t :: f.stack }

/-- Lift a frame computation into a step. -/
def lift {α : Type} (x : Except StepProblem α) : StepM α :=
  match x with
  | .ok a => pure a
  | .error p => fail p

/-- The arguments of a method popped, last first; the problem names the argument. -/
def popArguments (ref : Ref) : List (Nat × VType) → Frame → Except StepProblem Frame
  | [], f => .ok f
  | (j, t) :: rest, f =>
    match popType t f with
    | .ok f => popArguments ref rest f
    | .error p => .error (.argument j ref p)

/-- The type a conversion pops and the one it pushes. -/
def conversion : Opcode → VType × VType
  | .i2f => (.int, .float)
  | .f2i => (.float, .int)
  | .f2d => (.float, .double)
  | .d2f => (.double, .float)
  | _ => (.int, .int)

/-- The number of `[` in a descriptor. -/
def bracketCount (s : String) : Nat := (s.toList.filter (· == '[')).length

/-- What an instruction does to the frame: the frame after it, the labels it may jump to
with that frame, and whether execution may go on to the next instruction. -/
structure Transfer where
  frame : Frame
  targets : List Label
  next : Bool

/-- The frame an instruction leaves, where it may go, or the problem that stops it.  A
`gosub` pushes its key and jumps; a `dispatch` pops the key, and where it returns to is the
simulation's business (`dispatchAt`). -/
def transfer (instr : Instr) (f : Frame) : Except StepProblem Transfer :=
  match instr with
  | .label _ | .plain .nop => pure ⟨f, [], true⟩
  | .plain .aconstNull => pure ⟨f.push .null, [], true⟩
  | .plain .iconstM1 | .plain .iconst0 | .plain .iconst1 | .plain .iconst2
  | .plain .iconst3 | .plain .iconst4 | .plain .iconst5 => pure ⟨f.push .int, [], true⟩
  | .imm .bipush _ | .imm .sipush _ => pure ⟨f.push .int, [], true⟩
  | .plain .fconst0 | .plain .fconst1 | .plain .fconst2 => pure ⟨f.push .float, [], true⟩
  | .ldc (.float _) => pure ⟨f.push .float, [], true⟩
  | .ldc (.int _) => pure ⟨f.push .int, [], true⟩
  | .ldc (.string _) => pure ⟨f.push (.object "java/lang/String"), [], true⟩
  | .plain .ldc | .plain .ldcW => throw .noConstant
  | .var op slot =>
    match op with
    | .iload | .fload | .aload => do
      let t := f.localType slot
      let ok := (op == .iload && t == .int) || (op == .fload && t == .float) ||
        (op == .aload && t.isRef)
      if !ok then throw (.localHolds slot t)
      pure ⟨f.push t, [], true⟩
    | _ => do
      let (t, f) ← match op with
        | .istore => popKind .int f
        | .fstore => popKind .float f
        | _ => popRef f
      pure ⟨f.setLocal slot.toNat t, [], true⟩
  | .plain .faload | .plain .aaload => do
    let op := instr.opcode
    let (_, f) ← popKind .int f
    let (arr, f) ← popRef f
    let elem ← arr.element.mapError .descriptor
    if (op == .faload) != (elem == .float) then throw (.wrongArray op arr)
    pure ⟨f.push elem, [], true⟩
  | .plain .fastore | .plain .aastore => do
    let (_, f) ← if instr.opcode == .fastore then popKind .float f else popRef f
    let (_, f) ← popKind .int f
    let (_, f) ← popRef f
    pure ⟨f, [], true⟩
  | .plain .pop => do
    let (t, f) ← pop f
    if t.size != 1 then throw (.twoSlot "pop")
    pure ⟨f, [], true⟩
  | .plain .dup => do
    let (t, f) ← pop f
    if t.size != 1 then throw (.twoSlot "dup")
    pure ⟨(f.push t).push t, [], true⟩
  | .plain .swap => do
    let (a, f) ← pop f
    let (b, f) ← pop f
    if a.size != 1 || b.size != 1 then throw (.twoSlot "swap")
    pure ⟨(f.push a).push b, [], true⟩
  | .plain .iadd | .plain .isub => do
    let f ← popN .int 2 f
    pure ⟨f.push .int, [], true⟩
  | .plain .fadd | .plain .fsub | .plain .fmul | .plain .fdiv => do
    let f ← popN .float 2 f
    pure ⟨f.push .float, [], true⟩
  | .plain .fneg => do
    let f ← popN .float 1 f
    pure ⟨f.push .float, [], true⟩
  | .plain .i2f | .plain .f2i | .plain .f2d | .plain .d2f | .plain .i2c => do
    let (src, dst) := conversion instr.opcode
    let (_, f) ← popKind src f
    pure ⟨f.push dst, [], true⟩
  | .plain .fcmpl | .plain .fcmpg => do
    let f ← popN .float 2 f
    pure ⟨f.push .int, [], true⟩
  | .jump op target =>
    if op == .goto then pure ⟨f, [target], false⟩
    else do
      let f ← popN .int (if op.code ≤ 0x9e then 1 else 2) f
      pure ⟨f, [target], true⟩
  | .tableSwitch _ dflt targets => do
    let f ← popN .int 1 f
    pure ⟨f, dflt :: targets, false⟩
  | .lookupSwitch dflt keys targets => do
    let f ← popN .int 1 f
    if keys.length != targets.length then throw (.keysTargets keys.length targets.length)
    pure ⟨f, dflt :: targets, false⟩
  | .plain .returnVoid => pure ⟨f, [], false⟩
  | .member op ref =>
    match op with
    | .getfield | .putfield => do
      let t ← (fieldType ref.desc).mapError .descriptor
      let f ← if op == .putfield then popType t f else pure f
      let (_, f) ← popRef f
      pure ⟨if op == .getfield then f.push t else f, [], true⟩
    | _ => do
      let (args, ret) ← (methodType ref.desc).mapError .descriptor
      let f ← popArguments ref (args.zipIdx.map (fun (t, j) => (j, t))).reverse f
      let f ← if op != .invokestatic then
          (popRef f).map Prod.snd |>.mapError (.receiver ref)
        else pure f
      pure ⟨match ret with
        | some t => f.push t
        | none => f, [], true⟩
  | .imm .newarray code => do
    let f ← popN .int 1 f
    if code != floatArrayType then throw (.newarrayType code)
    pure ⟨f.push (.object "[F"), [], true⟩
  | .typed .anewarray cls => do
    let f ← popN .int 1 f
    pure ⟨f.push (arrayOf cls), [], true⟩
  | .plain .arraylength => do
    let (_, f) ← popRef f
    pure ⟨f.push .int, [], true⟩
  | .multiArray cls dims => do
    if dims < 1 || dims > bracketCount cls then throw (.dimensions dims cls)
    let f ← popN .int dims.toNat f
    pure ⟨f.push (.object cls), [], true⟩
  | .gosub _ target _ => pure ⟨f.push .int, [target], false⟩
  | _ => throw (.unsupported instr.opcode)

/-- The slot an instruction stores into, if it is a store. -/
def Instr.storedSlot? : Instr → Option Nat
  | .var .iload _ | .var .fload _ | .var .aload _ => none
  | .var _ slot => some slot.toNat
  | _ => none

/-- Record the deepest stack seen. -/
def noteDepth (f : Frame) : StepM Unit :=
  modify fun s => { s with maxStack := max s.maxStack f.depth }

/-- Step a `dispatch` reached with frame `f0`: pop the key, record the dispatch, and return
to every site whose frame agrees with the frame after the pop, then to `dflt`. -/
def dispatchAt (i : Nat) (dflt : Label) (f0 : Frame) : StepM Unit := do
  if f0.stack.isEmpty then throw (.unmatchedReturn dflt)
  let f ← lift (popN .int 1 f0)
  modify fun s =>
    if (s.matched.getD i none).isNone then { s with dispatches := s.dispatches ++ [i] } else s
  let matched := (← get).sites.filter (·.frame.agrees f)
  matched.forM fun st => jump st.ret f
  modify fun s => { s with matched := s.matched.set! i (some matched) }
  jump dflt f
  noteDepth f

/-- Register the return site of a `gosub`; other instructions have none. -/
def siteOf (instr : Instr) (f0 : Frame) : StepM Unit :=
  match instr with
  | .gosub key _ ret => addSite key ret f0
  | _ => pure ()

/-- Record the highest local slot a store writes. -/
def noteStore (instr : Instr) : StepM Unit :=
  match instr.storedSlot? with
  | some slot => modify fun s => { s with maxLocals := max s.maxLocals (slot + 1) }
  | none => pure ()

/-- Bring the frame after the instruction at `i` to every label it may jump to, then to the
next instruction if it may go on. -/
def follow (i : Nat) (t : Transfer) : StepM Unit := do
  t.targets.forM fun l => jump l t.frame
  noteDepth t.frame
  if t.next then flow (i + 1) t.frame

/-- Step the instruction at index `i`, reached with frame `f0`. -/
def stepAt (i : Nat) (f0 : Frame) : StepM Unit := do
  let instr := (← get).code.getD i default
  noteDepth f0
  match instr with
  | .dispatch dflt => dispatchAt i dflt f0
  | _ => do
    siteOf instr f0
    let t ← lift (transfer instr f0)
    noteStore instr
    follow i t

/-- Step pending instructions until none is left, at most `fuel` of them. -/
def settle : Nat → Simulation → Except FlowError Simulation
  | 0, _ => .error .unsettled
  | fuel + 1, s =>
    match s.work with
    | [] => .ok s
    | i :: rest =>
      let s := { s with work := rest }
      let instr := s.code.getD i default
      match s.incoming.getD i none with
      | none => settle fuel s
      | some f =>
        match (stepAt i f).run s with
        | .ok ((), s) => settle fuel s
        | .error (.merge l held got) => .error (.merge l held got)
        | .error (.unmatchedReturn dflt) => .error (.unmatchedReturn dflt)
        | .error (.problem p) => .error (.step i instr.text p)

/-- The labels of the code and their indexes; a label may be placed once. -/
def labelIndexes (code : List Instr) : Except FlowError (List (Label × Nat)) :=
  code.zipIdx.foldlM (fun acc (instr, i) =>
    match instr with
    | .label l => if (acc.lookup l).isSome then .error (.duplicateLabel l) else .ok (acc ++ [(l, i)])
    | _ => .ok acc) []

/-- Simulate code from the entry frame. -/
def simulate (code : List Instr) (entry : Frame) : Except FlowError Simulation := do
  if code.isEmpty then throw .emptyBody
  let labels ← labelIndexes code
  let n := code.length
  let s : Simulation := ⟨code.toArray, labels, Array.replicate n none, [], [],
    Array.replicate n none, 0, entry.locals.length, []⟩
  let s := { s with incoming := s.incoming.set! 0 (some entry), work := [0] }
  settle ((n + 1) * (n + 1) + 1) s

end BasicJvm.Bytecode
