import BasicJvm.Syntax.Ast
import BasicJvm.Bytecode.Instr

/-!
# The symbol table of a compilation

Everything the code generator learns about a program while it walks it:

* **Branch labels.**  Labels are numbered from 1 in the order they are made; each belongs
  to the program line being compiled when it was made (label 1, the final `return`, to
  none).
* **Line targets.**  A line gets a label the first time a jump refers to it; only lines
  that something jumps to get their label placed.
* **Slots.**  Local slot 0 holds the program object; every variable gets the next slot
  the first time it is met.  Arrays and scalars of the same name are different variables
  (the array's key ends in `()`), and each `FOR` loop has two hidden slots for its limit
  and its step.
* **Arrays.**  The shape of an array is fixed by its first use or its `DIM`, whichever
  comes first; later uses must agree, and an array may be dimensioned once.
* **The DATA pool.**  The constants of all `DATA` statements in line order, with the pool
  offset where each `DATA` line starts, for `RESTORE`.
* **GOSUB sites**, numbered from 0, and the stack of open `FOR` loops.
-/

-- Powers use the core `NatPow` instance also where an algebra library is loaded, so that
-- the definitions below elaborate to the same terms in every build.
attribute [local instance (high)] instPowNat

namespace BasicJvm.Compiler

open BasicJvm.Syntax
open BasicJvm.Bytecode

/-- An array's name, element type and number of dimensions. -/
structure ArrayDim where
  name : String
  type : ValueType
  dims : Nat
  deriving DecidableEq, Repr, Inhabited

/-- The JVM descriptor of an array: one `[` per dimension, then the element type. -/
def ArrayDim.descriptor (d : ArrayDim) : String :=
  String.ofList (List.replicate d.dims '[') ++ d.type.descriptor

/-- A local slot holding one variable. -/
structure Slot where
  index : Nat
  key : String
  type : ValueType
  /-- The shape, for an array. -/
  array : Option ArrayDim
  /-- Whether the slot is loop bookkeeping rather than a variable of the program. -/
  hidden : Bool
  deriving DecidableEq, Repr, Inhabited

/-- The JVM type of a slot's contents. -/
def Slot.descriptor (s : Slot) : String :=
  match s.array with
  | some d => d.descriptor
  | none => s.type.descriptor

/-- A program line in the line index. -/
structure LineEntry where
  number : Nat
  label : String
  /-- Its branch label, 0 until something refers to it. -/
  target : Label
  referenced : Bool
  deriving DecidableEq, Repr, Inhabited

/-- The registered shape of an array. -/
structure ArrayInfo where
  dim : ArrayDim
  /-- Whether a `DIM` declared it. -/
  dimmed : Bool
  /-- The line where its shape was last fixed. -/
  label : String
  deriving DecidableEq, Repr, Inhabited

/-- A `FOR` loop not closed yet. -/
structure OpenLoop where
  id : Nat
  var : String
  body : Label
  label : String
  deriving DecidableEq, Repr, Inhabited

/-- The symbol table. -/
structure Symbols where
  /-- The number of labels made so far. -/
  labelCount : Nat
  /-- The line of each label, label `l` at position `l - 1`. -/
  owners : Array String
  /-- The slots in allocation order; slot `i` at position `i - 1`. -/
  slots : Array Slot
  /-- The program lines, by increasing number. -/
  lines : Array LineEntry
  /-- The arrays by key, in registration order. -/
  arrays : List (String × ArrayInfo)
  data : Array DataValue
  /-- The pool offset of the first constant of each DATA line, by increasing line. -/
  marks : List (Nat × Nat)
  sites : Nat
  loops : List OpenLoop
  forCount : Nat
  deriving Inhabited

/-- A fresh label belonging to a line. -/
def Symbols.newLabel (s : Symbols) (line : String) : Symbols × Label :=
  let l := s.labelCount + 1
  ({ s with labelCount := l, owners := s.owners.push line }, l)

/-- The line a label belongs to; none for labels not made here. -/
def Symbols.labelLine (s : Symbols) (l : Label) : String :=
  if l ≤ 0 then "" else s.owners.getD (l.toNat - 1) ""

/-- The symbol table of a program: its lines known, and the final label made. -/
def Symbols.ofProgram (p : Program) : Symbols :=
  let lines := p.lines.toArray.map fun l => (⟨l.number, l.label, 0, false⟩ : LineEntry)
  let s : Symbols := ⟨0, #[], #[], lines, [], #[], [], 0, [], 0⟩
  (s.newLabel "").1

/-- The label of the final `return`. -/
def endLabel : Label := 1

/-- The position of the line with a number, if there is one. -/
def Symbols.lineIndex (s : Symbols) (number : Nat) : Option Nat :=
  s.lines.findIdx? (·.number == number)

/-- The branch label of the line at a position, made on first reference; the line is
marked as referenced. -/
def Symbols.reference (s : Symbols) (i : Nat) : Symbols × Label :=
  let e := s.lines.getD i default
  let (s, target) := if e.target == 0 then s.newLabel e.label else (s, e.target)
  ({ s with lines := s.lines.set! i { e with target, referenced := true } }, target)

/-- The branch label of a line, which is then live. -/
def Symbols.lineTarget (s : Symbols) (label : String) : Option (Symbols × Label) :=
  match decimalValue? label with
  | none => none
  | some n => (s.lineIndex n).map s.reference

/-- The branch label of the first line numbered at least `number + 1`, or the final label
when there is none.  Line numbers are signed 64-bit numbers, so after the largest one,
`2 ^ 63 - 1`, the bound wraps to the least and the first line is found. -/
def Symbols.nextLineTarget (s : Symbols) (number : Nat) : Symbols × Label :=
  let wraps := number + 1 == 2 ^ (63 : Nat)
  match s.lines.findIdx? (fun e => wraps || number < e.number) with
  | some i => s.reference i
  | none => (s, endLabel)

/-- The label to place at the start of a line, if anything jumps there. -/
def Symbols.placedTarget (s : Symbols) (label : String) : Option Label :=
  match decimalValue? label with
  | none => none
  | some n =>
    match s.lineIndex n with
    | some i =>
      let e := s.lines.getD i default
      if e.referenced then some e.target else none
    | none => none

/-- The labels of the lines something jumps to, in line order. -/
def Symbols.liveTargets (s : Symbols) : List String :=
  (s.lines.toList.filter (·.referenced)).map (·.label)

/-- The slot with a key, if allocated. -/
def Symbols.slotOf (s : Symbols) (key : String) : Option Slot :=
  s.slots.find? (·.key == key)

/-- The slot with a key, allocated with the given type and shape when new. -/
def Symbols.allocate (s : Symbols) (key : String) (t : ValueType) (array : Option ArrayDim)
    (hidden : Bool) : Symbols × Slot :=
  match s.slotOf key with
  | some slot => (s, slot)
  | none =>
    let slot : Slot := ⟨s.slots.size + 1, key, t, array, hidden⟩
    ({ s with slots := s.slots.push slot }, slot)

/-- The slot of a scalar variable. -/
def Symbols.scalarSlot (s : Symbols) (name : String) : Symbols × Slot :=
  s.allocate name (ValueType.ofName name) none false

/-- The registered shape of an array, by key. -/
def Symbols.arrayInfo (s : Symbols) (key : String) : Option ArrayInfo :=
  s.arrays.lookup key

/-- The slot of a registered array. -/
def Symbols.arraySlot (s : Symbols) (name : String) : Symbols × Slot :=
  let key := name ++ "()"
  let dim := ((s.arrayInfo key).map (·.dim)).getD ⟨name, ValueType.ofName name, 0⟩
  s.allocate key dim.type (some dim) false

/-- Why an array's shape is refused. -/
inductive ShapeError where
  | dimmedOtherwise (name : String) (had used : Nat)
  | usedOtherwise (name : String) (had : Nat) (line : String) (used : Nat)
  | alreadyDimmed (name line : String)
  | dimmedAfterUse (name : String) (had : Nat) (line : String) (dimmed : Nat)
  deriving DecidableEq, Repr

/-- The message of a shape problem. -/
def ShapeError.message : ShapeError → String
  | .dimmedOtherwise name had used =>
    name ++ " was dimensioned with " ++ toString had ++ " dimensions but is used with " ++
      toString used
  | .usedOtherwise name had line used =>
    name ++ " is used with " ++ toString had ++ " dimensions at line " ++ line ++ " and " ++
      toString used ++ " here"
  | .alreadyDimmed name line => name ++ " is already dimensioned at line " ++ line
  | .dimmedAfterUse name had line dimmed =>
    name ++ " is used with " ++ toString had ++ " dimensions at line " ++ line ++
      " but dimensioned with " ++ toString dimmed

/-- Replace the value of a key in an association list. -/
def updateEntry {α : Type} (entries : List (String × α)) (key : String) (v : α) :
    List (String × α) :=
  entries.map fun (k, x) => if k == key then (k, v) else (k, x)

/-- Register a use of an array with the given shape. -/
def Symbols.useArray (s : Symbols) (d : ArrayDim) (line : String) : Except ShapeError Symbols :=
  let key := d.name ++ "()"
  match s.arrayInfo key with
  | none => .ok { s with arrays := s.arrays ++ [(key, ⟨d, false, line⟩)] }
  | some info =>
    if info.dim.dims != d.dims then
      if info.dimmed then .error (.dimmedOtherwise d.name info.dim.dims d.dims)
      else .error (.usedOtherwise d.name info.dim.dims info.label d.dims)
    else .ok s

/-- Register a `DIM` of an array. -/
def Symbols.declareArray (s : Symbols) (d : ArrayDim) (line : String) :
    Except ShapeError Symbols :=
  let key := d.name ++ "()"
  match s.arrayInfo key with
  | none => .ok { s with arrays := s.arrays ++ [(key, ⟨d, true, line⟩)] }
  | some info =>
    if info.dimmed then .error (.alreadyDimmed d.name info.label)
    else if info.dim.dims != d.dims then
      .error (.dimmedAfterUse d.name info.dim.dims info.label d.dims)
    else .ok { s with arrays := updateEntry s.arrays key { info with dimmed := true, label := line } }

/-- The first registered array of more than one dimension that was never dimensioned. -/
def Symbols.undimmedArray (s : Symbols) : Option ArrayInfo :=
  (s.arrays.map Prod.snd).find? fun info => !info.dimmed && info.dim.dims != 1

/-- Insert a mark into a list sorted by line, unless the line has one already. -/
def insertMark (number offset : Nat) : List (Nat × Nat) → List (Nat × Nat)
  | [] => [(number, offset)]
  | (n, o) :: rest =>
    if n == number then (n, o) :: rest
    else if number < n then (number, offset) :: (n, o) :: rest
    else (n, o) :: insertMark number offset rest

/-- Append the constants of a `DATA` statement of line `number` to the pool. -/
def Symbols.addData (s : Symbols) (number : Nat) (values : List DataValue) : Symbols :=
  { s with marks := insertMark number s.data.size s.marks, data := s.data ++ values.toArray }

/-- Why a `RESTORE` target has no pool offset. -/
inductive RestoreError where
  | invalidLine (label : String)
  | noData (label : String)
  deriving DecidableEq, Repr

/-- The message of a `RESTORE` problem. -/
def RestoreError.message : RestoreError → String
  | .invalidLine label => "invalid line " ++ Text.quote label
  | .noData label => "no DATA at or after line " ++ label

/-- The pool offset of the first `DATA` at or after a line; the start of the pool for no
line. -/
def Symbols.dataOffset (s : Symbols) (label : String) : Except RestoreError Nat :=
  if label.isEmpty then .ok 0 else
  match decimalValue? label with
  | none => .error (.invalidLine label)
  | some n =>
    match s.marks.find? (·.1 ≥ n) with
    | some (_, offset) => .ok offset
    | none => .error (.noData label)

/-- The next GOSUB site number. -/
def Symbols.nextReturnSite (s : Symbols) : Symbols × Nat :=
  ({ s with sites := s.sites + 1 }, s.sites)

/-- Open a `FOR` loop; its number is returned. -/
def Symbols.pushLoop (s : Symbols) (v : String) (body : Label) (line : String) : Symbols × Nat :=
  let id := s.forCount + 1
  ({ s with forCount := id, loops := s.loops ++ [⟨id, v, body, line⟩] }, id)

/-- Why a `NEXT` closes no loop. -/
inductive LoopError where
  | noLoop
  | noLoopFor (v : String)
  deriving DecidableEq, Repr

/-- The message of a `NEXT` problem. -/
def LoopError.message : LoopError → String
  | .noLoop => "NEXT without FOR"
  | .noLoopFor v => "NEXT " ++ v ++ " without FOR " ++ v

/-- Close the innermost loop, or with a name the innermost loop over that variable,
wherever it is in the stack. -/
def Symbols.popLoop (s : Symbols) (v : String) : Except LoopError (Symbols × OpenLoop) :=
  if s.loops.isEmpty then .error .noLoop else
  let found : Option Nat :=
    if v.isEmpty then some (s.loops.length - 1)
    else
      match (s.loops.reverse.findIdx? (·.var == v)) with
      | some j => some (s.loops.length - 1 - j)
      | none => none
  match found with
  | none => .error (.noLoopFor v)
  | some i => .ok ({ s with loops := s.loops.eraseIdx i }, s.loops.getD i default)

/-- The variables of the loops never closed, innermost last. -/
def Symbols.openLoops (s : Symbols) : List String := s.loops.map (·.var)

/-- The key of a hidden loop slot. -/
def forSlotKey (kind : String) (id : Nat) : String := "#FOR#" ++ kind ++ "#" ++ toString id

end BasicJvm.Compiler
