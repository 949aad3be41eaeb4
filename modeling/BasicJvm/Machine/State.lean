import BasicJvm.Machine.Method
import BasicJvm.Machine.Random
import BasicJvm.Log.Record

/-!
# The state of a run

A `Machine` is everything a run changes: the activations of methods (innermost first), the
heap of arrays, the DATA pool with its read pointer, the other fields of the program object,
the output so far with the column where the next character goes, the random source with its
last draw, the count of executed instructions, the answer lines not yet read, and the log.
It also holds what a run does not change: the loaded class and the settings.

`Exec` is a computation on a machine that may stop with a fault; the machine as it was when
the fault happened is kept, so that the output printed before a fault is not lost.

The answers to `INPUT` are lines of a text: it is split at each newline, a final empty piece
is no line, and carriage returns at the end of a line are dropped (`answerLines`).  The reader
holds at most 65536 bytes at a time, so the answers stop at the first line of 65536 bytes or
more, and reading past them fails instead of meeting the end of the input.  Reading an answer
moves the output to column zero, as the answer's newline does on a terminal.
-/

namespace BasicJvm.Vm

open BasicJvm.ClassFile BasicJvm.Bytecode BasicJvm.Number

/-- The settings of a run. -/
structure Settings where
  /-- The width of a print zone, at least one. -/
  zoneWidth : Nat
  /-- The most instructions a run may execute; zero for no limit. -/
  maxSteps : Nat

/-- A class ready to run: the parsed class file with its own name and its superclass's. -/
structure Loaded where
  cf : ParsedClass
  name : String
  super : String

/-- One activation of a method. -/
structure Frame where
  method : Method
  /-- The index of the running instruction; for a caller, that of its call. -/
  pc : Nat
  /-- The operand stack, top first. -/
  stack : List Value
  locals : Array Value
  /-- Whether the caller takes a result when this activation returns. -/
  givesResult : Bool
  deriving Inhabited

/-- The answers to `INPUT` a text gives: the lines read one by one, and whether the reader
then stops at a line too long for its buffer rather than at the end of the text. -/
structure Answers where
  lines : List String
  tooLong : Bool

/-- The state of a run. -/
structure Machine where
  settings : Settings
  loaded : Loaded
  /-- The methods decoded so far, in the order of their first call. -/
  methods : Array Method
  /-- The activations, innermost first. -/
  frames : List Frame
  heap : Array Cells
  /-- The DATA pool: an object array. -/
  data : Value
  dataPtr : Int32
  /-- The other fields of the program object. -/
  fields : List (String × Value)
  column : Nat
  output : String
  random : Random
  lastDraw : Single
  steps : Nat
  /-- The answers not yet read; `none` when the run has no source of answers. -/
  input : Option Answers
  logs : Array Log.Record

/-- A computation on a machine that may stop with a fault. -/
abbrev Exec := ExceptT Fault (StateM Machine)

/-- Stop with a runtime error. -/
def trap {α : Type} (t : Trap) : Exec α := throw (.runtime t none)

/-- Stop with a misuse of operands. -/
def misuse {α : Type} (m : Misuse) : Exec α := trap (.invalidOperand m)

/-- Run a computation that may fail with a fault. -/
def lift {α : Type} : Except Fault α → Exec α
  | .ok a => pure a
  | .error e => throw e

/-- The most UTF-8 bytes of an answer line: the reader's buffer of 65536 bytes holds the line
and the newline after it. -/
def maxAnswerBytes : Nat := 65535

/-- The answers of a text. -/
def answerLines (text : String) : Answers :=
  let pieces := text.splitOn "\n"
  let pieces := if pieces.getLast? == some "" then pieces.dropLast else pieces
  let fits := pieces.takeWhile (·.utf8ByteSize ≤ maxAnswerBytes)
  ⟨fits.map fun s => String.ofList (s.toList.reverse.dropWhile (· == '\r')).reverse,
    fits.length < pieces.length⟩

/-! ## Methods -/

/-- The log record of a newly decoded method. -/
def decodedRecord (m : Method) : Log.Record :=
  ⟨.trace, "Decoded method", [("name", .text m.name), ("desc", .text m.desc),
    ("insns", .int m.code.size)]⟩

/-- A method of the loaded class, decoded on its first use.  Methods are known by their name
and descriptor written together. -/
def methodFor (name desc : String) : Exec Method := do
  let m ← get
  match m.methods.find? (fun x => x.name ++ x.desc == name ++ desc) with
  | some x => pure x
  | none =>
    let x ← lift (loadMethod m.loaded.cf name desc)
    modify fun m => { m with methods := m.methods.push x, logs := m.logs.push (decodedRecord x) }
    pure x

/-! ## The heap -/

/-- Place a new array on the heap. -/
def allocate (c : Cells) : Exec Nat :=
  modifyGet fun m => (m.heap.size, { m with heap := m.heap.push c })

/-- The elements of a float array. -/
def floatCells (ref : Nat) : Exec (Array Single) := do
  match (← get).heap[ref]? with
  | some (.floats xs) => pure xs
  | _ => pure #[]

/-- The elements of an object array; `none` stands for the array with no place. -/
def objectCells : Option Nat → Exec (Array Value)
  | none => pure #[]
  | some ref => do
    match (← get).heap[ref]? with
    | some (.objects xs) => pure xs
    | _ => pure #[]

/-- Change the elements of an array on the heap. -/
def updateCells (ref : Nat) (update : Cells → Cells) : Exec Unit :=
  modify fun m => { m with heap := m.heap.modify ref update }

/-- An array of `n` zeros. -/
def newFloats (n : Nat) : Exec Value := return .floats (← allocate (.floats (.replicate n Single.zero)))

/-- An array of `n` nulls. -/
def newObjects (n : Nat) : Exec Value :=
  return .objects (← allocate (.objects (.replicate n .null)))

/-! ## Output and answers -/

/-- The column after writing a text from a column: one further for each character, back to
zero at a newline. -/
def columnAfter (column : Nat) (s : String) : Nat :=
  s.foldl (fun c ch => if ch == '\n' then 0 else c + 1) column

/-- Write text to the output. -/
def emit (s : String) : Exec Unit :=
  modify fun m => { m with output := m.output ++ s, column := columnAfter m.column s }

/-- Read the next answer line. -/
def readAnswer : Exec String := do
  let m ← get
  match m.input with
  | none => trap .noInput
  | some ⟨[], false⟩ => trap .endOfInput
  | some ⟨[], true⟩ => throw .lineTooLong
  | some ⟨line :: rest, tooLong⟩ =>
    set { m with input := some ⟨rest, tooLong⟩, column := 0 }
    pure line

/-! ## Fields and the DATA pool -/

/-- The value of a field of the program object. -/
def getField (name : String) : Exec Value := do
  let m ← get
  if name == "data" then pure m.data
  else if name == "nextDataPtr" then pure (.int m.dataPtr)
  else pure ((m.fields.lookup name).getD .null)

/-- Set a field of the program object.  The DATA pool takes object arrays only (null makes
it the array with no place), and its pointer integers only. -/
def putField (name : String) (v : Value) : Exec Unit := do
  if name == "data" then
    match v with
    | .objects r => modify fun m => { m with data := .objects r }
    | .noObjects | .null => modify fun m => { m with data := .noObjects }
    | v => trap (.dataNotArray v.typeName)
  else if name == "nextDataPtr" then
    match v with
    | .int i => modify fun m => { m with dataPtr := i }
    | v => misuse (.wrongType v.typeName "int32")
  else
    modify fun m => { m with fields := (name, v) :: m.fields.filter (·.1 != name) }

/-- The next DATA constant, moving the pointer on. -/
def nextData : Exec Value := do
  let m ← get
  let cells ← match m.data with
    | .objects r => objectCells (some r)
    | _ => pure #[]
  let ptr := m.dataPtr.toInt
  if ptr < 0 || cells.size ≤ ptr then trap .outOfData
  modify fun m => { m with dataPtr := m.dataPtr + 1 }
  pure (cells.getD ptr.toNat .null)

end BasicJvm.Vm
