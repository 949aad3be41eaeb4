import BasicJvm.Machine.State
import BasicJvm.Number.Reading
import BasicJvm.Number.Sine
import BasicJvm.Text.Blank
import BasicJvm.Text.Utf16

/-!
# Methods the interpreter provides

A compiled program calls two kinds of methods that have no bytecode to run.

* The methods of its runtime class (`RuntimeNative`), known by name and descriptor:
  printing, moving to the next print zone, reading `INPUT` answers and `DATA` constants,
  raising a runtime error, and the built-in functions `INT`, `SIN`, `RND` and `TAB`.
* A few methods of the Java library (`LibraryNative`), known by class, name and descriptor:
  the object constructor, the double functions of `Math` (`pow`, `sqrt`, `exp`, `log`,
  `atan`), `abs` and `signum` of a float, and the text methods `concat`, `compareTo`,
  `length` and `valueOf` of a character, `Float.valueOf` and `Float.parseFloat`.

The rules that are not plain arithmetic:

* A number answer or text is read after trimming white space, as a float; an answer that is
  not a number prints `?Redo from start` on a line of its own, and the next line is read.
* `INT` truncates toward zero, saturating at the 32-bit range; `SIN` takes degrees.
* `RND(x)` reseeds the source with `INT(x)` when `x` is negative, returns the last draw
  again when `x` is zero, and otherwise draws.
* `TAB(x)` gives a space for each column from the current one on while the column, converted
  to a float, is below `x`.  The column counts in a 64-bit integer that wraps around, so for an
  `x` above `2 ^ 63` (infinity too) the loop never ends and neither does the run.
* Text length and order count UTF-16 units; `compareTo` is the difference of the first
  differing units, or of the lengths.
-/

-- Powers use the core `NatPow` instance also where an algebra library is loaded, so that
-- the definitions below elaborate to the same terms in every build.
attribute [local instance (high)] instPowNat

namespace BasicJvm.Vm

open BasicJvm.Number

/-- A method of the runtime class. -/
inductive RuntimeNative where
  | printText | printNumber | newline | nextZone | inputNumber | inputText | readNumber
  | readText | raise | int | sin | rnd | tab
  deriving DecidableEq, Repr

/-- The runtime method with a name and descriptor, written together. -/
def RuntimeNative.ofKey? : String → Option RuntimeNative
  | "print(Ljava/lang/String;)V" => some .printText
  | "print(F)V" => some .printNumber
  | "println()V" => some .newline
  | "nextPrintZone()V" => some .nextZone
  | "inputFLOAT()F" => some .inputNumber
  | "inputSTRING()Ljava/lang/String;" => some .inputText
  | "readFLOAT()F" => some .readNumber
  | "readSTRING()Ljava/lang/String;" => some .readText
  | "runtimeError(Ljava/lang/String;)V" => some .raise
  | "fnINT(F)F" => some .int
  | "fnSIN(F)F" => some .sin
  | "fnRND(F)F" => some .rnd
  | "fnTAB(F)Ljava/lang/String;" => some .tab
  | _ => none

/-- A method of the Java library. -/
inductive LibraryNative where
  | objectInit | pow | sqrt | exp | log | atan | abs | signum | concat | compareTo | length
  | valueOf | boxFloat | parseFloat
  deriving DecidableEq, Repr

/-- The library method with a class, name and descriptor, written as `class.name` and the
descriptor. -/
def LibraryNative.ofKey? : String → Option LibraryNative
  | "java/lang/Object.<init>()V" => some .objectInit
  | "java/lang/Math.pow(DD)D" => some .pow
  | "java/lang/Math.sqrt(D)D" => some .sqrt
  | "java/lang/Math.exp(D)D" => some .exp
  | "java/lang/Math.log(D)D" => some .log
  | "java/lang/Math.atan(D)D" => some .atan
  | "java/lang/Math.abs(F)F" => some .abs
  | "java/lang/Math.signum(F)F" => some .signum
  | "java/lang/String.concat(Ljava/lang/String;)Ljava/lang/String;" => some .concat
  | "java/lang/String.compareTo(Ljava/lang/String;)I" => some .compareTo
  | "java/lang/String.length()I" => some .length
  | "java/lang/String.valueOf(C)Ljava/lang/String;" => some .valueOf
  | "java/lang/Float.valueOf(F)Ljava/lang/Float;" => some .boxFloat
  | "java/lang/Float.parseFloat(Ljava/lang/String;)F" => some .parseFloat
  | _ => none

/-- A method without bytecode. -/
inductive Native where
  | runtime (n : RuntimeNative)
  | library (n : LibraryNative)
  deriving DecidableEq, Repr

/-! ## Operands -/

/-- A float operand. -/
def asFloat : Value → Exec Single
  | .float x => pure x
  | v => misuse (.wrongType v.typeName "float32")

/-- A double operand, as its bit pattern. -/
def asDouble : Value → Exec UInt64
  | .double x => pure x
  | v => misuse (.wrongType v.typeName "float64")

/-- An integer operand. -/
def asInt : Value → Exec Int32
  | .int x => pure x
  | v => misuse (.wrongType v.typeName "int32")

/-- A text operand that is not null. -/
def asText : Value → Exec String
  | .text s => pure s
  | .null => trap .nullText
  | v => misuse (.wrongType v.typeName "string")

/-! ## Numbers -/

/-- A function of doubles applied to a bit pattern. -/
def onDouble (f : Float → Float) (bits : UInt64) : UInt64 := (f (Float.ofBits bits)).toBits

/-- The double nearest to `π`. -/
def piDouble : Float := Float.ofBits 0x400921FB54442D18

/-- The sine of an angle in degrees, computed in doubles and rounded to a float. -/
def sineOfDegrees (x : Single) : Single :=
  let deg := Float.ofBits x.toDouble.toUInt64
  Single.ofDouble (Number.sin (deg * piDouble / 180)).toBits.toNat

/-- Whether `TAB(x)` writes a space at column `i`: the column, converted to a float, is below
`x`. -/
def tabContinues (x : Single) (i : Int) : Bool := (Single.ofInt i).order? x == some .lt

/-- The loop of `TAB(x)` from the 64-bit column `i`, after `n` spaces: one more space for each
column while the test holds, the column wrapping around at the ends of the 64-bit range;
`none` once `fuel` turns have passed. -/
def tabLoop (x : Single) : Nat → Int64 → Nat → Option Nat
  | 0, _, _ => none
  | fuel + 1, i, n => if tabContinues x i.toInt then tabLoop x fuel (i + 1) (n + 1) else some n

/-- The number of spaces `TAB(x)` writes from a column.  Every column up to `2 ^ 24` converts
to a float exactly, so for an `x` whose ceiling is at most `2 ^ 24` the loop writes one space
for each column below that ceiling; NaN and negative infinity stop it at once.  Otherwise the
loop runs as it is written: after `2 ^ 64` turns the column has taken every 64-bit value, so
a loop that has not ended by then never ends (`none`).  From every 64-bit column the shortcuts
give what the loop gives (`tabSpaces_eq_tabLoop`). -/
def tabSpaces (column : Nat) (x : Single) : Option Nat :=
  match x.ceil? with
  | some c =>
    if c ≤ 2 ^ (24 : Nat) then some (c - column).toNat else tabLoop x (2 ^ (64 : Nat)) (Int64.ofNat column) 0
  | none => if x.isNaN || x.isNegative then some 0 else tabLoop x (2 ^ (64 : Nat)) (Int64.ofNat column) 0

/-- The order of two texts by UTF-16 units: the difference of the first two units that
differ, or else of the lengths. -/
def compareUnits : List Nat → List Nat → Int
  | a :: as, b :: bs => if a == b then compareUnits as bs else (a : Int) - b
  | as, bs => (as.length : Int) - bs.length

/-! ## Answers and DATA -/

/-- Read a number answer; an answer that is not a number asks again, up to `fuel` times. -/
def readNumberAnswer : Nat → Exec Single
  | 0 => trap .endOfInput
  | fuel + 1 => do
    let s ← readAnswer
    match readSingle (Text.trimBlank s) with
    | some x => pure x
    | none =>
      emit "?Redo from start"
      emit "\n"
      readNumberAnswer fuel

/-- The number of answer lines not yet read. -/
def answersLeft : Exec Nat := do
  return ((← get).input.map (·.lines.length)).getD 0

/-! ## Calls -/

/-- The argument at a position. -/
def argAt (args : List Value) (i : Nat) : Value := args.getD i .null

/-- Run a method of the runtime class. -/
def RuntimeNative.call (n : RuntimeNative) (args : List Value) : Exec Value := do
  match n with
  | .printText => emit (argAt args 0).shown; pure .null
  | .printNumber => emit (formatNumber (← asFloat (argAt args 0))); pure .null
  | .newline => emit "\n"; pure .null
  | .nextZone =>
    let m ← get
    let w := m.settings.zoneWidth
    emit (String.ofList (List.replicate (w - m.column % w) ' '))
    pure .null
  | .inputNumber => return .float (← readNumberAnswer ((← answersLeft) + 1))
  | .inputText => return .text (← readAnswer)
  | .readNumber =>
    match ← nextData with
    | .float x => pure (.float x)
    | v => trap (.readIntoNumber v.shown)
  | .readText =>
    match ← nextData with
    | .text s => pure (.text s)
    | .float x => trap (.readIntoText (formatNumber x))
    | v => misuse (.wrongType v.typeName "float32")
  | .raise => trap (.raised (argAt args 0).shown)
  | .int => return .float (Single.ofInt (← asFloat (argAt args 0)).truncate)
  | .sin => return .float (sineOfDegrees (← asFloat (argAt args 0)))
  | .rnd =>
    let x ← asFloat (argAt args 0)
    if x.isNegative then modify fun m => { m with random := Random.seeded x.truncate }
    if x.isZero then return .float (← get).lastDraw
    let (y, r) := (← get).random.nextSingle
    modify fun m => { m with random := r, lastDraw := y }
    pure (.float y)
  | .tab =>
    let x ← asFloat (argAt args 0)
    match tabSpaces (← get).column x with
    | some n => pure (.text (String.ofList (List.replicate n ' ')))
    | none => throw .endless

/-- Run a method of the Java library on a receiver. -/
def LibraryNative.call (n : LibraryNative) (receiver : Value) (args : List Value) :
    Exec Value := do
  match n with
  | .objectInit => pure .null
  | .pow =>
    let x ← asDouble (argAt args 0)
    let y ← asDouble (argAt args 1)
    pure (.double (Number.pow (Float.ofBits x) (Float.ofBits y)).toBits)
  | .sqrt => return .double (onDouble Float.sqrt (← asDouble (argAt args 0)))
  | .exp => return .double (onDouble Number.exp (← asDouble (argAt args 0)))
  | .log => return .double (onDouble Number.log (← asDouble (argAt args 0)))
  | .atan => return .double (onDouble Number.atan (← asDouble (argAt args 0)))
  | .abs => return .float (← asFloat (argAt args 0)).abs
  | .signum => return .float (← asFloat (argAt args 0)).signum
  | .concat =>
    let s ← asText receiver
    let t ← asText (argAt args 0)
    pure (.text (s ++ t))
  | .compareTo =>
    let s ← asText receiver
    let t ← asText (argAt args 0)
    pure (.int (Int32.ofInt (compareUnits (Text.utf16Units s) (Text.utf16Units t))))
  | .length => return .int (Int32.ofNat (Text.utf16Length (← asText receiver)))
  | .valueOf =>
    let c ← asInt (argAt args 0)
    pure (.text (Text.decodeUnits [c.toUInt32.toNat % 65536]))
  | .boxFloat => return .float (← asFloat (argAt args 0))
  | .parseFloat =>
    let s ← asText (argAt args 0)
    match readSingle (Text.trimBlank s) with
    | some x => pure (.float x)
    | none => trap (.invalidNumber s)

/-- Run a method without bytecode. -/
def Native.call (n : Native) (receiver : Value) (args : List Value) : Exec Value :=
  match n with
  | .runtime r => r.call args
  | .library l => l.call receiver args

end BasicJvm.Vm
