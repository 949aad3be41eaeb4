import BasicJvm.Log.Record
import BasicJvm.Text.Quoted

/-!
# Log lines on a terminal

The tools write log records to standard error, one line each:

    INFO [TIME] Compiled program                         class=hello lines=1 bytes=368

The level takes five columns (`INFO ` and `WARN ` with a space), the time stands in
brackets, and a message with fields is padded to forty characters.  The fields follow as
`key=value`, separated by spaces; each value but the last of a line is padded to the widest
value seen so far under its key (up to forty characters), so that repeated records line up.

Values are written plainly: a number of six or more digits with commas between groups of
three, nothing as `nil`, and a text as it is unless it holds a character up to `"`, above
`~`, or `=`, in which case it is quoted.

Standard error is kept as notes (`Note`), plain text and log records in the order they
were written, and set as text at the end (`notesText`), when the times are known.
-/

-- Powers use the core `NatPow` instance also where an algebra library is loaded, so that
-- the definitions below elaborate to the same terms in every build.
attribute [local instance (high)] instPowNat

namespace BasicJvm.Console

open BasicJvm.Log

/-- The level of a record as five columns. -/
def levelText : Level → String
  | .error => "EROR "
  | .warn => "WARN "
  | .info => "INFO "
  | .debug => "DEBUG"
  | .trace => "TRACE"

/-- The digits of a number with a comma between groups of three, from the right. -/
def groupedDigits (n : Nat) : String :=
  let digits := (toString n).toList.reverse
  let rec group : List Char → Nat → List Char
    | [], _ => []
    | c :: rest, k => (if k > 0 && k % 3 == 0 then [c, ','] else [c]) ++ group rest (k + 1)
  String.ofList (group digits 0).reverse

/-- The text of a number in a log line: grouped from 100000 up. -/
def numberText (n : Int) : String :=
  if n.natAbs < 100000 then toString n
  else (if n < 0 then "-" else "") ++ groupedDigits n.natAbs

/-- A text in a log line: quoted when it holds a character up to `"`, above `~`, or `=`. -/
def logText (s : String) : String :=
  if s.any fun c => c ≤ '"' || c > '~' || c == '=' then Text.quote s else s

/-- The times a log line shows: the time of day and the running time of a program. -/
structure Clock where
  stamp : String
  elapsed : String
  deriving Inhabited

/-- The text of a field's value. -/
def valueText (clock : Clock) : Value → String
  | .int n => numberText n
  | .text s => logText s
  | .none => "nil"
  | .duration => logText clock.elapsed

/-- The digits of `n / 10 ^ places` with the fraction kept to `places` digits and its
trailing zeros dropped. -/
def decimalText (n places : Nat) : String :=
  let whole := toString (n / 10 ^ places)
  let frac := (toString (n % 10 ^ places + 10 ^ places)).toList.drop 1
  let frac := String.ofList ((frac.reverse.dropWhile (· == '0')).reverse)
  if frac.isEmpty then whole else whole ++ "." ++ frac

/-- A running time in nanoseconds, in the largest unit below it: `750ns`, `12.5µs`,
`3.25ms`, `1.5s`. -/
def durationText (nanos : Nat) : String :=
  if nanos < 1000 then toString nanos ++ "ns"
  else if nanos < 1000000 then decimalText nanos 3 ++ "µs"
  else if nanos < 1000000000 then decimalText nanos 6 ++ "ms"
  else decimalText nanos 9 ++ "s"

/-- The widest value seen under each key. -/
abbrev Widths := List (String × Nat)

/-- The fields of a line, and the widths after them.  Each value's width is recorded when
it is wider than before and at most forty; every value but the last is padded. -/
def fieldsText (clock : Clock) : List (String × Value) → Widths → String × Widths
  | [], widths => ("", widths)
  | (key, v) :: rest, widths =>
    let text := valueText clock v
    let len := text.length
    let known := (widths.lookup key).getD 0
    let width := if known < len && len ≤ 40 then len else known
    let widths := if width == known then widths else (key, width) :: widths.filter (·.1 != key)
    let pad := if rest.isEmpty then "" else "".pushn ' ' (width - len)
    let (after, widths) := fieldsText clock rest widths
    (key ++ "=" ++ text ++ pad ++ (if rest.isEmpty then "" else " ") ++ after, widths)

/-- The line of a record, and the widths after it. -/
def recordLine (clock : Clock) (widths : Widths) (r : Record) : String × Widths :=
  let head := levelText r.level ++ "[" ++ clock.stamp ++ "] " ++ r.msg ++ " "
  let pad := if !r.fields.isEmpty && r.msg.length < 40 then "".pushn ' ' (40 - r.msg.length) else ""
  let (fields, widths) := fieldsText clock r.fields widths
  (head ++ pad ++ fields ++ "\n", widths)

/-- A piece of standard error: plain text, or a log record. -/
inductive Note where
  | text (s : String)
  | record (r : Record)
  deriving Inhabited

/-- Standard error as a terminal shows it, with the times of a clock; the widths of the
values grow from record to record. -/
def notesText (clock : Clock) (notes : List Note) : String :=
  (notes.foldl (fun (text, widths) note =>
    match note with
    | .text s => (text ++ s, widths)
    | .record r =>
      let (line, widths) := recordLine clock widths r
      (text ++ line, widths)) ("", [])).1

end BasicJvm.Console
