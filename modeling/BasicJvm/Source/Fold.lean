import BasicJvm.Source.Lexer

/-!
# Folding source to upper case

Programs may be written in lower case when the compiler is asked to fold case.  Folding
works line by line.  Every character outside double quotes becomes its upper case, the
characters that the upper-casing `upper` gives for it (there may be several); a double quote
opens or closes a string literal, and quotes pair up within a line only.  The text of a `REM`
comment is then put back as it was written: the folded line is scanned, and if a `REM`
keyword comes before the first newline or scanning failure, everything after it is taken
from the line as written.

`foldedLine` records, for each folded character, which written character it came from;
that is how the written rest of a `REM` line is found.

The upper-casing is a parameter, as the full Unicode case mapping is not part of this library:
the programs of the tool set take it from their platform.
-/

namespace BasicJvm.Source

/-- The upper case of the characters of a line outside string literals, each paired with
the index of the written character it came from. -/
def foldedLine (upper : Char → List Char) (line : List Char) : List (Char × Nat) :=
  let step (state : Bool × List (Char × Nat)) (ci : Char × Nat) :=
    let (quoted, out) := state
    let (c, i) := ci
    if c == '"' then (!quoted, (c, i) :: out)
    else if quoted then (quoted, (c, i) :: out)
    else (quoted, (upper c).reverse.map (·, i) ++ out)
  ((line.zipIdx.foldl step (false, [])).2).reverse

/-- The position just after the first `REM` keyword of a scanned line, if one comes before
the first newline, the end or a scanning failure. -/
def remEnd (src : Array Char) (pos line : Nat) : Option Nat :=
  match scanAt src pos line with
  | .error _ => none
  | .ok (tok, next, nextLine) =>
    if tok.kind == .endOfFile || tok.kind == .endOfLine then none
    else if tok.isA .keyword "REM" then some next
    else if _h : pos < next ∧ next ≤ src.size then remEnd src next nextLine
    else none
termination_by src.size - pos
decreasing_by omega

/-- One line folded to upper case, with the text after `REM` as written. -/
def foldLine (upper : Char → List Char) (line : String) : String :=
  let written := line.toList
  let folded := foldedLine upper written
  let chars := (folded.map (·.1)).toArray
  match remEnd chars 0 1 with
  | some stop =>
    match folded[stop]? with
    | some (_, origin) => String.ofList ((chars.extract 0 stop).toList ++ written.drop origin)
    | none => String.ofList chars.toList
  | none => String.ofList chars.toList

/-- The pieces of a text after each newline, each keeping its newline; the last piece is
what follows the last newline, perhaps empty. -/
def linesWithBreaks (s : String) : List String :=
  let rec go (cs : List Char) (cur : List Char) : List String :=
    match cs with
    | [] => [String.ofList cur.reverse]
    | c :: rest =>
      if c == '\n' then String.ofList (c :: cur).reverse :: go rest []
      else go rest (c :: cur)
  go s.toList []

/-- A whole source folded to upper case, line by line. -/
def foldCase (upper : Char → List Char) (src : String) : String :=
  String.join ((linesWithBreaks src).map (foldLine upper))

end BasicJvm.Source
