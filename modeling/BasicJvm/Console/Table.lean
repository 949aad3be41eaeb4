import BasicJvm.Text.Width
import BasicJvm.Text.Blank

/-!
# Text tables

A `Table` is a header and rows of cells, drawn with `+`, `-` and `|`:

    +------+-------------+
    | LINE |    TYPE     |
    +------+-------------+
    |    1 | NUMBER      |
    +------+-------------+

* A column is as wide as its widest cell line.  A cell wider than thirty columns is wrapped
  at its spaces into lines of at most thirty columns (or of its longest word, when that is
  wider), breaking so that the squares of the lines' shortfalls add up to the least
  (`breakWords`).  A row is as high as its highest cell; a shorter cell is filled with lines
  of two spaces.
* Header cells are in capitals, with `_` shown as a space, and centred (an odd space left
  over goes to the right).
* A cell line that reads as a decimal number (an optional minus, digits, possibly grouped in
  threes by commas, and an optional fraction) is set to the right; any other to the left.

Widths are display widths (`BasicJvm.Text.displayWidth`).
-/

-- Sums start from the core zero also where an algebra library is loaded, so that the
-- definitions below elaborate to the same terms in every build.
attribute [local instance (high)] Zero.ofOfNat0

namespace BasicJvm.Console

open BasicJvm.Text

/-- The widest a cell is drawn before it is wrapped. -/
def wrapWidth : Nat := 30

/-- The words of a text: the pieces between single spaces (two spaces in a row give an
empty word), a line break counting as a space. -/
def wordsOf (s : String) : List String :=
  (s.replace "\n" " ").splitOn " "

/-- The width of the words `i` to `j` set on one line with a space between each two. -/
def spanWidth (widths : Array Nat) (i j : Nat) : Int :=
  (((List.range' i (j + 1 - i)).map fun k => widths.getD k 0).sum + (j - i) : Nat)

/-- The cost that stands for no way found yet. -/
def noCost : Int := 2147483647

/-- The penalty of a line longer than the limit. -/
def overlongPenalty : Int := 100000

/-- For the words from `i` on, the least cost and the first word of the second line, given
the same for every later start.  A last line costs nothing; any other line costs the square
of its shortfall, and the penalty when it is too long. -/
def bestBreak (widths : Array Nat) (limit : Int) (cost : Array Int) (i : Nat) : Int × Nat :=
  let n := widths.size
  if spanWidth widths i (n - 1) ≤ limit then (0, n)
  else
    (List.range' (i + 1) (n - i - 1)).foldl (fun (best, at_) j =>
      let w := spanWidth widths i (j - 1)
      let c := (limit - w) * (limit - w) + cost.getD j noCost + (if limit < w then overlongPenalty else 0)
      if c < best then (c, j) else (best, at_)) (noCost, 0)

/-- The lines of words from a start, following the chosen breaks. -/
def linesFrom (words : Array String) (next : Array Nat) : Nat → Nat → List (List String)
  | 0, _ => []
  | fuel + 1, i =>
    if i < words.size then
      let j := next.getD i words.size
      (words.extract i j).toList :: linesFrom words next fuel j
    else []

/-- Break words into lines of at most `limit` columns with the least raggedness. -/
def breakWords (words : Array String) (limit : Nat) : List (List String) :=
  let widths := words.map displayWidth
  let n := words.size
  let (_, next) := (List.range n).reverse.foldl (fun (cost, next) i =>
      let (c, j) := bestBreak widths limit cost i
      (cost.set! i c, next.set! i j))
    (Array.replicate n noCost, Array.replicate n 0)
  linesFrom words next (n + 1) 0

/-- A text wrapped at spaces into lines of at most `limit` columns, or of its longest word
when that is wider. -/
def wrapText (s : String) (limit : Nat) : List String :=
  let words := wordsOf s
  let limit := words.foldl (fun l w => max l (displayWidth w)) limit
  (breakWords words.toArray limit).map (" ".intercalate ·)

/-- The widest of some lines, and at least `least`. -/
def widest (least : Nat) (lines : List String) : Nat :=
  lines.foldl (fun w l => max w (displayWidth l)) least

/-- The lines of a cell and the width they need. -/
def cellLines (s : String) : List String × Nat :=
  let raw := s.splitOn "\n"
  let width := min wrapWidth (widest 0 raw)
  let lines := wrapText (" ".intercalate raw) width
  (lines, widest width lines)

/-- A header cell as shown: `_` as a space, trimmed, in capitals. -/
def headerText (s : String) : String :=
  (trimBlank (s.map fun c => if c == '_' then ' ' else c)).toUpper

/-- Whether digits are grouped in threes by commas, the first group one to three digits. -/
def groupedInThrees (cs : List Char) : Bool :=
  match (String.ofList cs).splitOn "," with
  | first :: rest =>
    0 < first.length && first.length ≤ 3 && first.all Char.isDigit &&
      rest.all fun g => g.length == 3 && g.all Char.isDigit
  | [] => false

/-- Whether a text reads as a decimal number: an optional minus, digits (plain, or grouped
in threes by commas), and an optional fraction of a point and digits. -/
def isDecimal (s : String) : Bool :=
  let cs := match s.toList with
    | '-' :: rest => rest
    | cs => cs
  let whole := cs.takeWhile fun c => c.isDigit || c == ','
  let fraction := cs.drop whole.length
  let wholeFits := if whole.contains ',' then groupedInThrees whole
    else !whole.isEmpty
  let fractionFits := match fraction with
    | [] => true
    | '.' :: ds => !ds.isEmpty && ds.all Char.isDigit
    | _ => false
  wholeFits && fractionFits

/-- Spaces. -/
def spaces (n : Nat) : String := "".pushn ' ' n

/-- A text centred in a width. -/
def centred (s : String) (width : Nat) : String :=
  let gap := width - displayWidth s
  spaces (gap / 2) ++ s ++ spaces (gap - gap / 2)

/-- A cell line set in a width: to the right for a number, to the left otherwise. -/
def aligned (s : String) (width : Nat) : String :=
  let gap := width - displayWidth s
  if isDecimal (trimBlank s) then spaces gap ++ s else s ++ spaces gap

/-- A table: the header cells and the rows. -/
structure Table where
  header : List String
  rows : List (List String)

/-- A border line for columns of some widths. -/
def borderLine (widths : List Nat) : String :=
  "+" ++ String.join (widths.map fun w => "-" ++ "".pushn '-' w ++ "-+") ++ "\n"

/-- The lines of a row of cells, each cell filled to the row's height. -/
def rowLines (widths : List Nat) (setCell : String → Nat → String)
    (cells : List (List String)) : String :=
  let height := cells.foldl (fun h c => max h c.length) 0
  let filled := cells.map fun c => c ++ List.replicate (height - c.length) "  "
  String.join ((List.range height).map fun x =>
    "|" ++ String.join ((filled.zip widths).map fun (c, w) => " " ++ setCell (c.getD x "") w ++ " |") ++
      "\n")

/-- The text of a table. -/
def Table.render (t : Table) : String :=
  let header := t.header.map cellLines
  let rows := t.rows.map (·.map cellLines)
  let widths := (List.range t.header.length).map fun k =>
    rows.foldl (fun w r => max w ((r.getD k ([], 0)).2)) ((header.getD k ([], 0)).2)
  borderLine widths ++
    rowLines widths (fun s w => centred (headerText s) w) (header.map (·.1)) ++
    borderLine widths ++
    String.join (rows.map fun r => rowLines widths aligned (r.map (·.1))) ++
    borderLine widths

end BasicJvm.Console
