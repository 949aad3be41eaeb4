/-!
# TOML documents

A TOML document is a table: named fields in the order they were written, each a key with a
value, a subtable, or an array of tables.  A value is an integer, a float, a string, a
boolean, a date-time or an array of values.  Integers and floats keep their text (without
the `_` separators): the reader of a document decides what range they must fit.

A document is built statement by statement, in the order of the text (`Statement`):

* a table header `[a.b]` walks from the top table through `a`, making tables that do not
  exist yet (they are *implied*), and defines `b` there; defining a table twice, or a table
  where a key or an array of tables already is, is a conflict;
* an array header `[[a.b]]` walks the same way and appends a table to the array `b`;
* `k = v` adds a key to the current table, the one the last header defined, and a key that
  is already there is a conflict, which names the line of the first in hexadecimal followed
  by `d`;
* an inline table `k = { … }` defines the table `k` in the current table and makes it current
  until its closing brace; inside an array, at any depth, it appends a table to the array of
  tables `k` instead, and the key `k` itself is not set.

A walk through an array of tables goes into its last table.  Every conflict names the line
of what was there first.
-/

namespace BasicJvm.Toml

/-- A value. -/
inductive Value where
  | integer (text : String)
  | float (text : String)
  | string (s : String)
  | boolean (b : Bool)
  | datetime (text : String)
  | array (items : List Value)
  /-- An inline table inside an array. -/
  | inlineTable
  deriving Repr, Inhabited

/-- The name of the kind of a value, as messages write it. -/
def Value.kindName : Value → String
  | .integer _ => "integer"
  | .float _ => "float"
  | .string _ => "string"
  | .boolean _ => "boolean"
  | .datetime _ => "datetime"
  | .array _ => "array"
  | .inlineTable => "table"

mutual

/-- Whether a value is an inline table or an array that holds one, at any depth. -/
def Value.holdsTable : Value → Bool
  | .inlineTable => true
  | .array items => Value.anyHoldsTable items
  | _ => false

/-- Whether one of some values holds an inline table. -/
def Value.anyHoldsTable : List Value → Bool
  | [] => false
  | v :: vs => v.holdsTable || Value.anyHoldsTable vs

end

/-- A field of a table. -/
inductive Node where
  /-- A key with its value, and the line where it was set. -/
  | keyValue (v : Value) (line : Nat)
  /-- A table: its line, whether a header or an inline table defined it (rather than only a
  deeper header implying it), and its fields in order. -/
  | table (line : Nat) (defined : Bool) (fields : List (String × Node))
  /-- An array of tables, the last one newest. -/
  | tables (items : List Node)
  deriving Repr, Inhabited

/-- The line where a field was first written: its own line, or that of the first table of
an array. -/
def Node.line : Node → Nat
  | .keyValue _ l => l
  | .table l _ _ => l
  | .tables (.table l _ _ :: _) => l
  | .tables _ => 0

/-- The fields of a table, with a field replaced or added at the end. -/
def setField (fields : List (String × Node)) (key : String) (n : Node) : List (String × Node) :=
  if fields.any (·.1 == key) then fields.map fun (k, m) => if k == key then (k, n) else (k, m)
  else fields ++ [(key, n)]

/-- One statement of a document, with the line counter at the point where it takes effect. -/
inductive Statement where
  /-- A table header (or an array header) with its keys and its text as written. -/
  | header (keys : List String) (text : String) (array : Bool) (line : Nat)
  /-- A key set to a value. -/
  | assign (key : String) (v : Value) (line : Nat)
  /-- The start of an inline table under a key; inside an array it is a table of an array of
  tables. -/
  | openInline (key : String) (inArray : Bool) (line : Nat)
  /-- The end of the innermost inline table. -/
  | closeInline
  /-- A malformed piece of the text, such as a bad escape. -/
  | fault (message : String) (line : Nat)
  deriving Repr, Inhabited

/-- A problem of a document, at a line. -/
structure LineProblem where
  line : Nat
  message : String
  deriving DecidableEq, Repr

/-- Change the fields of the table at a path below a table's fields; an array of tables on
the way stands for its last table. -/
def updateTable (f : List (String × Node) → Except LineProblem (List (String × Node))) :
    List String → List (String × Node) → Except LineProblem (List (String × Node))
  | [], fields => f fields
  | k :: rest, fields =>
    match fields.lookup k with
    | some (.table l d fs) => do
      let fs ← updateTable f rest fs
      pure (setField fields k (.table l d fs))
    | some (.tables items) =>
      match items.getLast? with
      | some (.table l d fs) => do
        let fs ← updateTable f rest fs
        pure (setField fields k (.tables (items.dropLast ++ [.table l d fs])))
      | _ => pure fields
    | _ => pure fields

/-- The fields of the table at a path, as `updateTable` walks. -/
def tableAt : List String → List (String × Node) → List (String × Node)
  | [], fields => fields
  | k :: rest, fields =>
    match fields.lookup k with
    | some (.table _ _ fs) => tableAt rest fs
    | some (.tables items) =>
      match items.getLast? with
      | some (.table _ _ fs) => tableAt rest fs
      | _ => []
    | _ => []

/-- The state of building a document. -/
structure Builder where
  root : List (String × Node)
  /-- The path of the current table. -/
  current : List String
  /-- The paths to return to at the end of each open inline table. -/
  saved : List (List String)

/-- Walk from a table through keys, making the tables that do not exist; the path reached. -/
def Builder.walk (b : Builder) (line : Nat) : List String → List String → Except LineProblem Builder
  | path, [] => pure { b with current := path }
  | path, k :: rest => do
    match (tableAt path b.root).lookup k with
    | none =>
      let root ← updateTable (fun fs => pure (fs ++ [(k, .table line false [])])) path b.root
      Builder.walk { b with root } line (path ++ [k]) rest
    | some (.keyValue _ l) => throw ⟨line, "key `" ++ k ++ "' is in conflict with line " ++ toString l⟩
    | some _ => Builder.walk b line (path ++ [k]) rest

/-- Define a table (or append to an array of tables) at keys below a path. -/
def Builder.define (b : Builder) (base : List String) (keys : List String) (text : String)
    (array : Bool) (line : Nat) : Except LineProblem Builder := do
  let parentKeys := keys.dropLast
  let last := keys.getLastD ""
  let b ← b.walk line base parentKeys
  let parent := b.current
  let conflict (what : String) : Except LineProblem Builder :=
    throw ⟨line, "table `" ++ text ++ "' is in conflict with " ++ what⟩
  match (tableAt parent b.root).lookup last with
  | none =>
    let node : Node := if array then .tables [.table line true []] else .table line true []
    let root ← updateTable (fun fs => pure (fs ++ [(last, node)])) parent b.root
    pure { b with root, current := parent ++ [last] }
  | some (.tables items) =>
    if array then
      let root ← updateTable (fun fs => pure (setField fs last (.tables (items ++ [.table line true []]))))
        parent b.root
      pure { b with root, current := parent ++ [last] }
    else conflict ("array table in line " ++ toString (Node.tables items).line)
  | some (.table l defined fs) =>
    if array then conflict ("table in line " ++ toString l)
    else if defined then conflict ("table in line " ++ toString l)
    else
      let root ← updateTable (fun flds => pure (setField flds last (.table line true fs))) parent b.root
      pure { b with root, current := parent ++ [last] }
  | some (.keyValue _ l) => conflict ("line " ++ toString l)

/-- A line number in hexadecimal, as a key set twice names the line of the first. -/
def hexLine (l : Nat) : String := String.ofList (Nat.toDigits 16 l)

/-- Carry out one statement. -/
def Builder.apply (b : Builder) : Statement → Except LineProblem Builder
  | .header keys text array line => b.define [] keys text array line
  | .assign key v line => do
    match (tableAt b.current b.root).lookup key with
    | some (.table l _ _) =>
      throw ⟨line, "key `" ++ key ++ "' is in conflict with table in line " ++ toString l⟩
    | some (.keyValue _ l) =>
      throw ⟨line, "key `" ++ key ++ "' is in conflict with line " ++ hexLine l ++ "d"⟩
    | some (.tables _) =>
      throw ⟨line, "BUG: key `" ++ key ++ "' is in conflict but it's unknown type `[]*ast.Table'"⟩
    | none =>
      let root ← updateTable (fun fs => pure (fs ++ [(key, .keyValue v line)])) b.current b.root
      pure { b with root }
  | .openInline key inArray line => do
    let b' ← b.define b.current [key] key inArray line
    pure { b' with saved := b.current :: b.saved }
  | .closeInline =>
    match b.saved with
    | path :: rest => pure { b with current := path, saved := rest }
    | [] => pure b
  | .fault message line => throw ⟨line, message⟩

/-- The document of a list of statements. -/
def build (statements : List Statement) : Except LineProblem (List (String × Node)) := do
  let b ← statements.foldlM Builder.apply ⟨[], [], []⟩
  pure b.root

end BasicJvm.Toml
