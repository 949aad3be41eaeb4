/-!
# Log records

The compiler and the interpreter report progress as log records: a level, a message and
named values.  They are data here; the command line programs decide which levels to show
and how to write them.

The levels, from the most to the least severe, are error, warning, info, debug and trace; a
verbosity `v` shows the levels numbered up to `v` (error is 1, trace is 5).
-/

namespace BasicJvm.Log

/-- How severe a log record is. -/
inductive Level where
  | error
  | warn
  | info
  | debug
  | trace
  deriving DecidableEq, Repr, Inhabited

/-- The number of a level: 1 for errors up to 5 for traces. -/
def Level.rank : Level → Nat
  | .error => 1
  | .warn => 2
  | .info => 3
  | .debug => 4
  | .trace => 5

/-- A value attached to a record. -/
inductive Value where
  | int (n : Int)
  | text (s : String)
  /-- No value, as for an error that did not happen. -/
  | none
  /-- A duration; its text is left to the writer. -/
  | duration
  deriving DecidableEq, Repr, Inhabited

/-- A log record. -/
structure Record where
  level : Level
  msg : String
  fields : List (String × Value)
  deriving DecidableEq, Repr, Inhabited

end BasicJvm.Log
