import BasicJvm.Tools.Runner
import BasicJvm.Tools.Dump

/-!
# The programs of the tool set

Three programs share the compiler and the interpreter: the compiler (`gobasic`), the stage
dump (`basdump`) and the class runner (`basrun`).  `Program.run` runs one of them on its
arguments, its files and its standard input, and gives its exit status, its outputs and
its files afterwards.  The upper case of a character, which the compiler needs to fold
case, comes from the platform too.  Log records are dropped until a program sets its verbosity.
-/

namespace BasicJvm.Tools

open BasicJvm.Console

/-- A program of the tool set. -/
inductive Program where
  | compiler
  | dump
  | runner
  deriving DecidableEq, Repr

/-- The program of a command name. -/
def Program.ofName? : String → Option Program
  | "gobasic" => some .compiler
  | "basdump" => some .dump
  | "basrun" => some .runner
  | _ => none

/-- What a program does with its arguments; the compiler folds case with the upper-casing
`upper`. -/
def Program.main (upper : Char → List Char) : Program → List String → Session Unit
  | .compiler => compilerMain upper
  | .dump => dumpMain
  | .runner => runnerMain

/-- Run a program on its arguments, its files and its standard input, with the upper-casing
`upper` of its platform. -/
def Program.run (p : Program) (upper : Char → List Char) (args : List String) (disk : Disk)
    (input : String) : Outcome :=
  (p.main upper args).outcome disk input

end BasicJvm.Tools
