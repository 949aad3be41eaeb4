import BasicJvm.Tools.Programs
import BasicJvm.Text.Upper

/-!
# The command line

`basic-jvm PROGRAM [ARGUMENTS...]` runs one of the programs of the tool set (`gobasic`,
`basdump` or `basrun`) on the real disk.

The programs themselves are pure: they see a `Disk` and standard input and give an
`Outcome`.  This layer supplies what they look for.  It runs a program on the files loaded
so far; every absolute path the run looked for and did not find is then looked up on the real
disk (a file is loaded, a directory noted), and the program runs again, until a run finds
nothing new to load.  The files of the last run that are new or changed are written back,
and its outputs and exit status are the program's.

Standard input is read to its end before the run when it is not a terminal; a terminal gives
no answers to `INPUT`.  Log lines show the time of the monotonic clock and the running time
of the program.  Folding case upper-cases with the core library's `Char.toUpper`
(`Text.asciiUpper`), which maps the ASCII letters and leaves every other character as it is.
-/

namespace BasicJvm.CommandLine

open BasicJvm.Console BasicJvm.Tools

/-- What a path of the real disk holds. -/
inductive Found where
  | file (bytes : List UInt8)
  | directory
  | nothing

/-- The error code of the operating system for reading a directory. -/
def isDirectoryCode : UInt32 := 21

/-- Look up a path on the real disk. -/
def probe (path : String) : IO Found := do
  try
    let bytes ← IO.FS.readBinFile path
    pure (.file bytes.data.toList)
  catch e =>
    match e with
    | .inappropriateType _ code _ => pure (if code == isDirectoryCode then .directory else .nothing)
    | _ => pure .nothing

/-- Run a program, loading what each run looked for and did not find, until a run finds
nothing new. -/
partial def settle (p : Program) (args : List String) (input : String) (disk : Disk)
    (tried : List String) : IO (Disk × Outcome) := do
  let o := p.run Text.asciiUpper args disk input
  let fresh := o.misses.eraseDups.filter (!tried.contains ·)
  if fresh.isEmpty then return (disk, o)
  let mut loaded := disk
  for path in fresh do
    match ← probe path with
    | .file bytes => loaded := { loaded with files := loaded.files ++ [(path, bytes)] }
    | .directory => loaded := { loaded with dirs := path :: loaded.dirs }
    | .nothing => pure ()
  settle p args input loaded (tried ++ fresh)

/-- Two digits of a number. -/
def twoDigits (n : Nat) : String := if n < 10 then "0" ++ toString n else toString n

/-- The time of day of a count of milliseconds, as log lines show it. -/
def stampOf (ms : Nat) : String :=
  let s := ms / 1000
  "00-00|" ++ twoDigits (s / 3600 % 24) ++ ":" ++ twoDigits (s / 60 % 60) ++ ":" ++
    twoDigits (s % 60) ++ "." ++ ((toString (ms % 1000 + 1000)).toList.drop 1 |> String.ofList)

/-- Run a program on the real disk and report its outcome. -/
def runProgram (p : Program) (args : List String) : IO UInt32 := do
  let cwd := (← IO.currentDir).toString
  let stdin ← IO.getStdin
  let input ← if ← stdin.isTty then pure "" else stdin.readToEnd
  let start ← IO.monoNanosNow
  let (before, o) ← settle p args input ⟨cwd, [], []⟩ []
  let finish ← IO.monoNanosNow
  for (path, bytes) in o.disk.files do
    if before.files.lookup path != some bytes then
      IO.FS.writeBinFile path (ByteArray.mk bytes.toArray)
  let out ← IO.getStdout
  out.putStr o.out
  out.flush
  let err ← IO.getStderr
  err.putStr (o.errText ⟨stampOf (start / 1000000), durationText (finish - start)⟩)
  err.flush
  pure o.code.toUInt32

end BasicJvm.CommandLine

open BasicJvm BasicJvm.CommandLine in
/-- The entry point: the first argument names the program. -/
def main (args : List String) : IO UInt32 := do
  match args with
  | name :: rest =>
    match Tools.Program.ofName? name with
    | some p => runProgram p rest
    | none =>
      IO.eprintln ("unknown program " ++ Text.quote name ++ "; use gobasic, basdump or basrun")
      pure 2
  | [] =>
    IO.eprintln "usage: basic-jvm gobasic|basdump|basrun [arguments...]"
    pure 2
