import BasicJvm.Console.Disk
import BasicJvm.Console.Help
import BasicJvm.Console.LogLine

/-!
# A run of a program

A program of the tool set runs as a `Session`: it reads its standard input and files, writes
its standard output, standard error and files, and ends with an exit status.  The state
(`Process`) holds all of these; a program that stops early throws a `Stop`, which carries
the exit status and the line it writes to standard error (`error: …` for an ordinary
failure, status 1).

`App.start` reads the arguments of a program with commands:

* the global flags first; a problem shows `Incorrect Usage.` with the problem and the
  program's help on standard output, and fails with the problem;
* `--help` shows the help and `--version` the version line;
* a first argument that names a command runs the command: its arguments are read with the
  flags first, wherever they stand before a `--`, and `--help` shows the command's help;
* otherwise the program's own action runs; a program without one shows its help, or the
  help of the command its first argument names, and stops with status 3 when there is no
  such command.
-/

namespace BasicJvm.Console

/-- What a program sees and has done so far: its files and standard input; its standard
output and standard error; the verbosity of its log (none while records are dropped); and
the absolute paths it looked for and did not find, newest first. -/
structure Process where
  disk : Disk
  input : String
  out : String
  err : Array Note
  verbosity : Option Int
  misses : List String
  deriving Inhabited

/-- How a program ends early: its exit status and the line it writes to standard error. -/
structure Stop where
  code : Nat
  line : String
  deriving Inhabited

/-- A program's run. -/
abbrev Session := ExceptT Stop (StateM Process)

/-- What a program ended with: its exit status, its two outputs, its files and the paths it
looked for and did not find. -/
structure Outcome where
  code : Nat
  out : String
  err : List Note
  disk : Disk
  misses : List String

/-- Run a program on its files and standard input. -/
def Session.outcome (s : Session Unit) (disk : Disk) (input : String) : Outcome :=
  match s.run.run ⟨disk, input, "", #[], none, []⟩ with
  | (.ok (), p) => ⟨0, p.out, p.err.toList, p.disk, p.misses⟩
  | (.error stop, p) =>
    ⟨stop.code, p.out, (p.err.push (.text (stop.line ++ "\n"))).toList, p.disk, p.misses⟩

/-- Standard error of an outcome, with the times of a clock. -/
def Outcome.errText (o : Outcome) (clock : Clock) : String := notesText clock o.err

/-- Write to standard output. -/
def say (s : String) : Session Unit :=
  modify fun p => { p with out := p.out ++ s }

/-- Stop with an ordinary failure: `error: message`, status 1. -/
def fail {α : Type} (message : String) : Session α :=
  throw ⟨1, "error: " ++ message⟩

/-- Stop with a status and a line of standard error. -/
def stopWith {α : Type} (code : Nat) (line : String) : Session α :=
  throw ⟨code, line⟩

/-- Show log records from now on up to a verbosity. -/
def setVerbosity (v : Int) : Session Unit :=
  modify fun p => { p with verbosity := some v }

/-- Whether a verbosity shows records of a level: those numbered up to it. -/
def shows (verbosity : Option Int) (l : Log.Level) : Bool :=
  match verbosity with
  | some v => (l.rank : Int) ≤ v
  | none => false

/-- Write a log record, if the verbosity shows it. -/
def logRecord (r : Log.Record) : Session Unit :=
  modify fun p => if shows p.verbosity r.level then { p with err := p.err.push (.record r) } else p

/-- Write log records in order. -/
def logRecords (rs : List Log.Record) : Session Unit :=
  rs.forM logRecord

/-- Note the path where a failed file operation found nothing. -/
def noteMiss (e : FileError) : Session Unit :=
  if e.problem == .missing then modify fun p => { p with misses := e.reached :: p.misses }
  else pure ()

/-- The bytes of a file. -/
def readBytes (path : String) : Session (Except FileError (List UInt8)) := do
  let r := (← get).disk.read path
  if let .error e := r then noteMiss e
  pure r

/-- Write a file. -/
def writeBytes (path : String) (bytes : List UInt8) : Session (Except FileError Unit) := do
  match (← get).disk.write path bytes with
  | .error e => noteMiss e; pure (.error e)
  | .ok disk => modify (fun p => { p with disk }); pure (.ok ())

/-! ## Programs with commands -/

/-- The help of the command a name names: the program's commands for the empty name, and
status 3 for a name that names no command. -/
def App.showCommandHelp (a : App) (name : String) : Session Unit :=
  if name.isEmpty then say a.commandsHelp
  else match a.findCommand name with
    | some c => say c.help
    | none => stopWith 3 ("No help topic for '" ++ name ++ "'")

/-- What the help command does with its arguments. -/
def App.helpAction (a : App) (args : List String) : Session Unit :=
  match args with
  | name :: _ => a.showCommandHelp name
  | [] => say a.help

/-- A command's arguments with its flags first: the arguments from the first one that looks
like a flag up to `--` are moved in front of the plain ones before it. -/
def flagsFirst (args : List String) : List String :=
  let beforeEnd := args.takeWhile (· != "--")
  let fromEnd := args.drop beforeEnd.length
  let isFlag (s : String) := s.startsWith "-" && s != "-"
  match beforeEnd.findIdx? isFlag with
  | some i => beforeEnd.drop i ++ beforeEnd.take i ++ fromEnd
  | none => args

/-- Read flags, checking that no flag is given under two names. -/
def readFlagSet (flags : List Flag) (args : List String) :
    Except (Bool × String) FlagSet :=
  let r := readFlags flags args []
  match twoForms flags r.given, r.problem with
  | some m, _ => .error (true, m)
  | none, some m => .error (false, m)
  | none, none => .ok ⟨flags, r.given, r.rest⟩

/-- Run a command on its arguments (the command's name first). -/
def App.runCommand (a : App) (c : Command) (args : List String)
    (perform : String → FlagSet → Session Unit) : Session Unit :=
  match readFlagSet (c.flags ++ [helpFlag]) (flagsFirst args.tail) with
  | .error (true, m) => do say (m ++ "\n\n"); a.showCommandHelp c.name; fail m
  | .error (false, m) => do
    say ("Incorrect Usage: " ++ m ++ "\n\n"); a.showCommandHelp c.name; fail m
  | .ok own =>
    if own.switch "help" then a.showCommandHelp c.name
    else if c.name == helpCommand.name then a.helpAction own.args
    else perform c.name own

/-- Run a program with commands: `perform` runs a command on the global and the command's
flags, `action` the program's own action, if it has one. -/
def App.start (a : App) (args : List String)
    (perform : FlagSet → String → FlagSet → Session Unit)
    (action : Option (FlagSet → Session Unit)) : Session Unit :=
  match readFlagSet a.allFlags args with
  | .error (true, m) => do say (m ++ "\n"); say a.help; fail m
  | .error (false, m) => do say ("Incorrect Usage. " ++ m ++ "\n\n"); say a.help; fail m
  | .ok global =>
    if global.switch "help" then say a.help
    else if global.switch "version" then say a.versionLine
    else
      let otherwise : Session Unit := match action with
        | some act => act global
        | none => a.helpAction global.args
      match global.args with
      | name :: _ =>
        match a.findCommand name with
        | some c => a.runCommand c global.args (perform global)
        | none => otherwise
      | [] => otherwise

end BasicJvm.Console
