import BasicJvm.Console.Flags

/-!
# Programs, commands and their help

A program with commands (`App`) declares its name, a one-line usage, a version, what its
positional arguments are, its global flags and its commands; a `Command` declares the same
for itself.  Every program also has a `help` command (alias `h`) and the switches
`--help, -h` and `--version, -v`; every command has `--help, -h`.

The help texts are laid out in sections (`NAME`, `USAGE`, `VERSION`, `DESCRIPTION`,
`COMMANDS`, `OPTIONS`), indented by three spaces.  A flag's line shows its names with one
dash for a one-letter name and two for a longer one, `value` after each name of a flag that
takes a value, then the usage line and the default (`(default: 3)`; an empty text shows
none).  Lines of the commands and of the flags are set in two columns: the first column is
as wide as its widest entry among the neighbouring lines plus two spaces (`alignColumns`).
-/

namespace BasicJvm.Console

/-- A command of a program. -/
structure Command where
  name : String
  aliases : List String
  usage : String
  argsUsage : String
  description : String
  flags : List Flag
  /-- The name its help shows: the program's name and the command's. -/
  helpName : String
  deriving Inhabited

/-- A program with commands. -/
structure App where
  name : String
  usage : String
  version : String
  argsUsage : String
  flags : List Flag
  commands : List Command

/-- The switch that asks for help. -/
def helpFlag : Flag := ⟨["help", "h"], "show help", .switch false⟩

/-- The switch that asks for the version. -/
def versionFlag : Flag := ⟨["version", "v"], "print the version", .switch false⟩

/-- The command that shows help, for the program or for one command. -/
def helpCommand : Command :=
  ⟨"help", ["h"], "Shows a list of commands or help for one command", "[command]", "", [], ""⟩

/-- The flags of a program, with the help and version switches. -/
def App.allFlags (a : App) : List Flag := a.flags ++ [helpFlag, versionFlag]

/-- The commands of a program, with the help command. -/
def App.allCommands (a : App) : List Command := a.commands ++ [helpCommand]

/-- The names of a command: its name and its aliases. -/
def Command.names (c : Command) : List String := c.name :: c.aliases

/-- The command of a name or alias. -/
def App.findCommand (a : App) (name : String) : Option Command :=
  a.allCommands.find? (·.names.contains name)

/-! ## Help texts -/

/-- A flag's names as a help text shows them. -/
def Flag.shownNames (f : Flag) : String :=
  ", ".intercalate (f.names.map fun n =>
    (if n.length == 1 then "-" else "--") ++ n ++ (if f.isSwitch then "" else " value"))

/-- The default a help text shows for a flag. -/
def Flag.shownDefault (f : Flag) : String :=
  match f.default with
  | .switch _ => ""
  | .text "" => ""
  | .text s => " (default: " ++ Text.quote s ++ ")"
  | .number n => " (default: " ++ toString n ++ ")"

/-- A flag's line of help, with a tab between the two columns. -/
def Flag.helpLine (f : Flag) : String :=
  f.shownNames ++ "\t" ++ (f.usage ++ f.shownDefault).trimAscii.toString

/-- The width of the first column of neighbouring lines that all have two columns. -/
def columnWidth (cells : List String) : Nat :=
  cells.foldl (fun w c => max w c.length) 0 + 2

/-- Pad the first cell of each line of a group to the group's width. -/
def alignGroup (group : List (String × String)) : List String :=
  let width := columnWidth (group.map (·.1))
  group.map fun (cell, rest) => cell.pushn ' ' (width - cell.length) ++ rest

/-- Set lines with a tab in two columns: each run of neighbouring lines with a tab is
aligned on its own; a line without a tab ends a run. -/
def alignLines : List String → List (String × String) → List String
  | [], group => alignGroup group.reverse
  | line :: rest, group =>
    match line.splitOn "\t" with
    | cell :: more@(_ :: _) => alignLines rest ((cell, "\t".intercalate more) :: group)
    | _ => alignGroup group.reverse ++ line :: alignLines rest []

/-- A text with its tab-separated lines set in two columns. -/
def alignColumns (text : String) : String :=
  "\n".intercalate (alignLines (text.splitOn "\n") [])

/-- The lines of the commands, for a help text. -/
def App.commandLines (a : App) : String :=
  String.join (a.allCommands.map fun c => "\n     " ++ ", ".intercalate c.names ++ "\t" ++ c.usage)

/-- The help of a program. -/
def App.help (a : App) : String :=
  alignColumns <|
    "NAME:\n   " ++ a.name ++ (if a.usage.isEmpty then "" else " - " ++ a.usage) ++
    "\n\nUSAGE:\n   " ++ a.name ++ " [global options] command [command options] " ++
      (if a.argsUsage.isEmpty then "[arguments...]" else a.argsUsage) ++
    (if a.version.isEmpty then "" else "\n\nVERSION:\n   " ++ a.version) ++
    "\n\nCOMMANDS:" ++ a.commandLines ++
    "\n\nGLOBAL OPTIONS:\n   " ++ "\n   ".intercalate (a.allFlags.map Flag.helpLine) ++ "\n"

/-- The help of a command. -/
def Command.help (c : Command) : String :=
  alignColumns <|
    "NAME:\n   " ++ c.helpName ++ " - " ++ c.usage ++
    "\n\nUSAGE:\n   " ++ c.helpName ++ (if c.flags.isEmpty then "" else " [command options]") ++ " " ++
      (if c.argsUsage.isEmpty then "[arguments...]" else c.argsUsage) ++
    (if c.description.isEmpty then "" else "\n\nDESCRIPTION:\n   " ++ c.description) ++
    (if c.flags.isEmpty then ""
     else "\n\nOPTIONS:\n   " ++ String.join (c.flags.map fun f => f.helpLine ++ "\n   ")) ++ "\n"

/-- The help of a program's commands, shown for the empty command name. -/
def App.commandsHelp (a : App) : String :=
  alignColumns <|
    "NAME:\n   " ++ a.name ++ " - " ++ a.usage ++
    "\n\nUSAGE:\n   " ++ a.name ++ " command [command options] " ++
      (if a.argsUsage.isEmpty then "[arguments...]" else a.argsUsage) ++
    "\n\nCOMMANDS:" ++ a.commandLines ++ "\n" ++
    "\nOPTIONS:\n   " ++ String.join (a.allFlags.map fun f => f.helpLine ++ "\n   ") ++ "\n"

/-- The version line of a program. -/
def App.versionLine (a : App) : String := a.name ++ " version " ++ a.version ++ "\n"

end BasicJvm.Console
