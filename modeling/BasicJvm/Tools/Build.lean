import BasicJvm.Tools.Loading
import BasicJvm.Compiler.Compile
import BasicJvm.Syntax.Listing

/-!
# The compiler program

`gobasic` has two commands.

* `compile <source.bas>` compiles a program into a class file next to the source (or in
  the configured output directory, or at `--out`) and prints the file's path.  `--list`
  first prints the program's listing; `--run` runs the class instead of writing it.
* `dumpconfig [file]` writes the configuration in effect as TOML, to standard output or to a
  file.

Both take their settings from the defaults, then the `--config` file (given after the
command or before it), then the flags: `--verbosity` (after the command or before it),
`--template`, `--fold` and `--seed`.  Log records are shown from then on, up to the
verbosity.  A problem with the source is reported after the source file's name.
-/

namespace BasicJvm.Tools

open BasicJvm.Console

/-- The flag `--config`. -/
def configFlag : Flag := ⟨["config"], "TOML configuration file", .text ""⟩

/-- The flag `--verbosity`, with its default. -/
def verbosityFlag (default : Int) : Flag :=
  ⟨["verbosity"], "Logging verbosity: 0=silent, 1=error, 2=warn, 3=info, 4=debug, 5=detail",
    .number default⟩

/-- The flag `--run`. -/
def runFlag : Flag :=
  ⟨["run"], "Run the compiled class in the harness instead of writing it", .switch false⟩

/-- The flag `--list`. -/
def listFlag : Flag := ⟨["list"], "Print the canonical listing of the program", .switch false⟩

/-- The flag `--out`. -/
def outFlag : Flag := ⟨["out"], "Output class file (default: source name with .class)", .text ""⟩

/-- The flag `--template`. -/
def templateFlag : Flag :=
  ⟨["template"], "Class file to patch instead of the built-in template", .text ""⟩

/-- The flag `--fold`. -/
def foldFlag : Flag := ⟨["fold"], "Accept lower-case keywords and names", .switch false⟩

/-- The compiler's `--seed`. -/
def compilerSeedFlag : Flag :=
  ⟨["seed"], "RND seed for --run (0 picks one from the clock)", .number 0⟩

/-- The `compile` command. -/
def compileCommand : Command where
  name := "compile"
  aliases := []
  usage := "Compile a BASIC program to a class file"
  argsUsage := "<source.bas>"
  description := "The compile command translates a BASIC program into a JVM class whose\n" ++
    "run() method executes it and prints the class file's path. With --run the\n" ++
    "class is executed in-process and nothing is written."
  flags := [configFlag, verbosityFlag Config.defaults.log.verbosity, runFlag, listFlag, outFlag,
    templateFlag, foldFlag, compilerSeedFlag]
  helpName := "gobasic compile"

/-- The `dumpconfig` command. -/
def dumpConfigCommand : Command where
  name := "dumpconfig"
  aliases := []
  usage := "Show configuration values"
  argsUsage := "[file]"
  description := "The dumpconfig command shows configuration values."
  flags := [configFlag, verbosityFlag Config.defaults.log.verbosity, templateFlag, foldFlag,
    compilerSeedFlag]
  helpName := "gobasic dumpconfig"

/-- The compiler program. -/
def compilerApp : App where
  name := "gobasic"
  usage := "BASIC to JVM class file compiler"
  version := "0.1.0"
  argsUsage := ""
  flags := [configFlag, verbosityFlag Config.defaults.log.verbosity]
  commands := [compileCommand, dumpConfigCommand]

/-- The settings of a command: the defaults, the configuration file and the flags; log
records are shown up to the verbosity from then on. -/
def commandSettings (global own : FlagSet) : Session Config := do
  let file := if own.isSet "config" then own.text "config" else global.text "config"
  let c ← if file.isEmpty then pure Config.defaults else loadConfigFile file
  let c := if own.isSet "verbosity" then { c with log.verbosity := own.number "verbosity" }
    else if global.isSet "verbosity" then { c with log.verbosity := global.number "verbosity" }
    else c
  let c := if own.isSet "template" then { c with compiler.template := own.text "template" } else c
  let c := if own.isSet "fold" then { c with compiler.foldCase := own.switch "fold" } else c
  let c := if own.isSet "seed" then { c with runtime.seed := own.number "seed" } else c
  setVerbosity c.log.verbosity
  pure c

/-- The compile options of a configuration, with the template file read. -/
def compileOptions (c : Config) : Session Compiler.CompileOptions := do
  let template ← if c.compiler.template.isEmpty then pure none
    else match ← readBytes c.compiler.template with
      | .ok bytes => pure (some bytes)
      | .error e => fail ("reading template: " ++ e.message)
  pure ⟨template, c.compiler.runtimeClass, c.compiler.classVersion, c.compiler.defaultArraySize,
    c.compiler.foldCase⟩

/-- Where the class compiled from a source file goes: beside the source (as an absolute
path), or in the output directory when one is set. -/
def classPath (cwd source outputDir : String) : String :=
  let full := Files.absolutePath cwd source
  let dir := if outputDir.isEmpty then Files.dirName full else outputDir
  Files.joinPath [dir, Files.classNameOf full ++ ".class"]

/-- The `compile` command, folding case with the upper-casing `upper`. -/
def compileAction (upper : Char → List Char) (global own : FlagSet) : Session Unit := do
  let file ← match own.args with
    | [file] => pure file
    | _ => fail "compile needs exactly one source file"
  let c ← commandSettings global own
  let src ← match ← readBytes file with
    | .ok bytes => pure (Text.ofUtf8 bytes)
    | .error e => fail e.message
  let opts ← compileOptions c
  if own.switch "list" then
    let listed := if opts.foldCase then Source.foldCase upper src else src
    match Syntax.parseProgram listed with
    | .ok prog => say prog.listing
    | .error e => fail (file ++ ": " ++ e.message)
  let className := Files.classNameOf file
  let compiled := Compiler.compile upper src className opts
  logRecords compiled.logs
  let bytes ← match compiled.result with
    | .ok bytes => pure bytes
    | .error e => fail (file ++ ": " ++ e.message)
  if own.switch "run" then
    runClass bytes (runOptions c (← get).input)
  else
    let cwd := (← get).disk.cwd
    let out := own.text "out"
    let out := if out.isEmpty then classPath cwd file c.compiler.outputDir else out
    match ← writeBytes out bytes with
    | .error e => fail e.message
    | .ok () =>
      logRecord ⟨.debug, "Wrote class file",
        [("path", .text out), ("class", .text className), ("bytes", .int bytes.length)]⟩
      say (out ++ "\n")

/-- The `dumpconfig` command. -/
def dumpConfigAction (global own : FlagSet) : Session Unit := do
  let c ← commandSettings global own
  match own.args with
  | [] => say c.render
  | file :: _ =>
    match ← writeBytes file (Text.encodeUtf8 c.render) with
    | .error e => fail e.message
    | .ok () => pure ()

/-- Run the compiler program on its arguments, folding case with the upper-casing `upper`. -/
def compilerMain (upper : Char → List Char) (args : List String) : Session Unit :=
  compilerApp.start args (fun global name own =>
    if name == compileCommand.name then compileAction upper global own
    else dumpConfigAction global own) none

end BasicJvm.Tools
