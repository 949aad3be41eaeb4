import BasicJvm.Console.Session
import BasicJvm.Console.Table
import BasicJvm.Compiler.Compile
import BasicJvm.Syntax.Listing
import BasicJvm.Bytecode.Decode
import BasicJvm.Machine.Format
import BasicJvm.Text.Utf8

/-!
# The stage dump

`basdump [file.bas]` shows every stage of compiling a program, in order: the source, its
tokens, the parsed listing, the intents of the first pass, the slots, arrays, branch targets
and DATA pool of the symbol table, and the disassembled `run` method of the class.  Without
an argument it shows a small sample program, compiled as the class `Demo`; with one it reads
that file and names the class after it.  It reads no flags.

Each stage that fails ends the dump with a line on standard error naming the stage
(`read error:`, `tokenize error:`, `parse error:`, `codegen error:`, `emit error:`, …) and
status 1; what the stages before it showed stays on standard output.
-/

namespace BasicJvm.Tools

open BasicJvm.Console

/-- The program shown when no file is named. -/
def sampleSource : String :=
  "10 FOR I = 1 TO 3\n20 GOSUB 100\n30 NEXT I\n40 END\n100 PRINT I\n110 RETURN\n"

/-- Stop the dump at a failed stage. -/
def stageFailed {α : Type} (stage message : String) : Session α :=
  stopWith 1 (stage ++ " error: " ++ message)

/-- The truth value as a table shows it. -/
def truthText (b : Bool) : String := if b then "true" else "false"

/-- The table of tokens. -/
def tokenTable (tokens : List Source.Token) : Table :=
  ⟨["Line", "Type", "Lexeme"],
    tokens.map fun t => [toString t.line, t.kind.label, Text.quote t.text]⟩

/-- The table of slots. -/
def slotTable (syms : Compiler.Symbols) : Table :=
  ⟨["Slot", "Name", "Descriptor", "Hidden"],
    syms.slots.toList.map fun s => [toString s.index, s.key, s.descriptor, truthText s.hidden]⟩

/-- The table of arrays. -/
def arrayTable (syms : Compiler.Symbols) : Table :=
  ⟨["Name", "Dims", "DIM", "Line"],
    syms.arrays.map fun (_, a) => [a.dim.name, toString a.dim.dims, truthText a.dimmed, a.label]⟩

/-- The table of branch targets. -/
def targetTable (syms : Compiler.Symbols) : Table :=
  ⟨["Line"], syms.liveTargets.map fun l => [l]⟩

/-- A DATA constant as the pool table shows it. -/
def dataText : Syntax.DataValue → String
  | .number v => Vm.formatNumber v
  | .text s => Text.quote s

/-- The table of the DATA pool: each constant's offset, the line whose constants start
there, and the constant. -/
def dataTable (syms : Compiler.Symbols) : Table :=
  ⟨["Offset", "Line", "Value"],
    (syms.data.toList.zipIdx).map fun (v, i) =>
      [toString i, ((syms.marks.find? (·.2 == i)).map fun (n, _) => toString n).getD "",
        dataText v]⟩

/-- Show a table under a title, with a blank line after it. -/
def showTable (title : String) (t : Table) : Session Unit :=
  say (title ++ "\n" ++ t.render ++ "\n")

/-- Show the symbol table of a plan. -/
def showSymbols (syms : Compiler.Symbols) : Session Unit := do
  showTable "Slots" (slotTable syms)
  if !syms.arrays.isEmpty then showTable "Arrays" (arrayTable syms)
  showTable "Branch targets" (targetTable syms)
  if !syms.data.isEmpty then showTable "DATA" (dataTable syms)

/-- Dump the stages of compiling a program. -/
def dumpMain (args : List String) : Session Unit := do
  let (src, className) ← match args with
    | [] => pure (sampleSource, "Demo")
    | file :: _ =>
      match ← readBytes file with
      | .ok bytes => pure (Text.ofUtf8 bytes, Files.classNameOf file)
      | .error e => stopWith 1 ("read error: " ++ e.message)
  say ("Source:\n" ++ src ++ "\n")
  let tokens ← match Source.tokenize src with
    | (tokens, none) => pure tokens
    | (_, some e) => stageFailed "tokenize" e.message
  showTable ("Tokens (" ++ toString tokens.length ++ ")") (tokenTable tokens)
  let prog ← match Syntax.parseProgram src with
    | .ok prog => pure prog
    | .error e => stageFailed "parse" e.message
  say ("AST\n" ++ prog.listing ++ "\n")
  let plan ← match Compiler.generate prog ⟨0⟩ with
    | .ok (plan, _) => pure plan
    | .error e => stageFailed "codegen" e.message
  say ("Intents\n" ++ plan.dump ++ "\n")
  showSymbols plan.syms
  let template ← match ClassFile.builtinTemplate Compiler.defaultRuntimeClass ClassFile.defaultMajor with
    | .ok t => pure t
    | .error e => stageFailed "template" ("building template: " ++ e.message)
  let bytes ← match plan.emit className template with
    | .ok (bytes, _) => pure bytes
    | .error e => stageFailed "emit" e.message
  let cf ← match ClassFile.parseClass bytes with
    | .ok cf => pure cf
    | .error e => stageFailed "class" e.message
  let code ← match cf.methodCode "run" "()V" with
    | .ok code => pure code
    | .error e => stageFailed "class" e.message
  let listing ← match Bytecode.disassemble code.code cf.pool with
    | .ok text => pure text
    | .error e => stageFailed "disassemble" e.message
  say (className ++ ".run()V (" ++ toString bytes.length ++ " bytes, max stack " ++
    toString code.maxStack ++ ", max locals " ++ toString code.maxLocals ++ ")\n" ++ listing)

end BasicJvm.Tools
