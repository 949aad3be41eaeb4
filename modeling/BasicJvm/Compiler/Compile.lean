import BasicJvm.Compiler.Emit
import BasicJvm.Syntax.Parser
import BasicJvm.Source.Fold

/-!
# Compiling a program

`compile` runs the whole pipeline on BASIC source: case folding when asked, parsing, the
first pass, the template (the one given, or the built-in one for the runtime class and
class file version) and the second pass.  Besides the class file or the error it gives the
log records written along the way, also when it fails part way.
-/

namespace BasicJvm.Compiler

open BasicJvm.ClassFile

/-- The superclass of the built-in template when none is named. -/
def defaultRuntimeClass : String := "BasRuntime"

/-- What a compilation is asked to do. -/
structure CompileOptions where
  /-- The class file to patch; none selects the built-in template. -/
  template : Option (List UInt8)
  /-- The superclass of the built-in template; empty for `BasRuntime`. -/
  runtimeClass : String
  /-- The major version of the built-in template; zero for Java 8. -/
  classVersion : Nat
  /-- The length of arrays used without `DIM`; zero or less for 10. -/
  defaultArraySize : Int
  /-- Whether the source is folded to upper case outside texts first. -/
  foldCase : Bool
  deriving Inhabited

/-- The template a compilation patches. -/
def CompileOptions.templateBytes (o : CompileOptions) : Except ClassError (List UInt8) :=
  let runtime := if o.runtimeClass.isEmpty then defaultRuntimeClass else o.runtimeClass
  match o.template with
  | some t => .ok t
  | none => builtinTemplate runtime (if o.classVersion == 0 then defaultMajor else o.classVersion)

/-- Why a compilation failed. -/
inductive CompileError where
  | parse (e : Syntax.ParseError)
  | gen (e : CodeGenError)
  | template (e : ClassError)

/-- The message of a compilation failure. -/
def CompileError.message : CompileError → String
  | .parse e => e.message
  | .gen e => e.message
  | .template e => "building template: " ++ e.message

/-- The outcome of a compilation: the log records written, and the class file or the
error. -/
structure Compiled where
  logs : List Log.Record
  result : Except CompileError (List UInt8)

/-- Compile source into the bytes of a class named `className`; `upper` gives the upper case
of a character when the source is folded. -/
def compile (upper : Char → List Char) (src className : String) (opts : CompileOptions) :
    Compiled :=
  let src := if opts.foldCase then Source.foldCase upper src else src
  match Syntax.parseProgram src with
  | .error e => ⟨[], .error (.parse e)⟩
  | .ok prog =>
    match generate prog ⟨opts.defaultArraySize⟩ with
    | .error e => ⟨[], .error (.gen e)⟩
    | .ok (plan, planned) =>
      match opts.templateBytes with
      | .error e => ⟨[planned], .error (.template e)⟩
      | .ok template =>
        match plan.emit className template with
        | .error e => ⟨[planned], .error (.gen e)⟩
        | .ok (out, records) =>
          let done : Log.Record := ⟨.info, "Compiled program",
            [("class", .text className), ("lines", .int prog.lines.length),
             ("bytes", .int out.length)]⟩
          ⟨planned :: records ++ [done], .ok out⟩

end BasicJvm.Compiler
