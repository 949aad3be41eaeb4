import BasicJvm.Toml.Grammar
import BasicJvm.Toml.Datetime
import BasicJvm.Compiler.Compile
import BasicJvm.Machine.Run
import BasicJvm.Number.Reading

/-!
# The configuration of the tools

The tools read a TOML file with three sections: `[Compiler]` (template file, runtime class,
class version, default array size, case folding, output directory), `[Runtime]` (seed, print
zone width, step limit) and `[Log]` (verbosity, colour).  A file changes only the keys it
sets; the rest keep their defaults (`Config.defaults`).

Reading a file into a configuration (`Config.read`) takes three checks, in this order.

* The text must be TOML, and must build a document without conflicting keys or tables.
* Every section and key must be one of the configuration's, and every value must fit its
  key: a string for a text, a boolean for a flag, an integer in range for a number (the class
  version is a 16-bit number without sign; the others are 64-bit numbers with a sign).  A
  problem names the line, and for a value also the key, as `(config.Compiler.FoldCase)`.
* The values must make sense: a class version of zero (the default) or at least 45, and no
  negative default array size or zone width.

`Config.render` writes a configuration back as TOML, every key with its value except an
empty template or output directory.
-/

-- Powers use the core `NatPow` instance also where an algebra library is loaded, so that
-- the definitions below elaborate to the same terms in every build.
attribute [local instance (high)] instPowNat

namespace BasicJvm.Tools

open BasicJvm.Toml

/-- The `[Compiler]` section. -/
structure CompilerSection where
  template : String
  runtimeClass : String
  classVersion : Nat
  defaultArraySize : Int
  foldCase : Bool
  outputDir : String
  deriving DecidableEq, Repr

/-- The `[Runtime]` section. -/
structure RuntimeSection where
  seed : Int
  printZoneWidth : Int
  maxSteps : Int
  deriving DecidableEq, Repr

/-- The `[Log]` section. -/
structure LogSection where
  verbosity : Int
  color : Bool
  deriving DecidableEq, Repr

/-- The configuration of the tools. -/
structure Config where
  compiler : CompilerSection
  runtime : RuntimeSection
  log : LogSection
  deriving DecidableEq, Repr

/-- The configuration when no file sets anything. -/
def Config.defaults : Config :=
  ⟨⟨"", Compiler.defaultRuntimeClass, 0, 10, false, ""⟩, ⟨0, Vm.defaultZoneWidth, 0⟩,
    ⟨3, true⟩⟩

/-! ## Keys and their values -/

/-- What a key holds. -/
inductive FieldKind where
  | text
  | flag
  /-- A 64-bit number with a sign, under the type name messages give it. -/
  | signed (typeName : String)
  /-- A 16-bit number without a sign. -/
  | unsigned16
  deriving DecidableEq, Repr

/-- The type name of a kind in messages. -/
def FieldKind.typeName : FieldKind → String
  | .text => "string"
  | .flag => "bool"
  | .signed n => n
  | .unsigned16 => "uint16"

/-- A value set by a key. -/
inductive Setting where
  | text (s : String)
  | flag (b : Bool)
  | number (n : Int)
  deriving DecidableEq, Repr

/-- A key of a section: its name, what it holds and how it sets the configuration. -/
structure Field where
  name : String
  kind : FieldKind
  set : Config → Setting → Config

/-- The text of a setting, or the empty text. -/
def Setting.textOr : Setting → String
  | .text s => s
  | _ => ""

/-- The flag of a setting, or false. -/
def Setting.flagOr : Setting → Bool
  | .flag b => b
  | _ => false

/-- The number of a setting, or zero. -/
def Setting.numberOr : Setting → Int
  | .number n => n
  | _ => 0

/-- The sections, each with its name and keys in the order the configuration lists them. -/
def sections : List (String × List Field) :=
  [("Compiler", [
      ⟨"Template", .text, fun c v => { c with compiler.template := v.textOr }⟩,
      ⟨"RuntimeClass", .text, fun c v => { c with compiler.runtimeClass := v.textOr }⟩,
      ⟨"ClassVersion", .unsigned16, fun c v => { c with compiler.classVersion := v.numberOr.toNat }⟩,
      ⟨"DefaultArraySize", .signed "int", fun c v => { c with compiler.defaultArraySize := v.numberOr }⟩,
      ⟨"FoldCase", .flag, fun c v => { c with compiler.foldCase := v.flagOr }⟩,
      ⟨"OutputDir", .text, fun c v => { c with compiler.outputDir := v.textOr }⟩]),
    ("Runtime", [
      ⟨"Seed", .signed "int64", fun c v => { c with runtime.seed := v.numberOr }⟩,
      ⟨"PrintZoneWidth", .signed "int", fun c v => { c with runtime.printZoneWidth := v.numberOr }⟩,
      ⟨"MaxSteps", .signed "int64", fun c v => { c with runtime.maxSteps := v.numberOr }⟩]),
    ("Log", [
      ⟨"Verbosity", .signed "int", fun c v => { c with log.verbosity := v.numberOr }⟩,
      ⟨"Color", .flag, fun c v => { c with log.color := v.flagOr }⟩])]

/-- The problem of a key that the configuration does not have, in a table of a type. -/
def missingField (key typeName : String) : String :=
  "field '" ++ key ++ "' is not defined in config." ++ typeName ++
    ", see https://pkg.go.dev/gobasic/pkg/config#" ++ typeName ++ " for available fields"

/-- The problem of a value of the wrong kind for a type. -/
def typeMismatch (v : Value) (typeName : String) : String :=
  "cannot unmarshal TOML " ++ v.kindName ++ " into " ++ typeName ++
    match v with
    | .array _ => " (need slice)"
    | _ => ""

/-- The problem of a value that a key of a type cannot take: a float out of range, a date or
time out of range, or else a value of the wrong kind. -/
def valueProblem (v : Value) (typeName : String) : String :=
  match v with
  | .float text =>
    match Number.readNumber Number.Format.binary64 text with
    | none => "strconv.ParseFloat: parsing " ++ Text.quote text ++ ": value out of range"
    | some _ => typeMismatch v typeName
  | .datetime text => (datetimeProblem text).getD (typeMismatch v typeName)
  | _ => typeMismatch v typeName

/-- The digits of an integer's text and whether it has a sign, and which. -/
def splitSign (text : String) : Option Char × String :=
  match text.toList with
  | c :: rest => if c == '-' || c == '+' then (some c, String.ofList rest) else (none, text)
  | [] => (none, text)

/-- The setting of a value for a kind of key, or the problem. -/
def decodeValue (kind : FieldKind) (v : Value) : Except String Setting :=
  match v, kind with
  | .string s, .text => .ok (.text s)
  | .boolean b, .flag => .ok (.flag b)
  | .integer text, .signed name =>
    let (sign, digits) := splitSign text
    let magnitude : Int := (digits.toNat?).getD 0
    let n := if sign == some '-' then -magnitude else magnitude
    if n < -2 ^ (63 : Nat) || 2 ^ (63 : Nat) ≤ n then .error ("value " ++ text ++ " is out of range for " ++ name)
    else .ok (.number n)
  | .integer text, .unsigned16 =>
    match splitSign text with
    | (some _, _) => .error ("strconv.ParseUint: parsing " ++ Text.quote text ++ ": invalid syntax")
    | (none, digits) =>
      let n := (digits.toNat?).getD 0
      if 65536 ≤ n then .error ("value " ++ text ++ " is out of range for uint16")
      else .ok (.number n)
  | v, kind => .error (valueProblem v kind.typeName)

/-- A problem at a line, for a key of a section. -/
def fieldProblem (line : Nat) (sectionName key message : String) : LineProblem :=
  ⟨line, "(config." ++ sectionName ++ "." ++ key ++ ") " ++ message⟩

/-- Set the keys of a section from the fields of its table. -/
def decodeSection (name : String) (fields : List Field) (c : Config) :
    List (String × Node) → Except LineProblem Config
  | [] => .ok c
  | (key, node) :: rest => do
    match fields.find? (·.name == key) with
    | none => throw ⟨node.line, missingField key name⟩
    | some f =>
      let c ← match node with
        | .keyValue v line =>
          match decodeValue f.kind v with
          | .ok s => pure (f.set c s)
          | .error m => throw (fieldProblem line name key m)
        | .table line _ _ =>
          throw ⟨line, "cannot unmarshal TOML table into " ++ f.kind.typeName ++ " (need struct or map)"⟩
        | .tables _ =>
          throw (fieldProblem node.line name key
            ("cannot unmarshal TOML array table into " ++ f.kind.typeName ++ " (need slice)"))
      decodeSection name fields c rest

/-- Set the sections of a configuration from the fields of a document. -/
def decodeDocument (c : Config) : List (String × Node) → Except LineProblem Config
  | [] => .ok c
  | (name, node) :: rest => do
    match sections.lookup name with
    | none => throw ⟨node.line, missingField name "Config"⟩
    | some fields =>
      let typeName := "config." ++ name
      let c ← match node with
        | .keyValue v line => throw (fieldProblem line "Config" name (valueProblem v typeName))
        | .table _ _ fs => decodeSection name fields c fs
        | .tables _ =>
          throw (fieldProblem node.line "Config" name
            ("cannot unmarshal TOML array table into " ++ typeName ++ " (need slice)"))
      decodeDocument c rest

/-- Why a configuration cannot be read. -/
inductive ConfigError where
  /-- The text is not TOML. -/
  | malformed (line : Nat)
  /-- A problem at a line of the text. -/
  | atLine (p : LineProblem)
  /-- A value that makes no sense. -/
  | invalid (message : String)
  deriving DecidableEq, Repr

/-- The text of a configuration problem. -/
def ConfigError.message : ConfigError → String
  | .malformed line => "line " ++ toString line ++ ": invalid TOML syntax"
  | .atLine p => "line " ++ toString p.line ++ ": " ++ p.message
  | .invalid m => m

/-- Whether a problem is placed at a line of the text. -/
def ConfigError.hasLine : ConfigError → Bool
  | .invalid _ => false
  | _ => true

/-- The least class version a JVM runs. -/
def minClassVersion : Nat := 45

/-- Check that the values make sense. -/
def Config.validate (c : Config) : Except ConfigError Config :=
  if c.compiler.classVersion != 0 && c.compiler.classVersion < minClassVersion then
    .error (.invalid ("Compiler.ClassVersion " ++ toString c.compiler.classVersion ++
      " is older than any JVM"))
  else if c.compiler.defaultArraySize < 0 then
    .error (.invalid "Compiler.DefaultArraySize must not be negative")
  else if c.runtime.printZoneWidth < 0 then
    .error (.invalid "Runtime.PrintZoneWidth must not be negative")
  else .ok c

/-- Read a TOML text over a configuration. -/
def Config.read (base : Config) (text : String) : Except ConfigError Config := do
  let sts ← (statements text).mapError .malformed
  let root ← (build sts).mapError .atLine
  let c ← (decodeDocument base root).mapError .atLine
  c.validate

/-- The TOML text of a configuration. -/
def Config.render (c : Config) : String :=
  let line (key value : String) := key ++ " = " ++ value ++ "\n"
  let text (s : String) := Text.quote s
  let flag (b : Bool) := if b then "true" else "false"
  "[Compiler]\n" ++
    (if c.compiler.template.isEmpty then "" else line "Template" (text c.compiler.template)) ++
    line "RuntimeClass" (text c.compiler.runtimeClass) ++
    line "ClassVersion" (toString c.compiler.classVersion) ++
    line "DefaultArraySize" (toString c.compiler.defaultArraySize) ++
    line "FoldCase" (flag c.compiler.foldCase) ++
    (if c.compiler.outputDir.isEmpty then "" else line "OutputDir" (text c.compiler.outputDir)) ++
  "\n[Runtime]\n" ++
    line "Seed" (toString c.runtime.seed) ++
    line "PrintZoneWidth" (toString c.runtime.printZoneWidth) ++
    line "MaxSteps" (toString c.runtime.maxSteps) ++
  "\n[Log]\n" ++
    line "Verbosity" (toString c.log.verbosity) ++
    line "Color" (flag c.log.color)

end BasicJvm.Tools
