import BasicJvm.Bytecode.Opcode

/-!
# Value types and built-in functions

BASIC has two value types, numbers and texts; a variable whose name ends in `$` holds text.
Numbers are JVM floats (`F`) and texts are `java/lang/String` objects.

The built-in functions are a fixed table.  A call is resolved by name, then by the number
of arguments, then by their types, and the first entry that fits is taken.  Each entry also
says how a call is compiled:

* a *runtime* function is a method `fnNAME` of the program's own class, which it inherits
  from the runtime class (`$` in a name is spelled `_DOLLAR`);
* a *static* function is a static JDK method;
* a *virtual* function is a JDK method called on its first argument.

`before` and `after` are the conversions around the call, such as widening a float to a
double for `Math.sqrt`.
-/

namespace BasicJvm.Syntax

open BasicJvm.Bytecode

/-- The two value types. -/
inductive ValueType where
  /-- Numbers, JVM floats. -/
  | number
  /-- Texts, JVM strings. -/
  | text
  deriving DecidableEq, Repr, Inhabited

/-- The name of a value type in messages. -/
def ValueType.label : ValueType → String
  | .number => "FLOAT"
  | .text => "STRING"

/-- The JVM field descriptor of a value type. -/
def ValueType.descriptor : ValueType → String
  | .number => "F"
  | .text => "Ljava/lang/String;"

/-- The type of a variable, read off its name: text when it ends in `$`. -/
def ValueType.ofName (name : String) : ValueType :=
  if name.endsWith "$" then .text else .number

/-- How a built-in function is called. -/
inductive CallKind where
  | runtime
  | static
  | virtual
  deriving DecidableEq, Repr, Inhabited

/-- The name of a call kind. -/
def CallKind.label : CallKind → String
  | .runtime => "runtime"
  | .static => "static"
  | .virtual => "virtual"

/-- A built-in function. -/
structure Builtin where
  name : String
  result : ValueType
  params : List ValueType
  kind : CallKind
  /-- The JDK class of a static or virtual function. -/
  owner : String
  /-- The JDK method of a static or virtual function. -/
  method : String
  /-- The JDK method descriptor of a static or virtual function. -/
  desc : String
  /-- Conversions applied to the argument before the call. -/
  before : List Opcode
  /-- Conversions applied to the result after the call. -/
  after : List Opcode
  deriving DecidableEq, Repr, Inhabited

/-- The method of the runtime class that implements a runtime function. -/
def Builtin.runtimeMethod (f : Builtin) : String :=
  "fn" ++ f.name.replace "$" "_DOLLAR"

/-- The JVM method descriptor of a call. -/
def Builtin.descriptor (f : Builtin) : String :=
  match f.kind with
  | .runtime =>
    "(" ++ String.join (f.params.map ValueType.descriptor) ++ ")" ++ f.result.descriptor
  | _ => f.desc

/-- A function of the runtime class. -/
def runtimeBuiltin (name : String) (result : ValueType) : Builtin :=
  ⟨name, result, [.number], .runtime, "", "", "", [], []⟩

/-- A `java/lang/Math` function on doubles, with the float widened before and narrowed
after. -/
def mathBuiltin (name method : String) : Builtin :=
  ⟨name, .number, [.number], .static, "java/lang/Math", method, "(D)D", [.f2d], [.d2f]⟩

/-- The built-in functions, searched in order. -/
def builtins : List Builtin :=
  [runtimeBuiltin "INT" .number,
   runtimeBuiltin "SIN" .number,
   runtimeBuiltin "RND" .number,
   runtimeBuiltin "TAB" .text,
   ⟨"ABS", .number, [.number], .static, "java/lang/Math", "abs", "(F)F", [], []⟩,
   ⟨"SGN", .number, [.number], .static, "java/lang/Math", "signum", "(F)F", [], []⟩,
   mathBuiltin "SQR" "sqrt",
   mathBuiltin "EXP" "exp",
   mathBuiltin "LOG" "log",
   mathBuiltin "ATN" "atan",
   ⟨"LEN", .number, [.text], .virtual, "java/lang/String", "length", "()I", [], [.i2f]⟩,
   ⟨"VAL", .number, [.text], .static, "java/lang/Float", "parseFloat",
     "(Ljava/lang/String;)F", [], []⟩,
   ⟨"CHR$", .text, [.number], .static, "java/lang/String", "valueOf",
     "(C)Ljava/lang/String;", [.f2i, .i2c], []⟩]

/-- Why a call matches no built-in function. -/
inductive CallError where
  /-- No function has this name. -/
  | unknown (name : String)
  /-- No function of this name takes this many arguments. -/
  | arity (name : String) (count : Nat)
  /-- No function of this name and arity takes arguments of these types. -/
  | types (name : String) (args : List ValueType)
  deriving DecidableEq, Repr

/-- The message of a failed lookup. -/
def CallError.message : CallError → String
  | .unknown name => "unknown function " ++ name
  | .arity name count => name ++ " called with " ++ toString count ++ " arguments"
  | .types name args =>
    name ++ " does not accept (" ++ ", ".intercalate (args.map ValueType.label) ++ ")"

/-- The first built-in function with this name and these argument types. -/
def lookupBuiltin (name : String) (args : List ValueType) : Except CallError Builtin :=
  let named := builtins.filter (·.name == name)
  let sized := named.filter (·.params.length == args.length)
  match sized.find? (·.params == args) with
  | some f => .ok f
  | none =>
    if named.isEmpty then .error (.unknown name)
    else if sized.isEmpty then .error (.arity name args.length)
    else .error (.types name args)

end BasicJvm.Syntax
