import BasicJvm.Text.Quoted

/-!
# Verification types and descriptors

The verifier sees a value as one of a few kinds: `int` (which also covers booleans, bytes,
chars and shorts), `float`, `double`, the null reference, or an object of a named class.
An array is an object whose class is its descriptor, such as `[F` or `[[Ljava/lang/String;`.
Only doubles take two slots.  Unset locals are `top`.

A field descriptor is one type: a base letter, `Lname;` with a non-empty name, or some `[`
followed by an element type.  A method descriptor is `(` argument types `)` and a return
type or `V`.  Longs (`J`) are not supported.
-/

namespace BasicJvm.Bytecode

/-- A verification type. -/
inductive VType where
  | top
  | int
  | float
  | double
  | null
  /-- An object: its internal class name, or an array descriptor. -/
  | object (cls : String)
  deriving DecidableEq, Repr, Inhabited

/-- The number of stack or local slots a value takes. -/
def VType.size : VType → Nat
  | .double => 2
  | _ => 1

/-- Whether a type is a reference: an object or null. -/
def VType.isRef : VType → Bool
  | .object _ | .null => true
  | _ => false

/-- How a type is written in messages. -/
def VType.name : VType → String
  | .top => "top"
  | .int => "int"
  | .float => "float"
  | .double => "double"
  | .null => "null"
  | .object cls => cls

/-- Why a descriptor cannot be read. -/
inductive DescriptorError where
  | empty
  | badClass (desc : String)
  | unsupported (desc : String)
  | trailing (rest desc : String)
  | notArray (name : String)
  | badMethod (desc : String)
  /-- A problem inside the method descriptor `desc`. -/
  | inMethod (desc : String) (inner : DescriptorError)
  deriving DecidableEq, Repr

/-- The message of a descriptor problem. -/
def DescriptorError.message : DescriptorError → String
  | .empty => "empty descriptor"
  | .badClass d => "bad class descriptor " ++ Text.quote d
  | .unsupported d => "unsupported descriptor " ++ Text.quote d
  | .trailing rest d => "trailing " ++ Text.quote rest ++ " in descriptor " ++ Text.quote d
  | .notArray n => n ++ " is not an array"
  | .badMethod d => "bad method descriptor " ++ Text.quote d
  | .inMethod d inner => "method descriptor " ++ Text.quote d ++ ": " ++ inner.message

/-- The first type of a descriptor that does not start with `[`, and the rest. -/
def baseType : List Char → Except DescriptorError (VType × List Char)
  | [] => .error .empty
  | c :: rest =>
    if c == 'I' || c == 'Z' || c == 'B' || c == 'C' || c == 'S' then .ok (.int, rest)
    else if c == 'F' then .ok (.float, rest)
    else if c == 'D' then .ok (.double, rest)
    else if c == 'L' then
      match rest.idxOf? ';' with
      | some e =>
        if e == 0 then .error (.badClass (String.ofList (c :: rest)))
        else .ok (.object (String.ofList (rest.take e)), rest.drop (e + 1))
      | none => .error (.badClass (String.ofList (c :: rest)))
    else .error (.unsupported (String.ofList (c :: rest)))

/-- The first type of a descriptor, and the rest. -/
def nextType (desc : List Char) : Except DescriptorError (VType × List Char) :=
  match desc with
  | '[' :: _ => do
    let (_, rest) ← baseType (desc.dropWhile (· == '['))
    pure (.object (String.ofList (desc.take (desc.length - rest.length))), rest)
  | _ => baseType desc

/-- The type of a field descriptor, which must be one type exactly. -/
def fieldType (desc : String) : Except DescriptorError VType := do
  let (t, rest) ← nextType desc.toList
  if rest.isEmpty then pure t else throw (.trailing (String.ofList rest) desc)

/-- The argument types of a method descriptor up to its `)`, after `acc` (newest first),
at most `fuel` of them. -/
def argumentTypes : Nat → List VType → List Char →
    Except DescriptorError (List VType × List Char)
  | _, acc, ')' :: rest => .ok (acc.reverse, rest)
  | 0, _, rest => .error (if rest.isEmpty then .empty else .unsupported (String.ofList rest))
  | fuel + 1, acc, rest => do
    let (t, rest) ← nextType rest
    argumentTypes fuel (t :: acc) rest

/-- The argument types and the return type (`none` for `V`) of a method descriptor. -/
def methodType (desc : String) : Except DescriptorError (List VType × Option VType) :=
  match desc.toList with
  | '(' :: rest =>
    match argumentTypes rest.length [] rest with
    | .error e => .error (.inMethod desc e)
    | .ok (args, ret) =>
      if ret == ['V'] then .ok (args, none)
      else match fieldType (String.ofList ret) with
        | .ok t => .ok (args, some t)
        | .error e => .error (.inMethod desc e)
  | _ => .error (.badMethod desc)

/-- The element type of an array type. -/
def VType.element (t : VType) : Except DescriptorError VType :=
  match t with
  | .object cls =>
    match cls.toList with
    | '[' :: rest => fieldType (String.ofList rest)
    | _ => .error (.notArray t.name)
  | _ => .error (.notArray t.name)

/-- The array type whose elements are of class `cls`, a class name or an array
descriptor. -/
def arrayOf (cls : String) : VType :=
  if cls.startsWith "[" then .object ("[" ++ cls) else .object ("[L" ++ cls ++ ";")

end BasicJvm.Bytecode
