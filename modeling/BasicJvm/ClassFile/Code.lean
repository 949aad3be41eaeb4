import BasicJvm.ClassFile.Reader
import BasicJvm.ClassFile.Writer

/-!
# Method code and editing classes

A method's Code attribute holds the operand stack and local variable limits, the bytecode,
the exception table and attributes of its own (such as a stack map table).  `parseCode`
and `Code.bytes` read and write its payload; a body must have from 1 to 65535 bytes.

Two edits make a program out of a template class:

* `ParsedClass.rename` gives the class a new name.  The Class entry gets the name's Utf8
  entry (an existing one when there is one), so other uses of the old text stay as they
  are, and every Utf8 entry mentioning `Lold;` has it replaced by `Lnew;`, so descriptors
  follow.  A name that is empty or has `.`, `;` or `[` is refused.
* `ParsedClass.setMethodCode` replaces the Code attribute of an existing method.  A method
  without one is abstract or native and cannot get one.
-/

-- The infix test is the core one also where an algebra library is loaded, so that the
-- definitions below elaborate to the same terms in every build.
attribute [local instance (high)] List.instDecidableIsInfixOfDecidableEq

namespace BasicJvm.ClassFile

/-- A row of an exception table. -/
structure ExceptionEntry where
  startPc : Nat
  endPc : Nat
  handlerPc : Nat
  catchType : Nat
  deriving DecidableEq, Repr, Inhabited

/-- The payload of a Code attribute. -/
structure Code where
  maxStack : Nat
  maxLocals : Nat
  code : List UInt8
  exceptions : List ExceptionEntry
  attributes : List Attribute
  deriving DecidableEq, Repr, Inhabited

/-- One row of an exception table. -/
def readExceptionEntry : ReadM ExceptionEntry := do
  let startPc ← readU2
  let endPc ← readU2
  let handlerPc ← readU2
  let catchType ← readU2
  return ⟨startPc, endPc, handlerPc, catchType⟩

/-- The fields of a Code attribute's payload. -/
def readCode : ReadM Code := do
  let maxStack ← readU2
  let maxLocals ← readU2
  let code ← takeBytes (← readU4)
  let exceptions ← readMany readExceptionEntry (← readU2)
  let attributes ← readAttributes
  return ⟨maxStack, maxLocals, code, exceptions, attributes⟩

/-- The Code attribute of a payload; bytes after its attributes are ignored. -/
def parseCode (data : List UInt8) : Except ClassError Code :=
  match readCode.run ⟨data, 0⟩ with
  | .ok (c, _) => .ok c
  | .error e => .error (.codeAttribute e)

/-- The payload of a Code attribute. -/
def Code.bytes (c : Code) : Except ClassError (List UInt8) := do
  if c.code.isEmpty || c.code.length > 65535 then throw (.bodySize c.code.length)
  let attributes ← attributesBytes c.attributes
  pure (u2 c.maxStack ++ u2 c.maxLocals ++ u4 c.code.length ++ c.code ++
    u2 c.exceptions.length ++
    c.exceptions.flatMap (fun e => u2 e.startPc ++ u2 e.endPc ++ u2 e.handlerPc ++
      u2 e.catchType) ++
    attributes)

/-- The Code attribute of a method. -/
def ParsedClass.methodCode (cf : ParsedClass) (name desc : String) : Except ClassError Code := do
  let (_, m) ← cf.findMethod name desc
  match cf.findAttribute m.attributes "Code" with
  | some i => parseCode (m.attributes.getD i default).data
  | none => throw (.noCode name desc)

/-- The class with the Code attribute of a method replaced. -/
def ParsedClass.setMethodCode (cf : ParsedClass) (name desc : String) (code : Code) :
    Except ClassError ParsedClass := do
  let (mi, m) ← cf.findMethod name desc
  let data ← match code.bytes with
    | .ok d => pure d
    | .error e => throw (.inMethod name desc e)
  let (pool, codeName) := cf.pool.addUtf8 "Code"
  let cf := { cf with pool }
  match cf.findAttribute m.attributes "Code" with
  | some ai =>
    let m := { m with attributes := m.attributes.set ai ⟨codeName, data⟩ }
    pure { cf with methods := cf.methods.set mi m }
  | none => throw (.abstractMethod name desc)

/-- The characters with every occurrence of `old` replaced by `new`, taken from the left and
without overlaps, after skipping `skip` characters that the last occurrence still covers.  An
empty `old` occurs before every character and at the end. -/
def replaceFrom (old new : List Char) : Nat → List Char → List Char
  | _, [] => if old.isEmpty then new else []
  | skip + 1, _ :: cs => replaceFrom old new skip cs
  | 0, c :: cs =>
    if old.isEmpty then new ++ c :: replaceFrom old new 0 cs
    else if old <+: c :: cs then new ++ replaceFrom old new (old.length - 1) cs
    else c :: replaceFrom old new 0 cs

/-- The text with every occurrence of `old` replaced by `new`. -/
def replaceAll (s old new : String) : String :=
  String.ofList (replaceFrom old.toList new.toList 0 s.toList)

/-- The class under a new name. -/
def ParsedClass.rename (cf : ParsedClass) (newName : String) : Except ClassError ParsedClass := do
  if newName.isEmpty || newName.any (fun c => c == '.' || c == ';' || c == '[') then
    throw (.invalidClassName newName)
  let old ← cf.name
  if old == newName then return cf
  let oldRef := "L" ++ old ++ ";"
  let newRef := "L" ++ newName ++ ";"
  let entries := cf.pool.entries.map fun c =>
    match c with
    | .utf8 s => if oldRef.toList <:+: s.toList then .utf8 (replaceAll s oldRef newRef) else c
    | _ => c
  let (pool, nameIndex) := Pool.addUtf8 ⟨entries⟩ newName
  let pool := ⟨pool.entries.modify cf.thisClass fun c =>
    match c with
    | .classRef _ => .classRef nameIndex
    | _ => c⟩
  return { cf with pool }

end BasicJvm.ClassFile
