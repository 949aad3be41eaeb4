import BasicJvm.ClassFile.Code

/-!
# The built-in template class

A compiled program is a class `BasProgram` (renamed afterwards) that extends the runtime
class, so the program reaches its helpers as inherited methods.  The template has three
methods:

* `<init>()V` calls the runtime class's constructor;
* `main([Ljava/lang/String;)V` creates an instance and calls `run()V` on it;
* `run()V` returns at once; the compiler replaces its body.

The constant pool is built in a fixed order, so the template's bytes depend only on the
runtime class's name and the major version.  Versions before 45 are refused.
-/

namespace BasicJvm.ClassFile

/-- The internal name of the template class. -/
def templateName : String := "BasProgram"

/-- The class file version of the default template (Java 8). -/
def defaultMajor : Nat := 52

/-- The oldest class file version a template may have. -/
def minMajor : Nat := 45

/-- The two bytes of a pool index in an instruction. -/
def indexBytes (i : Nat) : List UInt8 := [(i / 256 % 256).toUInt8, (i % 256).toUInt8]

/-- The template class for a runtime class and a major version. -/
def builtinTemplateClass (runtimeClass : String) (major : Nat) :
    Except ClassError ParsedClass := do
  if major < minMajor then throw (.unsupportedVersion major)
  let p := Pool.empty
  let (p, thisClass) := p.addClass templateName
  let (p, superClass) := p.addClass runtimeClass
  let (p, superInit) := p.addMethodref runtimeClass "<init>" "()V"
  let (p, thisInit) := p.addMethodref templateName "<init>" "()V"
  let (p, run) := p.addMethodref templateName "run" "()V"
  let methods : List (Nat × String × String × Code) :=
    [(accPublic, "<init>", "()V",
      ⟨1, 1, [0x2a, 0xb7] ++ indexBytes superInit ++ [0xb1], [], []⟩),
     (accPublic + accStatic, "main", "([Ljava/lang/String;)V",
      ⟨2, 1, [0xbb] ++ indexBytes thisClass ++ [0x59, 0xb7] ++ indexBytes thisInit ++
        [0xb6] ++ indexBytes run ++ [0xb1], [], []⟩),
     (accPublic, "run", "()V", ⟨0, 1, [0xb1], [], []⟩)]
  let (p, codeName) := p.addUtf8 "Code"
  let (p, members) := methods.foldl (fun (acc : Pool × List Member) (access, name, desc, code) =>
    let (p, ms) := acc
    let (p, n) := p.addUtf8 name
    let (p, d) := p.addUtf8 desc
    -- every body here is short, so writing it cannot fail
    let data := (code.bytes).toOption.getD []
    (p, ms ++ [⟨access, n, d, [⟨codeName, data⟩]⟩])) (p, [])
  return ⟨0, major % 65536, p, accPublic + accSuper, thisClass, superClass, [], [], members, []⟩

/-- The bytes of the template class for a runtime class and a major version. -/
def builtinTemplate (runtimeClass : String) (major : Nat) : Except ClassError (List UInt8) := do
  (← builtinTemplateClass runtimeClass major).bytes

end BasicJvm.ClassFile
