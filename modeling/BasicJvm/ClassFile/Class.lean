import BasicJvm.ClassFile.Pool

/-!
# Class files

A class file (`ParsedClass`) is a version, a constant pool, access flags, the pool indexes of the class
and its superclass, the interfaces, the fields and methods, and the class's attributes.
Attributes are kept raw, a name index and a payload, so that attributes nobody here reads
are written back untouched.

Methods are looked up by name and descriptor; a method's Code attribute is the first of
its attributes whose name is `Code`.
-/

namespace BasicJvm.ClassFile

/-- The first four bytes of every class file. -/
def magic : Nat := 0xCAFEBABE

/-- The access flag `public`. -/
def accPublic : Nat := 0x0001

/-- The access flag `static`. -/
def accStatic : Nat := 0x0008

/-- The access flag `super`. -/
def accSuper : Nat := 0x0020

/-- The first major version whose verifier needs stack map frames. -/
def versionStackMaps : Nat := 50

/-- An attribute: the pool index of its name and its payload. -/
structure Attribute where
  nameIndex : Nat
  data : List UInt8
  deriving DecidableEq, Repr, Inhabited

/-- A field or method. -/
structure Member where
  access : Nat
  nameIndex : Nat
  descIndex : Nat
  attributes : List Attribute
  deriving DecidableEq, Repr, Inhabited

/-- A class file as read: its version, constant pool, flags, members and attributes. -/
structure ParsedClass where
  minor : Nat
  major : Nat
  pool : Pool
  access : Nat
  thisClass : Nat
  superClass : Nat
  interfaces : List Nat
  fields : List Member
  methods : List Member
  attributes : List Attribute
  deriving DecidableEq, Repr, Inhabited

/-- The internal name of the class. -/
def ParsedClass.name (cf : ParsedClass) : Except ClassError String :=
  cf.pool.className cf.thisClass

/-- The internal name of the superclass. -/
def ParsedClass.superName (cf : ParsedClass) : Except ClassError String :=
  cf.pool.className cf.superClass

/-- The position of the method with this name and descriptor among the methods. -/
def ParsedClass.findMethodAt (cf : ParsedClass) (name desc : String) :
    Nat → List Member → Except ClassError (Nat × Member)
  | _, [] => .error (.methodNotFound name desc)
  | i, m :: rest => do
    let n ← cf.pool.utf8 m.nameIndex
    let d ← cf.pool.utf8 m.descIndex
    if n == name && d == desc then pure (i, m) else cf.findMethodAt name desc (i + 1) rest

/-- The method with this name and descriptor, and its position. -/
def ParsedClass.findMethod (cf : ParsedClass) (name desc : String) :
    Except ClassError (Nat × Member) :=
  cf.findMethodAt name desc 0 cf.methods

/-- The position of the first attribute with this name. -/
def ParsedClass.findAttribute (cf : ParsedClass) (attrs : List Attribute) (name : String) :
    Option Nat :=
  attrs.findIdx? fun a =>
    match cf.pool.utf8 a.nameIndex with
    | .ok n => n == name
    | .error _ => false

end BasicJvm.ClassFile
