import BasicJvm.ClassFile.Error

/-!
# The constant pool

A constant pool is an array of constants indexed from 1; entry 0 and the slot after every
long and double constant are unusable, so that the indexes are those of the class file.
Numbers are kept as bit patterns, so that `0.0` and `-0.0` are different constants and
every NaN pattern is its own constant.

Adding a constant reuses the lowest index of an equal constant when there is one and
appends it otherwise; indexes are 16-bit, so an index past the end of a 16-bit count
wraps.  A class file that is read keeps its pool exactly as it was, repeated constants
included, and adding to it afterwards finds the first of the repeats.
-/

namespace BasicJvm.ClassFile

/-- A constant pool entry.  References to other entries are pool indexes. -/
inductive Constant where
  /-- Entry 0, and the second slot of a long or double constant. -/
  | unusable
  | utf8 (text : String)
  | integer (bits : UInt32)
  | float (bits : UInt32)
  | long (bits : UInt64)
  | double (bits : UInt64)
  | classRef (name : Nat)
  | string (text : Nat)
  | fieldRef (owner nameType : Nat)
  | methodRef (owner nameType : Nat)
  | interfaceMethodRef (owner nameType : Nat)
  | nameAndType (name desc : Nat)
  | methodHandle (kind ref : Nat)
  | methodType (desc : Nat)
  | dynamic (bootstrap nameType : Nat)
  | invokeDynamic (bootstrap nameType : Nat)
  | module (name : Nat)
  | package (name : Nat)
  deriving DecidableEq, Repr, Inhabited

/-- The tag byte of a constant. -/
def Constant.tag : Constant → Nat
  | .unusable => 0
  | .utf8 _ => 1
  | .integer _ => 3
  | .float _ => 4
  | .long _ => 5
  | .double _ => 6
  | .classRef _ => 7
  | .string _ => 8
  | .fieldRef .. => 9
  | .methodRef .. => 10
  | .interfaceMethodRef .. => 11
  | .nameAndType .. => 12
  | .methodHandle .. => 15
  | .methodType _ => 16
  | .dynamic .. => 17
  | .invokeDynamic .. => 18
  | .module _ => 19
  | .package _ => 20

/-- Whether a constant takes two slots. -/
def Constant.isWide : Constant → Bool
  | .long _ | .double _ => true
  | _ => false

/-- A constant pool. -/
structure Pool where
  /-- The entries, entry 0 unusable. -/
  entries : Array Constant
  deriving DecidableEq, Repr, Inhabited

/-- The pool with no constants. -/
def Pool.empty : Pool := ⟨#[.unusable]⟩

/-- The constant pool count of the class file: one more than the highest index. -/
def Pool.count (p : Pool) : Nat := p.entries.size

/-- Whether the pool has outgrown the 16-bit count. -/
def Pool.overflowed (p : Pool) : Bool := p.count > 65535

/-- The entry at an index. -/
def Pool.get (p : Pool) (i : Nat) : Except ClassError Constant :=
  match p.entries[i]? with
  | none | some .unusable => .error (.invalidIndex i)
  | some c => .ok c

/-- The text of a Utf8 entry. -/
def Pool.utf8 (p : Pool) (i : Nat) : Except ClassError String := do
  match ← p.get i with
  | .utf8 s => pure s
  | c => throw (.notUtf8 i c.tag)

/-- The internal name a Class entry points at. -/
def Pool.className (p : Pool) (i : Nat) : Except ClassError String := do
  match ← p.get i with
  | .classRef n => p.utf8 n
  | c => throw (.notClass i c.tag)

/-- The owner, name and descriptor of a field or method reference. -/
def Pool.memberRef (p : Pool) (i : Nat) : Except ClassError (String × String × String) := do
  let (owner, nameType) ← match ← p.get i with
    | .fieldRef o nt | .methodRef o nt | .interfaceMethodRef o nt => pure (o, nt)
    | c => throw (.notMember i c.tag)
  let owner ← p.className owner
  match ← p.get nameType with
  | .nameAndType n d => pure (owner, ← p.utf8 n, ← p.utf8 d)
  | _ => throw (.notNameAndType nameType)

/-- The pool with the text of an existing Utf8 entry replaced. -/
def Pool.setUtf8 (p : Pool) (i : Nat) (s : String) : Except ClassError Pool := do
  let _ ← p.utf8 i
  pure ⟨p.entries.setIfInBounds i (.utf8 s)⟩

/-- The pool with an entry appended as it is, and its unusable second slot when it is
wide. -/
def Pool.push (p : Pool) (c : Constant) : Pool :=
  if c.isWide then ⟨(p.entries.push c).push .unusable⟩ else ⟨p.entries.push c⟩

/-- The index of a constant: the lowest index of an equal entry, or the next index after
appending it. -/
def Pool.add (p : Pool) (c : Constant) : Pool × Nat :=
  match p.entries.findIdx? (· == c) with
  | some i => (p, i % 65536)
  | none => (p.push c, p.entries.size % 65536)

/-- The index of a Utf8 constant. -/
def Pool.addUtf8 (p : Pool) (s : String) : Pool × Nat := p.add (.utf8 s)

/-- The index of an Integer constant. -/
def Pool.addInteger (p : Pool) (bits : UInt32) : Pool × Nat := p.add (.integer bits)

/-- The index of a Float constant. -/
def Pool.addFloat (p : Pool) (bits : UInt32) : Pool × Nat := p.add (.float bits)

/-- The index of a Class constant, adding its name first. -/
def Pool.addClass (p : Pool) (name : String) : Pool × Nat :=
  let (p, n) := p.addUtf8 name
  p.add (.classRef n)

/-- The index of a String constant, adding its text first. -/
def Pool.addString (p : Pool) (s : String) : Pool × Nat :=
  let (p, n) := p.addUtf8 s
  p.add (.string n)

/-- The index of a NameAndType constant, adding the name and then the descriptor first. -/
def Pool.addNameAndType (p : Pool) (name desc : String) : Pool × Nat :=
  let (p, n) := p.addUtf8 name
  let (p, d) := p.addUtf8 desc
  p.add (.nameAndType n d)

/-- The index of a Fieldref constant, adding the class and then the name and type first. -/
def Pool.addFieldref (p : Pool) (owner name desc : String) : Pool × Nat :=
  let (p, o) := p.addClass owner
  let (p, nt) := p.addNameAndType name desc
  p.add (.fieldRef o nt)

/-- The index of a Methodref constant, adding the class and then the name and type
first. -/
def Pool.addMethodref (p : Pool) (owner name desc : String) : Pool × Nat :=
  let (p, o) := p.addClass owner
  let (p, nt) := p.addNameAndType name desc
  p.add (.methodRef o nt)

end BasicJvm.ClassFile
