import BasicJvm.ClassFile.Class

/-!
# Writing class files

`ParsedClass.bytes` lays a class file out in the order it is read, numbers big-endian and
counts truncated to their field widths.  The constant pool is written entry by entry,
skipping the unusable slots, so a pool read from a class file is written back byte for byte
unless one of its texts was not in canonical modified UTF-8.  Writing fails when the pool
has more entries than its 16-bit count can say, a text is longer than 65535 bytes, or an
attribute is longer than its 32-bit length can say.
-/

-- Powers use the core `NatPow` instance also where an algebra library is loaded, so that
-- the definitions below elaborate to the same terms in every build.
attribute [local instance (high)] instPowNat

namespace BasicJvm.ClassFile

/-- A number as one byte. -/
def u1 (n : Nat) : List UInt8 := [n.toUInt8]

/-- A number as two big-endian bytes. -/
def u2 (n : Nat) : List UInt8 := [(n / 256 % 256).toUInt8, (n % 256).toUInt8]

/-- A number as four big-endian bytes. -/
def u4 (n : Nat) : List UInt8 := u2 (n / 65536 % 65536) ++ u2 (n % 65536)

/-- The bytes of a pool entry, tag first; the unusable slots have none. -/
def constantBytes (index : Nat) : Constant → Except ClassError (List UInt8)
  | .unusable => pure []
  | .utf8 s =>
    let b := encodeModifiedUtf8 s
    if b.length > 65535 then throw (.textTooLong index b.length)
    else pure (u1 1 ++ u2 b.length ++ b)
  | .integer bits => pure (u1 3 ++ u4 bits.toNat)
  | .float bits => pure (u1 4 ++ u4 bits.toNat)
  | .long bits => pure (u1 5 ++ u4 (bits.toNat / 2 ^ (32 : Nat)) ++ u4 bits.toNat)
  | .double bits => pure (u1 6 ++ u4 (bits.toNat / 2 ^ (32 : Nat)) ++ u4 bits.toNat)
  | .classRef i => pure (u1 7 ++ u2 i)
  | .string i => pure (u1 8 ++ u2 i)
  | .fieldRef a b => pure (u1 9 ++ u2 a ++ u2 b)
  | .methodRef a b => pure (u1 10 ++ u2 a ++ u2 b)
  | .interfaceMethodRef a b => pure (u1 11 ++ u2 a ++ u2 b)
  | .nameAndType a b => pure (u1 12 ++ u2 a ++ u2 b)
  | .methodHandle k i => pure (u1 15 ++ u1 k ++ u2 i)
  | .methodType i => pure (u1 16 ++ u2 i)
  | .dynamic a b => pure (u1 17 ++ u2 a ++ u2 b)
  | .invokeDynamic a b => pure (u1 18 ++ u2 a ++ u2 b)
  | .module i => pure (u1 19 ++ u2 i)
  | .package i => pure (u1 20 ++ u2 i)

/-- The bytes of a constant pool: the count, then the entries. -/
def poolBytes (p : Pool) : Except ClassError (List UInt8) := do
  let entries ← (p.entries.toList.zipIdx.drop 1).mapM fun (c, i) => constantBytes i c
  pure (u2 p.count ++ entries.flatten)

/-- The bytes of one attribute: its name index, length and payload.  A payload longer than
a 32-bit length can say is refused. -/
def attributeBytes (a : Attribute) : Except ClassError (List UInt8) :=
  if a.data.length ≥ 2 ^ (32 : Nat) then .error .attributeTooLarge
  else .ok (u2 a.nameIndex ++ u4 a.data.length ++ a.data)

/-- The bytes of a list of attributes: the count, then each attribute. -/
def attributesBytes (attrs : List Attribute) : Except ClassError (List UInt8) := do
  let parts ← attrs.mapM attributeBytes
  pure (u2 attrs.length ++ parts.flatten)

/-- The bytes of one field or method. -/
def memberBytes (m : Member) : Except ClassError (List UInt8) := do
  pure (u2 m.access ++ u2 m.nameIndex ++ u2 m.descIndex ++ (← attributesBytes m.attributes))

/-- The bytes of a list of fields or methods. -/
def membersBytes (members : List Member) : Except ClassError (List UInt8) := do
  let parts ← members.mapM memberBytes
  pure (u2 members.length ++ parts.flatten)

/-- The bytes of a class file. -/
def ParsedClass.bytes (cf : ParsedClass) : Except ClassError (List UInt8) := do
  if cf.pool.overflowed then throw (.poolTooLarge cf.pool.count)
  let pool ← poolBytes cf.pool
  let fields ← membersBytes cf.fields
  let methods ← membersBytes cf.methods
  let attributes ← attributesBytes cf.attributes
  pure (u4 magic ++ u2 cf.minor ++ u2 cf.major ++ pool ++ u2 cf.access ++ u2 cf.thisClass ++
    u2 cf.superClass ++ u2 cf.interfaces.length ++ cf.interfaces.flatMap u2 ++
    fields ++ methods ++ attributes)

end BasicJvm.ClassFile
