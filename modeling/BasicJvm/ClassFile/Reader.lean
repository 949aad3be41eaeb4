import BasicJvm.ClassFile.Class

/-!
# Reading class files

`parseClass` reads a class file front to back.  Numbers are big-endian.  Reading stops at
the first problem: data that runs out (reported with the offset and the number of bytes
needed), a wrong magic number, a constant of unknown tag, or a Utf8 constant that is not
modified UTF-8.  The data must be used up exactly, and the class's own name must resolve.

Constants are appended as they are, without merging repeats; a long or double constant
takes two slots, the second unusable.  Attribute payloads are kept raw.

The readers of the pool and of the whole class are stated for any decoding of texts
(`readConstantWith` and the functions after it); a class file is read with the decoding of
modified UTF-8 (`parseClass`), so the reader itself is the one the `With` functions give for
`decodeModifiedUtf8`.
-/

-- Powers use the core `NatPow` instance also where an algebra library is loaded, so that
-- the definitions below elaborate to the same terms in every build.
attribute [local instance (high)] instPowNat

namespace BasicJvm.ClassFile

/-- Where reading stands: the bytes still to read and the offset of the first of them. -/
structure Cursor where
  rest : List UInt8
  offset : Nat

/-- Reading from a cursor, failing with a class file problem. -/
abbrev ReadM := StateT Cursor (Except ClassError)

/-- The next `n` bytes. -/
def takeBytes (n : Nat) : ReadM (List UInt8) := do
  let c ← get
  let (taken, rest) := c.rest.splitAt n
  if taken.length < n then throw (.endOfData c.offset n)
  set (Cursor.mk rest (c.offset + n))
  pure taken

/-- The big-endian number of a list of bytes. -/
def bigEndian (bytes : List UInt8) : Nat :=
  bytes.foldl (fun acc b => acc * 256 + b.toNat) 0

/-- The next byte. -/
def readU1 : ReadM Nat := bigEndian <$> takeBytes 1

/-- The next two-byte number. -/
def readU2 : ReadM Nat := bigEndian <$> takeBytes 2

/-- The next four-byte number. -/
def readU4 : ReadM Nat := bigEndian <$> takeBytes 4

/-- The constant with tag `tag`, the `index`-th of the pool, its text decoded by `text` when it
is a Utf8 constant. -/
def readConstantWith (text : List UInt8 → Except Utf8Problem String) (index tag : Nat) :
    ReadM Constant := do
  match tag with
  | 1 =>
    let length ← readU2
    match text (← takeBytes length) with
    | .ok s => pure (.utf8 s)
    | .error e => throw (.badText index e)
  | 3 => return .integer (← readU4).toUInt32
  | 4 => return .float (← readU4).toUInt32
  | 5 =>
    let high ← readU4
    let low ← readU4
    return .long (high * 2 ^ (32 : Nat) + low).toUInt64
  | 6 =>
    let high ← readU4
    let low ← readU4
    return .double (high * 2 ^ (32 : Nat) + low).toUInt64
  | 7 => return .classRef (← readU2)
  | 8 => return .string (← readU2)
  | 16 => return .methodType (← readU2)
  | 19 => return .module (← readU2)
  | 20 => return .package (← readU2)
  | 9 => return .fieldRef (← readU2) (← readU2)
  | 10 => return .methodRef (← readU2) (← readU2)
  | 11 => return .interfaceMethodRef (← readU2) (← readU2)
  | 12 => return .nameAndType (← readU2) (← readU2)
  | 17 => return .dynamic (← readU2) (← readU2)
  | 18 => return .invokeDynamic (← readU2) (← readU2)
  | 15 => return .methodHandle (← readU1) (← readU2)
  | _ => throw (.unknownTag index tag)

/-- The constant with tag `tag`, the `index`-th of the pool. -/
def readConstant (index tag : Nat) : ReadM Constant :=
  readConstantWith decodeModifiedUtf8 index tag

/-- Read the constants from index `index` up to the count, at most `fuel` of them. -/
def readConstantsWith (text : List UInt8 → Except Utf8Problem String) (count : Nat) :
    Nat → Nat → Pool → ReadM Pool
  | 0, _, pool => pure pool
  | fuel + 1, index, pool => do
    if count ≤ index then return pool
    let c ← readConstantWith text index (← readU1)
    let pool := pool.push c
    readConstantsWith text count fuel (if c.isWide then index + 2 else index + 1) pool

/-- Read the constants from index `index` up to the count, at most `fuel` of them. -/
def readConstants (count fuel index : Nat) (pool : Pool) : ReadM Pool :=
  readConstantsWith decodeModifiedUtf8 count fuel index pool

/-- The constant pool: its count, then the constants. -/
def readPoolWith (text : List UInt8 → Except Utf8Problem String) : ReadM Pool := do
  let count ← readU2
  readConstantsWith text count count 1 Pool.empty

/-- The constant pool: its count, then the constants. -/
def readPool : ReadM Pool := readPoolWith decodeModifiedUtf8

/-- Read `n` things one after another. -/
def readMany {α : Type} (read : ReadM α) : Nat → ReadM (List α)
  | 0 => pure []
  | n + 1 => do
    let x ← read
    return x :: (← readMany read n)

/-- An attribute: its name index, its length and its payload. -/
def readAttribute : ReadM Attribute := do
  let name ← readU2
  let length ← readU4
  return ⟨name, ← takeBytes length⟩

/-- A count of attributes, then the attributes. -/
def readAttributes : ReadM (List Attribute) := do
  readMany readAttribute (← readU2)

/-- A field or method. -/
def readMember : ReadM Member := do
  let access ← readU2
  let name ← readU2
  let desc ← readU2
  return ⟨access, name, desc, ← readAttributes⟩

/-- A whole class file, up to the end of its attributes. -/
def readClassWith (text : List UInt8 → Except Utf8Problem String) : ReadM ParsedClass := do
  let m ← readU4
  if m != magic then throw (.badMagic m)
  let minor ← readU2
  let major ← readU2
  let pool ← readPoolWith text
  let access ← readU2
  let thisClass ← readU2
  let superClass ← readU2
  let interfaces ← readMany readU2 (← readU2)
  let fields ← readMany readMember (← readU2)
  let methods ← readMany readMember (← readU2)
  let attributes ← readAttributes
  return ⟨minor, major, pool, access, thisClass, superClass, interfaces, fields, methods,
    attributes⟩

/-- A whole class file, up to the end of its attributes. -/
def readClass : ReadM ParsedClass := readClassWith decodeModifiedUtf8

/-- The class file of some bytes, its texts decoded by `text`. -/
def parseClassWith (text : List UInt8 → Except Utf8Problem String) (data : List UInt8) :
    Except ClassError ParsedClass := do
  let (cf, rest) ← (readClassWith text).run ⟨data, 0⟩
  if !rest.rest.isEmpty then throw (.trailingBytes rest.rest.length)
  match cf.name with
  | .ok _ => pure cf
  | .error e => throw (.thisClass e)

/-- The class file of some bytes. -/
def parseClass (data : List UInt8) : Except ClassError ParsedClass :=
  parseClassWith decodeModifiedUtf8 data

end BasicJvm.ClassFile
