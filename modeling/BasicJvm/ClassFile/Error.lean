import BasicJvm.ClassFile.ModifiedUtf8
import BasicJvm.Text.Quoted

/-!
# Class file errors

Everything that can go wrong while reading, editing or writing a class file, with the
message each problem is reported with.  Reading errors name the byte offset where the data
ran out, the constant that could not be read, or the count of bytes left over; constant pool
lookups name the index and the tag that was found instead of the expected one.
-/

namespace BasicJvm.ClassFile

/-- A problem with a class file. -/
inductive ClassError where
  /-- The data ended at `offset` where `need` more bytes were to be read. -/
  | endOfData (offset need : Nat)
  | badMagic (value : Nat)
  | trailingBytes (count : Nat)
  | unknownTag (index tag : Nat)
  | badText (index : Nat) (problem : Utf8Problem)
  /-- The class's own name cannot be read. -/
  | thisClass (inner : ClassError)
  | invalidIndex (index : Nat)
  | notUtf8 (index tag : Nat)
  | notClass (index tag : Nat)
  | notMember (index tag : Nat)
  | notNameAndType (index : Nat)
  | poolTooLarge (count : Nat)
  | textTooLong (index length : Nat)
  /-- An attribute whose payload is longer than its 32-bit length can say. -/
  | attributeTooLarge
  | methodNotFound (name desc : String)
  | noCode (name desc : String)
  /-- A Code attribute's payload cannot be read. -/
  | codeAttribute (inner : ClassError)
  | bodySize (length : Nat)
  /-- A problem with the code of the method `name desc`. -/
  | inMethod (name desc : String) (inner : ClassError)
  | abstractMethod (name desc : String)
  | invalidClassName (name : String)
  | unsupportedVersion (major : Nat)
  deriving DecidableEq, Repr

/-- Eight uppercase hexadecimal digits. -/
def hexWord (n : Nat) : String :=
  String.ofList ((Text.hexDigits 8 n).map Char.toUpper)

/-- The message of a class file problem. -/
def ClassError.message : ClassError → String
  | .endOfData offset need =>
    "unexpected end of class data at offset " ++ toString offset ++ " (need " ++
      toString need ++ " bytes)"
  | .badMagic value => "bad magic 0x" ++ hexWord value
  | .trailingBytes count => toString count ++ " trailing bytes after class data"
  | .unknownTag index tag => "constant " ++ toString index ++ ": unknown tag " ++ toString tag
  | .badText index problem => "constant " ++ toString index ++ ": " ++ problem.message
  | .thisClass inner => "this_class: " ++ inner.message
  | .invalidIndex index => "invalid constant pool index " ++ toString index
  | .notUtf8 index tag =>
    "constant " ++ toString index ++ " is not Utf8 (tag " ++ toString tag ++ ")"
  | .notClass index tag =>
    "constant " ++ toString index ++ " is not a Class (tag " ++ toString tag ++ ")"
  | .notMember index tag =>
    "constant " ++ toString index ++ " is not a member reference (tag " ++ toString tag ++ ")"
  | .notNameAndType index => "constant " ++ toString index ++ " is not NameAndType"
  | .poolTooLarge count =>
    "constant pool has " ++ toString count ++ " entries, limit is 65535"
  | .textTooLong index length =>
    "constant " ++ toString index ++ ": string too long (" ++ toString length ++ " bytes)"
  | .attributeTooLarge => "attribute too large"
  | .methodNotFound name desc => "method " ++ name ++ desc ++ " not found"
  | .noCode name desc => "method " ++ name ++ desc ++ " has no Code attribute"
  | .codeAttribute inner => "code attribute: " ++ inner.message
  | .bodySize length =>
    "method body of " ++ toString length ++ " bytes is outside 1..65535"
  | .inMethod name desc inner => name ++ desc ++ ": " ++ inner.message
  | .abstractMethod name desc => "method " ++ name ++ desc ++ " is abstract or native"
  | .invalidClassName name => "invalid class name " ++ Text.quote name
  | .unsupportedVersion major => "unsupported class file version " ++ toString major

end BasicJvm.ClassFile
