import BasicJvm.Text.Utf16
import BasicJvm.Text.Quoted

/-!
# Modified UTF-8

Class files store strings in modified UTF-8: the text's UTF-16 units, each written on its
own in one, two or three bytes.  A unit from 1 to 0x7F is one byte; zero and the units below
0x800 are two bytes `110xxxxx 10xxxxxx`; the others are three bytes `1110xxxx 10xxxxxx
10xxxxxx`.  So NUL never appears as a zero byte, and a character outside the basic
multilingual plane becomes two three-byte surrogates.

Reading is lenient about continuation bytes: only the lead byte's high bits are checked.
A lead byte whose sequence runs past the end is a truncated sequence, and a lead byte of
any other form is an invalid byte.  The units read are decoded as UTF-16, a stray
surrogate becoming U+FFFD.
-/

namespace BasicJvm.ClassFile

open BasicJvm.Text

/-- The bytes of one UTF-16 unit. -/
def unitBytes (u : Nat) : List UInt8 :=
  if u != 0 && u < 0x80 then [u.toUInt8]
  else if u < 0x800 then [(0xC0 + u / 64).toUInt8, (0x80 + u % 64).toUInt8]
  else [(0xE0 + u / 4096).toUInt8, (0x80 + u / 64 % 64).toUInt8, (0x80 + u % 64).toUInt8]

/-- The modified UTF-8 bytes of a text. -/
def encodeModifiedUtf8 (s : String) : List UInt8 :=
  (utf16Units s).flatMap unitBytes

/-- Why bytes are not modified UTF-8. -/
inductive Utf8Problem where
  /-- The sequence starting at this offset runs past the end. -/
  | truncated (offset : Nat)
  /-- This byte, at this offset, starts no sequence. -/
  | invalidByte (byte offset : Nat)
  deriving DecidableEq, Repr

/-- The message of a decoding problem. -/
def Utf8Problem.message : Utf8Problem → String
  | .truncated offset => "truncated modified UTF-8 sequence at byte " ++ toString offset
  | .invalidByte byte offset =>
    "invalid modified UTF-8 byte 0x" ++ String.ofList (hexDigits 2 byte) ++ " at " ++
      toString offset

/-- The units of modified UTF-8 bytes starting at `offset`, after `acc` (newest first). -/
def readUnits (acc : List Nat) (offset : Nat) : List UInt8 → Except Utf8Problem (List Nat)
  | [] => .ok acc.reverse
  | b :: rest =>
    let c := b.toNat
    if c < 0x80 then readUnits (c :: acc) (offset + 1) rest
    else if c / 32 == 6 then
      match rest with
      | b1 :: rest' => readUnits (((c % 32) * 64 + b1.toNat % 64) :: acc) (offset + 2) rest'
      | [] => .error (.truncated offset)
    else if c / 16 == 14 then
      match rest with
      | b1 :: b2 :: rest' =>
        readUnits (((c % 16) * 4096 + (b1.toNat % 64) * 64 + b2.toNat % 64) :: acc) (offset + 3)
          rest'
      | _ => .error (.truncated offset)
    else .error (.invalidByte c offset)

/-- The text of modified UTF-8 bytes. -/
def decodeModifiedUtf8 (bytes : List UInt8) : Except Utf8Problem String :=
  decodeUnits <$> readUnits [] 0 bytes

end BasicJvm.ClassFile
