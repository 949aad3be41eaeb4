/-!
# Reading UTF-8

Files hold bytes; the tools read them as text.  `decodeUtf8` reads a byte list as UTF-8 the
strict way: a character is one to four bytes, never longer than needed, never a surrogate
and never above U+10FFFF.  A byte that does not start such a sequence stands for U+FFFD on
its own, and reading goes on with the next byte.

`encodeUtf8` writes a text back as bytes; on the text of valid bytes the two are inverse.
-/

-- Powers use the core `NatPow` instance also where an algebra library is loaded, so that
-- the definitions below elaborate to the same terms in every build.
attribute [local instance (high)] instPowNat

namespace BasicJvm.Text

/-- Whether a byte continues a multi-byte sequence. -/
def isContinuation (b : UInt8) : Bool := 0x80 ≤ b && b ≤ 0xBF

/-- The bounds of the second byte after a leading byte: narrower after `E0`, `ED`, `F0` and
`F4`, so that no sequence is longer than needed, a surrogate or above U+10FFFF. -/
def secondByteBounds (b0 : UInt8) : UInt8 × UInt8 :=
  if b0 == 0xE0 then (0xA0, 0xBF)
  else if b0 == 0xED then (0x80, 0x9F)
  else if b0 == 0xF0 then (0x90, 0xBF)
  else if b0 == 0xF4 then (0x80, 0x8F)
  else (0x80, 0xBF)

/-- The length of the sequence a leading byte starts, or zero for a byte that starts none. -/
def sequenceLength (b0 : UInt8) : Nat :=
  if b0 < 0x80 then 1
  else if 0xC2 ≤ b0 && b0 ≤ 0xDF then 2
  else if 0xE0 ≤ b0 && b0 ≤ 0xEF then 3
  else if 0xF0 ≤ b0 && b0 ≤ 0xF4 then 4
  else 0

/-- Whether a second byte fits its leading byte. -/
def secondFits (b0 b1 : UInt8) : Bool :=
  let (lo, hi) := secondByteBounds b0
  lo ≤ b1 && b1 ≤ hi

/-- The low `k` bits of a byte, as a number. -/
def lowBits (b : UInt8) (k : Nat) : Nat := b.toNat % 2 ^ k

/-- The characters of UTF-8 bytes, with U+FFFD for each byte that starts no character. -/
def decodeUtf8 : List UInt8 → List Char
  | [] => []
  | b0 :: rest =>
    let bad := Char.ofNat 0xFFFD
    match sequenceLength b0, h : rest with
    | 1, _ => Char.ofNat b0.toNat :: decodeUtf8 rest
    | 2, b1 :: r =>
      if isContinuation b1 then
        Char.ofNat (lowBits b0 5 * 64 + lowBits b1 6) :: decodeUtf8 r
      else bad :: decodeUtf8 rest
    | 3, b1 :: b2 :: r =>
      if secondFits b0 b1 && isContinuation b2 then
        Char.ofNat (lowBits b0 4 * 4096 + lowBits b1 6 * 64 + lowBits b2 6) :: decodeUtf8 r
      else bad :: decodeUtf8 rest
    | 4, b1 :: b2 :: b3 :: r =>
      if secondFits b0 b1 && isContinuation b2 && isContinuation b3 then
        Char.ofNat (lowBits b0 3 * 262144 + lowBits b1 6 * 4096 + lowBits b2 6 * 64 +
          lowBits b3 6) :: decodeUtf8 r
      else bad :: decodeUtf8 rest
    | _, _ => bad :: decodeUtf8 rest
termination_by bytes => bytes.length
decreasing_by all_goals simp_all <;> omega

/-- The text of UTF-8 bytes. -/
def ofUtf8 (bytes : List UInt8) : String := String.ofList (decodeUtf8 bytes)

/-- The UTF-8 bytes of a text. -/
def encodeUtf8 (s : String) : List UInt8 := s.toUTF8.data.toList

end BasicJvm.Text
