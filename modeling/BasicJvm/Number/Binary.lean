/-!
# IEEE binary formats

A binary interchange format is fixed by two widths: the significand precision (hidden bit
included) and the exponent field.  A bit pattern is a sign bit, a biased exponent and a
trailing significand.  The largest biased exponent encodes infinities and NaNs; the biased
exponent zero encodes zero and the subnormal numbers, whose significand has no hidden bit.

`Format.decode` reads a bit pattern as a `BinaryValue`: NaN, a signed infinity, or
`± significand · 2^exponent` with natural significand.  `Format.roundRatio` goes the other
way for a positive rational `n / d`: it gives the pattern of the nearest representable
value, a tie going to the even significand, and infinity past the largest finite value.
These two are all the number text routines need: reading text rounds an exact rational,
and writing text starts from the exact value of the pattern.

`Single` is a binary32 number kept as its bit pattern, so that syntax trees and constant
pools compare numbers exactly, bit for bit.
-/

-- Powers use the core `NatPow` instance also where an algebra library is loaded, so that
-- the definitions below elaborate to the same terms in every build.
attribute [local instance (high)] instPowNat

namespace BasicJvm.Number

/-- A binary interchange format. -/
structure Format where
  /-- Significand bits, the hidden bit included. -/
  precision : Nat
  /-- Width of the biased exponent field. -/
  exponentBits : Nat

/-- The 32-bit format: 24 significand bits, 8 exponent bits. -/
def Format.binary32 : Format := ⟨24, 8⟩

/-- The 64-bit format: 53 significand bits, 11 exponent bits. -/
def Format.binary64 : Format := ⟨53, 11⟩

/-- The number of stored significand bits. -/
def Format.fractionBits (f : Format) : Nat := f.precision - 1

/-- The exponent bias. -/
def Format.bias (f : Format) : Nat := 2 ^ (f.exponentBits - 1) - 1

/-- The biased exponent of infinities and NaNs. -/
def Format.topExponent (f : Format) : Nat := 2 ^ f.exponentBits - 1

/-- The exponent of the unit of the significand of subnormal numbers. -/
def Format.minExponent (f : Format) : Int := 1 - (f.bias : Int) - f.fractionBits

/-- The bit pattern of positive infinity. -/
def Format.infinityBits (f : Format) : Nat := f.topExponent * 2 ^ f.fractionBits

/-- The sign bit's weight in a bit pattern. -/
def Format.signBit (f : Format) : Nat := 2 ^ (f.exponentBits + f.fractionBits)

/-- A pattern with the sign bit set when `negative` holds. -/
def Format.withSign (f : Format) (negative : Bool) (magnitude : Nat) : Nat :=
  if negative then magnitude + f.signBit else magnitude

/-- What a bit pattern stands for. -/
inductive BinaryValue where
  | nan
  | infinite (negative : Bool)
  /-- The number `± significand · 2 ^ exponent`. -/
  | finite (negative : Bool) (significand : Nat) (exponent : Int)
  deriving DecidableEq, Repr

/-- The value of a bit pattern of the format. -/
def Format.decode (f : Format) (bits : Nat) : BinaryValue :=
  let fraction := bits % 2 ^ f.fractionBits
  let biased := bits / 2 ^ f.fractionBits % 2 ^ f.exponentBits
  let negative := bits / f.signBit % 2 == 1
  if biased == f.topExponent then
    if fraction == 0 then .infinite negative else .nan
  else if biased == 0 then .finite negative fraction f.minExponent
  else .finite negative (fraction + 2 ^ f.fractionBits) (f.minExponent + biased - 1)

/-- The ratio `n / d` as a numerator and denominator scaled by `2 ^ e`, for `e` of either sign:
the pair `(n', d')` with `n' / d' = n / (d · 2^e)`. -/
def scaleByPowerOfTwo (n d : Nat) (e : Int) : Nat × Nat :=
  if 0 ≤ e then (n, d * 2 ^ e.toNat) else (n * 2 ^ (-e).toNat, d)

/-- The quotient `n / d` rounded to the nearest natural number, a tie going to the even
one. -/
def roundHalfEven (n d : Nat) : Nat :=
  let q := n / d
  let r := n % d
  if 2 * r > d || (2 * r == d && q % 2 == 1) then q + 1 else q

/-- The bit pattern (without sign) of the value of the format nearest to `n / d`; a tie goes
to the even significand, and a value past the largest finite one becomes infinity. -/
def Format.roundRatio (f : Format) (n d : Nat) : Nat :=
  if n == 0 || d == 0 then 0 else
  let p := f.precision
  let guess : Int := (Nat.log2 n : Int) - (Nat.log2 d : Int) - (p - 1 : Nat)
  -- the guess leaves the quotient in [2^(p-2), 2^p); one step down fixes a small one
  let (n0, d0) := scaleByPowerOfTwo n d guess
  let e1 := if n0 / d0 < 2 ^ (p - 1) then guess - 1 else guess
  let e := max e1 f.minExponent
  let (n1, d1) := scaleByPowerOfTwo n d e
  let q := roundHalfEven n1 d1
  let (q, e) := if q == 2 ^ p then (2 ^ (p - 1), e + 1) else (q, e)
  if q < 2 ^ (p - 1) then q
  else
    let biased := e - f.minExponent + 1
    if f.topExponent ≤ biased.toNat then f.infinityBits
    else biased.toNat * 2 ^ f.fractionBits + (q - 2 ^ (p - 1))

/-- A binary32 number, kept as its bit pattern. -/
structure Single where
  bits : UInt32
  deriving DecidableEq, Inhabited, Repr

/-- The machine float of a binary32 number. -/
def Single.toFloat32 (x : Single) : Float32 := Float32.ofBits x.bits

/-- The binary32 number of a machine float. -/
def Single.ofFloat32 (x : Float32) : Single := ⟨x.toBits⟩

/-- The value of a binary32 number. -/
def Single.value (x : Single) : BinaryValue := Format.binary32.decode x.bits.toNat

/-- Zero, with the sign bit clear. -/
def Single.zero : Single := ⟨0⟩

/-- The number with the sign bit flipped. -/
def Single.neg (x : Single) : Single := ⟨x.bits ^^^ 0x80000000⟩

/-- The machine double of a binary64 bit pattern. -/
def doubleOfBits (bits : Nat) : Float := Float.ofBits bits.toUInt64

/-- The bit pattern in format `g` of the value of the pattern `bits` of format `f`, rounded
to nearest with ties to even.  A NaN keeps its sign and the leading bits of its payload, and
becomes quiet. -/
def Format.convert (f g : Format) (bits : Nat) : Nat :=
  match f.decode bits with
  | .nan =>
    let negative := bits / f.signBit % 2 == 1
    let payload := bits % 2 ^ f.fractionBits
    let kept :=
      if g.fractionBits ≤ f.fractionBits then payload / 2 ^ (f.fractionBits - g.fractionBits)
      else payload * 2 ^ (g.fractionBits - f.fractionBits)
    let quiet := 2 ^ (g.fractionBits - 1)
    g.withSign negative (g.infinityBits + kept % quiet + quiet)
  | .infinite negative => g.withSign negative g.infinityBits
  | .finite negative significand exponent =>
    let (n, d) := scaleByPowerOfTwo significand 1 (-exponent)
    g.withSign negative (g.roundRatio n d)

/-- The binary32 number nearest to a binary64 bit pattern. -/
def Single.ofDouble (bits : Nat) : Single :=
  ⟨(Format.binary64.convert Format.binary32 bits).toUInt32⟩

/-- The binary64 bit pattern of a binary32 number, which it holds exactly. -/
def Single.toDouble (x : Single) : Nat :=
  Format.binary32.convert Format.binary64 x.bits.toNat

end BasicJvm.Number
