import BasicJvm.Number.Elementary

/-!
# Sine of a double

`sin x` first finds the octant `j` of `x` (the integer part of `x / (π/4)`, made even) and
the remainder `z = x - j · π/4`, then evaluates a polynomial for the sine or the cosine of
`z`, which lies in `[-π/4, π/4]`:

* below `2^29` the remainder is `x - j·P1 - j·P2 - j·P3`, with `π/4 = P1 + P2 + P3` split so
  that each product is exact enough;
* from `2^29` on it comes from the bits of `4/π` (Payne and Hanek): the 53-bit significand
  of `x` times the 192 bits of `4/π` that reach its units place gives the octant in the top
  three bits and the fraction of the octant below them, exactly.

The reduction is exact integer arithmetic on 64-bit digits, written with natural numbers.
-/

-- Powers use the core `NatPow` instance also where an algebra library is loaded, so that
-- the definitions below elaborate to the same terms in every build.
attribute [local instance (high)] instPowNat

namespace BasicJvm.Number

/-- The binary digits of `4/π`, 64 to a digit: `4/π = Σ digit_i · 2^(-64·(i-1))`. -/
def fourOverPiDigits : Array Nat := #[
  0x0000000000000001, 0x45F306DC9C882A53, 0xF84EAFA3EA69BB81, 0xB6C52B3278872083,
  0xFCA2C757BD778AC3, 0x6E48DC74849BA5C0, 0x0C925DD413A32439, 0xFC3BD63962534E7D,
  0xD1046BEA5D768909, 0xD338E04D68BEFC82, 0x7323AC7306A673E9, 0x3908BF177BF25076,
  0x3FF12FFFBC0B301F, 0xDE5E2316B414DA3E, 0xDA6CFD9E4F96136E, 0x9E8C7ECD3CBFD45A,
  0xEA4F758FD7CBE2F6, 0x7A0E73EF14A525D4, 0xD7F6BF623F1ABA10, 0xAC06608DF8F6D757]

/-- The base `2^64` of the digits. -/
def digitBase : Nat := 2 ^ (64 : Nat)

/-- The 64-bit digit that starts `shift` bits into digit `i` of `4/π`. -/
def shiftedDigit (i shift : Nat) : Nat :=
  fourOverPiDigits.getD i 0 * 2 ^ shift % digitBase
    + fourOverPiDigits.getD (i + 1) 0 / 2 ^ (64 - shift)

/-- The number of leading zero bits of a 64-bit digit. -/
def leadingZeros (n : Nat) : Nat := 64 - (Nat.log2 n + if n == 0 then 0 else 1)

/-- The octant and the remainder in radians of a large positive `x`, by the bits of `4/π`. -/
def reduceLarge (x : Float) : Nat × Float :=
  if x < piOverFour then (0, x)
  else
    let exp : Int := (exponentField x : Int) - 1023 - 52
    let ix := (x.toBits &&& 0xFFFFFFFFFFFFF).toNat + 2 ^ (52 : Nat)
    let digit := ((exp + 61) / 64).toNat
    let shift := ((exp + 61) % 64).toNat
    let z0 := shiftedDigit digit shift
    let z1 := shiftedDigit (digit + 1) shift
    let z2 := shiftedDigit (digit + 2) shift
    let z2hi := z2 * ix / digitBase
    let z1hi := z1 * ix / digitBase
    let z1lo := z1 * ix % digitBase
    let z0lo := z0 * ix % digitBase
    let lo := (z1lo + z2hi) % digitBase
    let carry := (z1lo + z2hi) / digitBase
    let hi := (z0lo + z1hi + carry) % digitBase
    let j := hi / 2 ^ (61 : Nat)
    let hi := hi * 8 % digitBase + lo / 2 ^ (61 : Nat)
    let lz := leadingZeros hi
    let e := 1023 - (lz + 1)
    let frac :=
      if 64 < lz + 1 then 0
      else hi * 2 ^ (lz + 1) % digitBase + lo / 2 ^ (64 - (lz + 1))
    let z := Float.ofBits (frac / 2 ^ (12 : Nat) + e * 2 ^ (52 : Nat)).toUInt64
    if j % 2 == 1 then ((j + 1) % 8, (z - 1) * piOverFour) else (j, z * piOverFour)

/-- The octant and the remainder of a positive `x` below `2^29`, with `π/4` in three parts. -/
def reduceSmall (x : Float) : Nat × Float :=
  let j := (truncate (x * dbl 0x3FF45F306DC9C883)).toNat
  let y := Float.ofNat j
  let (j, y) := if j % 2 == 1 then (j + 1, y + 1) else (j, y)
  (j % 8, ((x - y * dbl 0x3FE921FB40000000) - y * dbl 0x3E64442D00000000)
    - y * dbl 0x3CE8469898CC5170)

/-- The sine. -/
def sin (x : Float) : Float :=
  if x == 0 || x.isNaN then x
  else if x.isInf then domainNaN
  else
    let (x, negative) := if x < 0 then (-x, true) else (x, false)
    let (j, z) := if powerOfTwo (1023 + 29) ≤ x then reduceLarge x else reduceSmall x
    let (j, negative) := if 3 < j then (j - 4, !negative) else (j, negative)
    let zz := z * z
    let y :=
      if j == 1 || j == 2 then
        1.0 - 0.5 * zz + zz * zz * (((((dbl 0xBDA8FA49A0861A9B * zz + dbl 0x3E21EE9D7B4E3F05) * zz
          + dbl 0xBE927E4F7EAC4BC6) * zz + dbl 0x3EFA01A019C844F5) * zz
          + dbl 0xBF56C16C16C14F91) * zz + dbl 0x3FA555555555554B)
      else
        z + z * zz * (((((dbl 0x3DE5D8FD1FD19CCD * zz + dbl 0xBE5AE5E5A9291F5D) * zz
          + dbl 0x3EC71DE3567D48A1) * zz + dbl 0xBF2A01A019BFDF03) * zz
          + dbl 0x3F8111111110F7D0) * zz + dbl 0xBFC5555555555548)
    if negative then -y else y

end BasicJvm.Number
