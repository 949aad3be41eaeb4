import BasicJvm.Number.Fused

/-!
# Elementary functions of doubles

The machine computes `^`, `EXP`, `LOG` and `ATN` in doubles and rounds the result to a float,
so the last bit of each double can show in what a program prints.  Each function here is
therefore a fixed sequence of double operations, the one the machine runs:

* `log x`: `x = f · 2^k` with `f` in `[√2/2, √2)`; with `s = (f-1)/(f+1)`, `log f` is
  `2s + s·R(s²)` for a polynomial `R` of degree 7, and `k · ln 2` is added in a high part
  (exact in `k`) and a low part.
* `exp x`: `x = k · ln 2 + r` with `k` the integer part of `x / ln 2`, taken towards zero;
  `e^(r/16) - 1` comes from its Taylor polynomial of degree 8 and is squared up four times
  by `y ↦ (2 + y) · y`, giving `e^r - 1`, and `e^r` is scaled by `2^k`.  The reduction, the
  polynomial, and the last squaring together with the final `+ 1` are fused multiply-adds.
* `pow x y`: after the special cases of IEEE `pow`, `y = yi + yf` with `|yf| ≤ 1/2`;
  `x^yf` is `exp (yf · log x)` and `x^yi` comes from repeated squaring of the fraction of `x`,
  its exponent kept apart so that no intermediate overflows.
* `atan x`: a rational function on `[0, 0.66]`, reached through `atan x = π/4 + atan ((x-1)/(x+1))`
  or `atan x = π/2 - atan (1/x)`.

Constants are given by their bit patterns, so no decimal conversion stands between them and
the values the machine uses.
-/

namespace BasicJvm.Number

/-- The double of a bit pattern. -/
def dbl (bits : UInt64) : Float := Float.ofBits bits

/-- Positive infinity. -/
def positiveInfinity : Float := dbl 0x7FF0000000000000

/-- Negative infinity. -/
def negativeInfinity : Float := dbl 0xFFF0000000000000

/-- The NaN returned for an argument outside a function's domain. -/
def domainNaN : Float := dbl 0x7FF8000000000001

/-- Zero with the sign bit set. -/
def negativeZero : Float := dbl 0x8000000000000000

/-- The biased exponent field of a double. -/
def exponentField (x : Float) : Nat := ((x.toBits >>> 52) &&& (0x7FF : UInt64)).toNat

/-- Whether the sign bit of a double is set. -/
def signBit (x : Float) : Bool := x.toBits >>> 63 == 1

/-- The double with the sign and fraction of `x` and the biased exponent `e`. -/
def withExponentField (x : Float) (e : Nat) : Float :=
  Float.ofBits ((x.toBits &&& (0x800FFFFFFFFFFFFF : UInt64)) ||| ((e.toUInt64 &&& 0x7FF) <<< 52))

/-- The power of two `2 ^ (e - 1023)` for a biased exponent `e` from 1 to 2046. -/
def powerOfTwo (e : Nat) : Float := Float.ofBits ((e.toUInt64 &&& (0x7FF : UInt64)) <<< 52)

/-- The integer part of a finite double, towards zero; `0` for an infinity or NaN. -/
def truncate (x : Float) : Int :=
  match finiteParts x with
  | some (negative, significand, exponent) =>
    let magnitude :=
      if 0 ≤ exponent then significand <<< exponent.toNat else significand >>> (-exponent).toNat
    if negative then -(magnitude : Int) else magnitude
  | none => 0

/-! ## Splitting a double -/

/-- A subnormal double scaled by `2^52` into a normal one, with the exponent taken off. -/
def normalize (x : Float) : Float × Int :=
  if exponentField x == 0 then (x * powerOfTwo (1023 + 52), -52) else (x, 0)

/-- Split `x` as `frac · 2 ^ exp` with `|frac|` in `[1/2, 1)`; a zero, an infinity or NaN is its
own fraction, with exponent 0. -/
def frexp (x : Float) : Float × Int :=
  if x == 0 || x.isNaN || x.isInf then (x, 0)
  else
    let (y, e) := normalize x
    (withExponentField y 1022, e + exponentField y - 1022)

/-- The product `frac · 2 ^ exp`.  A result among the subnormal numbers is rounded once;
past the range of doubles it is an infinity or a zero of the sign of `frac`. -/
def ldexp (frac : Float) (exp : Int) : Float :=
  if frac == 0 || frac.isNaN || frac.isInf then frac
  else
    let (y, e) := normalize frac
    let exp := exp + e + exponentField y - 1023
    if exp < -1075 then (if signBit frac then negativeZero else 0)
    else if 1023 < exp then (if frac < 0 then negativeInfinity else positiveInfinity)
    else if exp < -1022 then powerOfTwo (1023 - 53) * withExponentField y (exp + 53 + 1023).toNat
    else withExponentField y (exp + 1023).toNat

/-- The integer part and the fraction of a double that is at least 1: the fraction bits
below the binary point are cleared. -/
def modfLarge (f : Float) : Float × Float :=
  let e := exponentField f - 1023
  let whole :=
    if e < 52 then Float.ofBits (f.toBits &&& ~~~(((1 : UInt64) <<< (52 - e).toUInt64) - 1)) else f
  (whole, f - whole)

/-- The integer part and the fraction of a double, both with its sign. -/
def modf (f : Float) : Float × Float :=
  if f < 1 then
    if f < 0 then
      let g := -f
      let (whole, fraction) := if g < 1 then (0, g) else modfLarge g
      (-whole, -fraction)
    else if f == 0 then (f, f)
    else (0, f)
  else modfLarge f

/-- Whether a double is an odd integer; none is from `2^53` on. -/
def isOddInteger (x : Float) : Bool :=
  if powerOfTwo (1023 + 53) ≤ x || x ≤ -powerOfTwo (1023 + 53) then false
  else
    let (whole, fraction) := modf x
    fraction == 0 && (truncate whole).natAbs % 2 == 1

/-! ## Logarithm -/

/-- The double nearest to `√2 / 2`. -/
def sqrtHalf : Float := dbl 0x3FE6A09E667F3BCD

/-- The high part of `ln 2`, with trailing zero bits so that `k · ln2Hi` is exact. -/
def ln2Hi : Float := dbl 0x3FE62E42FEE00000

/-- The low part of `ln 2`. -/
def ln2Lo : Float := dbl 0x3DEA39EF35793C76

/-- The natural logarithm. -/
def log (x : Float) : Float :=
  if x.isNaN || x == positiveInfinity then x
  else if x < 0 then domainNaN
  else if x == 0 then negativeInfinity
  else
    let (f1, ki) := frexp x
    let (f1, ki) := if f1 < sqrtHalf then (f1 * 2, ki - 1) else (f1, ki)
    let f := f1 - 1
    let k := Float.ofInt ki
    let s := f / (2 + f)
    let s2 := s * s
    let s4 := s2 * s2
    let t1 := s2 * (dbl 0x3FE5555555555593 + s4 * (dbl 0x3FD2492494229359
      + s4 * (dbl 0x3FC7466496CB03DE + s4 * dbl 0x3FC2F112DF3E5244)))
    let t2 := s4 * (dbl 0x3FD999999997FA04 + s4 * (dbl 0x3FCC71C51D8E78AF
      + s4 * dbl 0x3FC39A09D078C69F))
    let r := t1 + t2
    let hfsq := 0.5 * f * f
    k * ln2Hi - ((hfsq - (s * (hfsq + r) + k * ln2Lo)) - f)

/-! ## Exponential -/

/-- The double nearest to `1 / ln 2`. -/
def log2e : Float := dbl 0x3FF71547652B82FE

/-- The high part of `ln 2`. -/
def ln2Upper : Float := dbl 0x3FE62E42FEFA3000

/-- The low part of `ln 2`. -/
def ln2Lower : Float := dbl 0x3D53DE6AF278ECE6

/-- The largest argument whose exponential is finite. -/
def expOverflow : Float := dbl 0x40862E42FEFA39EF

/-- The Taylor coefficients `1/n!` of `e^z - 1` from `n = 8` down to `n = 1`. -/
def expTaylor : List Float :=
  [dbl 0x3EFA01A01A01A01A, dbl 0x3F2A01A01A01A01A, dbl 0x3F56C16C16C16C17,
    dbl 0x3F81111111111111, dbl 0x3FA5555555555555, dbl 0x3FC5555555555555, 0.5, 1]

/-- The integer part of `x / ln 2`, towards zero, as a 32-bit integer: `-2^31` when it is
out of range. -/
def expScale (t : Float) : Int :=
  if -powerOfTwo (1023 + 31) ≤ t && t < powerOfTwo (1023 + 31) then truncate t
  else -2147483648

/-- The exponential. -/
def exp (x : Float) : Float :=
  if x.isNaN || x == positiveInfinity then x
  else if x == negativeInfinity then 0
  else if expOverflow < x then positiveInfinity
  else
    let k := expScale (log2e * x)
    let kf := Float.ofInt k
    let r := fusedMulAdd (-ln2Lower) kf (fusedMulAdd (-ln2Upper) kf x)
    let z := r * 0.0625
    let p := match expTaylor with
      | c :: cs => cs.foldl (fun acc c' => fusedMulAdd acc z c') c
      | [] => 0
    let y := p * z
    let y := (2 + y) * y
    let y := (2 + y) * y
    let y := (2 + y) * y
    let e := fusedMulAdd (2 + y) y 1
    let biased := k + 1023
    if biased ≤ 0 then
      if biased < -52 then 0
      else e * powerOfTwo (biased + 1022).toNat * powerOfTwo 1
    else if 2047 ≤ biased then positiveInfinity
    else e * powerOfTwo biased.toNat

/-! ## Power -/

/-- The power of a zero `x` (of either sign) to a `y` that is neither zero nor NaN. -/
def powOfZero (x y : Float) : Float :=
  if y == 1 then x
  else if y < 0 then (if signBit x && isOddInteger y then negativeInfinity else positiveInfinity)
  else if signBit x && isOddInteger y then x
  else 0

/-- Repeated squaring: `a1 · 2^ae` times `(x1 · 2^xe) ^ i`, the fraction `x1` kept in
`[1/2, 1)` in magnitude and the exponents apart; once an exponent is past `±2^12` the rest
is left to `ldexp`, which overflows or underflows.  `fuel` bounds the bits of `i`. -/
def powerSteps : Nat → Nat → Float → Int → Float → Int → Float × Int
  | 0, _, _, _, a1, ae => (a1, ae)
  | fuel + 1, i, x1, xe, a1, ae =>
    if i == 0 then (a1, ae)
    else if xe < -4096 || 4096 < xe then (a1, ae + xe)
    else
      let (a1, ae) := if i % 2 == 1 then (a1 * x1, ae + xe) else (a1, ae)
      let x1 := x1 * x1
      let xe := xe * 2
      let (x1, xe) := if x1 < 0.5 then (x1 + x1, xe - 1) else (x1, xe)
      powerSteps fuel (i / 2) x1 xe a1 ae

/-- The power `x ^ y`. -/
def pow (x y : Float) : Float :=
  if y == 0 || x == 1 then 1
  else if y == 1 then x
  else if x.isNaN || y.isNaN then domainNaN
  else if x == 0 then powOfZero x y
  else if y.isInf then
    if x == -1 then 1
    else if (x.abs < 1) == (y == positiveInfinity) then 0
    else positiveInfinity
  else if x.isInf then
    if x == negativeInfinity then powOfZero negativeZero (-y)
    else if y < 0 then 0
    else positiveInfinity
  else if y == 0.5 then x.sqrt
  else if y == -0.5 then 1 / x.sqrt
  else
    let (yi, yf) := modf y.abs
    if yf != 0 && x < 0 then domainNaN
    else if powerOfTwo (1023 + 63) ≤ yi then
      if x == -1 then 1
      else if (x.abs < 1) == (0 < y) then 0
      else positiveInfinity
    else
      let (yi, yf) := if 0.5 < yf then (yi + 1, yf - 1) else (yi, yf)
      let a1 := if yf != 0 then exp (yf * log x) else 1
      let (x1, xe) := frexp x
      let (a1, ae) := powerSteps 64 (truncate yi).toNat x1 xe a1 0
      let (a1, ae) := if y < 0 then (1 / a1, -ae) else (a1, ae)
      ldexp a1 ae

/-! ## Arc tangent -/

/-- The double nearest to `π / 2`. -/
def piOverTwo : Float := dbl 0x3FF921FB54442D18

/-- The double nearest to `π / 4`. -/
def piOverFour : Float := dbl 0x3FE921FB54442D18

/-- The rest of `π/2` after its double `piOverTwo`. -/
def piOverTwoRest : Float := dbl 0x3C91A62633145C07

/-- Half of `piOverTwoRest`, the rest of `π/4`. -/
def piOverFourRest : Float := dbl 0x3C81A62633145C07

/-- The arc tangent on `[0, 0.66]`, as a rational function. -/
def atanKernel (x : Float) : Float :=
  let z := x * x
  let z := z * ((((dbl 0xBFEC007FA1F72594 * z + dbl 0xC03028545B6B807A) * z
      + dbl 0xC052C08C36880273) * z + dbl 0xC05EB8BF2D05BA25) * z + dbl 0xC0503669FD28EC8E)
    / (((((z + dbl 0x4038DBC45B14603C) * z + dbl 0x4064A0DD43B8FA25) * z
      + dbl 0x407B0E18D2E2BE3B) * z + dbl 0x407E563F13B049EA) * z + dbl 0x4068519EFBBD62EC)
  x * z + x

/-- The arc tangent of a positive double, reduced to `[0, 0.66]`. -/
def atanPositive (x : Float) : Float :=
  if x ≤ dbl 0x3FE51EB851EB851F then atanKernel x
  else if dbl 0x4003504F333F9DE6 < x then piOverTwo - atanKernel (1 / x) + piOverTwoRest
  else piOverFour + atanKernel ((x - 1) / (x + 1)) + piOverFourRest

/-- The arc tangent. -/
def atan (x : Float) : Float :=
  if x == 0 then x
  else if 0 < x then atanPositive x
  else -atanPositive (-x)

end BasicJvm.Number
