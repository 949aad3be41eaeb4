import BasicJvm.Number.Binary

/-!
# Fused multiply-add

`fusedMulAdd a b c` is `a · b + c` with a single rounding: the product and the sum are
exact, and only the result is rounded to the nearest double (ties to even).  Every finite
double is an integer times a power of two, so the exact value is an integer `m` times
`2 ^ e` where `e` is the smaller of the two exponents, and `doubleOfExact` rounds it.

An exact zero takes its sign as an addition does: negative only when the product and the
addend are both negative zeros, otherwise positive.  When an operand is not finite the
result is a NaN or an infinity, which the unfused expression gives as well.
-/

namespace BasicJvm.Number

/-- The sign, significand and exponent of a finite double, `± significand · 2 ^ exponent`. -/
def finiteParts (x : Float) : Option (Bool × Nat × Int) :=
  let b := x.toBits
  let biased := (b >>> 52) &&& 0x7FF
  let fraction := (b &&& 0xFFFFFFFFFFFFF).toNat
  let negative := b >>> 63 == 1
  if biased == 0x7FF then none
  else if biased == 0 then some (negative, fraction, -1074)
  else some (negative, fraction + 0x10000000000000, (biased.toNat : Int) - 1075)

/-- The quotient `m >>> s` rounded to the nearest integer, a tie going to the even one. -/
def shiftRounded (m s : Nat) : Nat :=
  if s == 0 then m
  else
    let q := m >>> s
    let r := m - (q <<< s)
    let half := 1 <<< (s - 1)
    if half < r || (r == half && q % 2 == 1) then q + 1 else q

/-- The double nearest to `± magnitude · 2 ^ exponent`, a tie going to the even significand;
past the largest double it is an infinity, and a zero magnitude gives a zero of the sign
asked for.  The last kept bit is worth `2 ^ unit`: 52 places below the leading bit, but not
below the unit `2 ^ -1074` of the subnormal numbers. -/
def doubleOfExact (negative : Bool) (magnitude : Nat) (exponent : Int) : Float :=
  let sign : UInt64 := if negative then 0x8000000000000000 else 0
  if magnitude == 0 then Float.ofBits sign
  else
    let top : Int := (Nat.log2 magnitude : Int) + exponent
    let unit : Int := max (top - 52) (-1074)
    let shift : Int := unit - exponent
    let q :=
      if shift ≤ 0 then magnitude <<< (-shift).toNat else shiftRounded magnitude shift.toNat
    let (q, unit) := if q == 0x20000000000000 then (0x10000000000000, unit + 1) else (q, unit)
    if q < 0x10000000000000 then Float.ofBits (sign ||| q.toUInt64)
    else
      let biased := unit + 1075
      if 2047 ≤ biased then Float.ofBits (sign ||| 0x7FF0000000000000)
      else
        Float.ofBits (sign ||| (biased.toNat.toUInt64 <<< 52)
          ||| (q - 0x10000000000000).toUInt64)

/-- The value `a · b + c` rounded once to the nearest double. -/
def fusedMulAdd (a b c : Float) : Float :=
  match finiteParts a, finiteParts b, finiteParts c with
  | some (sa, ma, ea), some (sb, mb, eb), some (sc, mc, ec) =>
    let sp := sa != sb
    let ep := ea + eb
    let e := min ep ec
    let product : Int := (if sp then -1 else 1) * (((ma * mb) <<< (ep - e).toNat : Nat) : Int)
    let addend : Int := (if sc then -1 else 1) * ((mc <<< (ec - e).toNat : Nat) : Int)
    let sum := product + addend
    -- two negative terms cancel only when both are zeros
    if sum == 0 then doubleOfExact (sp && sc) 0 0
    else doubleOfExact (sum < 0) sum.natAbs e
  | _, _, _ => a * b + c

end BasicJvm.Number
