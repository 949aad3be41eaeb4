import BasicJvm.Number.Decimal

/-!
# Printing numbers

`PRINT` and `STR`-like conversions write a number with at most three places after the
point: the exact value of the float is rounded to three places (a tie going to the even
digit), and then trailing zeros and a trailing point are dropped.  Negative numbers keep
their sign even when they round to zero, so `-0.0004` prints as `-0`.  NaN prints as
`NaN` and the infinities as `∞` and `-∞`.
-/

namespace BasicJvm.Vm

open BasicJvm.Number

/-- Fixed-point text without trailing zeros after the point, and without a bare point. -/
def trimFraction (s : String) : String :=
  let cs := (s.toList.reverse.dropWhile (· == '0'))
  match cs with
  | '.' :: rest => String.ofList rest.reverse
  | _ => String.ofList cs.reverse

/-- The printed text of a number. -/
def formatNumber (x : Single) : String :=
  match x.value with
  | .nan => "NaN"
  | .infinite negative => if negative then "-∞" else "∞"
  | .finite .. => trimFraction (formatFixed Format.binary32 3 x.bits.toNat)

end BasicJvm.Vm
