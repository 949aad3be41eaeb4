import BasicJvm.Number.Binary

/-!
# Writing numbers as decimal text

Two rules give the decimal digits of a binary number.

* **Shortest.**  `shortestDigits` finds the fewest significant digits that read back as
  the same number.  The numbers that read back as `v` form an interval around it: half a
  unit of the last place on each side (a quarter below when `v` is a power of two that is
  not the smallest normal exponent), ends included when the significand is even.  The
  digits are those of the multiple of the largest power of ten for which the interval
  holds one; of the candidates the one nearest `v` is taken, a tie going to the even one.
* **Fixed.**  `fixedDigits` rounds the exact value to a number of places after the point,
  a tie going to the even last digit.

`Decimal` holds digits and the position of the point.  The renderings are
`Decimal.plain` (positional), `Decimal.scientific` (`d.ddde±XX`) and `Decimal.general`,
which is scientific when the exponent is below -4 or at least `eprec` and positional
otherwise.  `formatShortest` and `formatFixed` add sign, infinities and NaN.
-/

-- Powers use the core `NatPow` instance also where an algebra library is loaded, so that
-- the definitions below elaborate to the same terms in every build.
attribute [local instance (high)] instPowNat

namespace BasicJvm.Number

/-- Decimal digits with the position of the point: the value `0.d₁d₂…dₙ · 10 ^ point`.
Zero has no digits. -/
structure Decimal where
  digits : List Nat
  point : Int
  deriving DecidableEq, Repr

/-- The decimal digits of a natural number, most significant first. -/
def natDigits (n : Nat) : List Nat := (Nat.toDigits 10 n).map fun c => c.toNat - 48

/-- The ceiling `⌈n / d⌉` for positive `d`. -/
def ceilDiv (n d : Nat) : Nat := (n + d - 1) / d

/-- The rational `n / d` scaled down by `10 ^ k`: the pair `(n', d')` with
`n' / d' = n / (d · 10^k)`. -/
def scaleByPowerOfTen (n d : Nat) (k : Int) : Nat × Nat :=
  if 0 ≤ k then (n, d * 10 ^ k.toNat) else (n * 10 ^ (-k).toNat, d)

/-- The floor `⌊log₁₀ (n / d)⌋` for positive `n` and `d`. -/
def floorLog10 (n d : Nat) : Int :=
  if d ≤ n then ((Nat.toDigits 10 (n / d)).length : Int) - 1
  else
    let r := (Nat.toDigits 10 (d / n)).length - 1
    if d == n * 10 ^ r then -(r : Int) else -(r : Int) - 1

/-- The interval of reals that read back as the finite positive value
`significand · 2 ^ exponent` of format `f`, as numerators over `2 ^ scale`:
`(low, centre, high, scale, inclusive)`. -/
def roundingInterval (f : Format) (significand : Nat) (exponent : Int) :
    Nat × Nat × Nat × Int × Bool :=
  let inclusive := significand % 2 == 0
  if significand == 2 ^ f.fractionBits && exponent != f.minExponent then
    (4 * significand - 1, 4 * significand, 4 * significand + 2, exponent - 2, inclusive)
  else (2 * significand - 1, 2 * significand, 2 * significand + 1, exponent - 1, inclusive)

/-- The multiples `t` of `10 ^ k` in the interval from `low / den` to `high / den`: the
least and the greatest `t`, which may cross when there is none. -/
def multiplesIn (low high den : Nat) (k : Int) (inclusive : Bool) : Nat × Nat :=
  let (ln, ld) := scaleByPowerOfTen low den k
  let (hn, hd) := scaleByPowerOfTen high den k
  let least := if inclusive || ln % ld != 0 then ceilDiv ln ld else ln / ld + 1
  let greatest := if inclusive || hn % hd != 0 then hn / hd else hn / hd - 1
  (least, greatest)

/-- Search downwards from `10 ^ k` for the first power of ten with a multiple in the
interval, and take the multiple nearest the centre. -/
def shortestSearch (low centre high den : Nat) (inclusive : Bool) :
    Nat → Int → Decimal
  | 0, _ => ⟨[], 0⟩
  | fuel + 1, k =>
    let (least, greatest) := multiplesIn low high den k inclusive
    if least ≤ greatest ∧ 0 < greatest then
      let (cn, cd) := scaleByPowerOfTen centre den k
      let near := roundHalfEven cn cd
      let t := if greatest < near then greatest else if near < least then least else near
      let ds := natDigits t
      ⟨ds, k + ds.length⟩
    else shortestSearch low centre high den inclusive fuel (k - 1)

/-- The shortest digits that read back as the finite positive value
`significand · 2 ^ exponent` of format `f`. -/
def shortestDigits (f : Format) (significand : Nat) (exponent : Int) : Decimal :=
  if significand == 0 then ⟨[], 0⟩ else
  let (low, centre, high, scale, inclusive) := roundingInterval f significand exponent
  let (hn, hd) := scaleByPowerOfTwo high 1 (-scale)
  let den := hd
  let numer (x : Nat) := (scaleByPowerOfTwo x 1 (-scale)).1
  shortestSearch (numer low) (numer centre) hn den inclusive 400 (floorLog10 hn hd)

/-- The digits of the exact value `n / d` rounded to `places` places after the point, a
tie going to the even last digit. -/
def fixedDigits (n d places : Nat) : Decimal :=
  let t := roundHalfEven (n * 10 ^ places) d
  if t == 0 then ⟨[], 0⟩ else
  let ds := natDigits t
  ⟨ds, (ds.length : Int) - places⟩

/-- The character of a decimal digit. -/
def digitChar (d : Nat) : Char := Char.ofNat (48 + d)

/-- The `i`-th digit (from 0), or `0` past the end. -/
def Decimal.digitAt (x : Decimal) (i : Int) : Nat :=
  if 0 ≤ i then x.digits.getD i.toNat 0 else 0

/-- Positional text with `places` digits after the point (none and no point when `places`
is zero). -/
def Decimal.plain (x : Decimal) (places : Nat) : String :=
  let intPart : List Char :=
    if x.point ≤ 0 then ['0']
    else (List.range x.point.toNat).map fun (i : Nat) => digitChar (x.digitAt (i : Int))
  let fracPart : List Char :=
    if places == 0 then []
    else '.' :: (List.range places).map fun (i : Nat) => digitChar (x.digitAt (x.point + (i : Int)))
  String.ofList (intPart ++ fracPart)

/-- Scientific text `d.ddd` with `places` digits after the point, then `e`, the sign of the
exponent and at least two exponent digits. -/
def Decimal.scientific (x : Decimal) (places : Nat) : String :=
  let first := digitChar (x.digitAt 0)
  let frac : List Char :=
    if places == 0 then []
    else '.' :: (List.range places).map fun (i : Nat) => digitChar (x.digitAt ((i : Int) + 1))
  let exp : Int := if x.digits.isEmpty then 0 else x.point - 1
  let expDigits := Nat.toDigits 10 exp.natAbs
  let expDigits := if expDigits.length < 2 then '0' :: expDigits else expDigits
  String.ofList (first :: frac ++ 'e' :: (if exp < 0 then '-' else '+') :: expDigits)

/-- The general rendering of shortest digits: scientific when the exponent is below -4 or
at least `eprec`, positional otherwise, each with exactly the digits there are. -/
def Decimal.general (x : Decimal) (eprec : Int) : String :=
  let exp := x.point - 1
  let n := x.digits.length
  if !x.digits.isEmpty && (exp < -4 || eprec ≤ exp) then x.scientific (n - 1)
  else x.plain (max ((n : Int) - x.point) 0).toNat

/-- How shortest digits are laid out. -/
inductive Layout where
  /-- Positional or scientific, by the size of the exponent. -/
  | general
  /-- Always positional. -/
  | positional
  deriving DecidableEq

/-- The shortest text of a bit pattern of format `f`: `NaN`, `+Inf`, `-Inf`, or the
shortest digits laid out as asked, with a leading `-` for negative numbers and negative
zero. -/
def formatShortest (f : Format) (layout : Layout) (bits : Nat) : String :=
  match f.decode bits with
  | .nan => "NaN"
  | .infinite negative => if negative then "-Inf" else "+Inf"
  | .finite negative significand exponent =>
    let x := shortestDigits f significand exponent
    let body := match layout with
      | .general => x.general 6
      | .positional => x.plain (max ((x.digits.length : Int) - x.point) 0).toNat
    if negative then "-" ++ body else body

/-- The shortest general text of a binary32 number, as `1e+06` or `0.1`. -/
def Single.shortest (x : Single) : String :=
  formatShortest Format.binary32 .general x.bits.toNat

/-- The shortest positional text of a binary32 number, as `1000000` or `0.1`. -/
def Single.positional (x : Single) : String :=
  formatShortest Format.binary32 .positional x.bits.toNat

/-- Positional text with exactly `places` places of the exact value of a bit pattern of
format `f`, rounded half to even; infinities and NaN as `+Inf`, `-Inf` and `NaN`. -/
def formatFixed (f : Format) (places : Nat) (bits : Nat) : String :=
  match f.decode bits with
  | .nan => "NaN"
  | .infinite negative => if negative then "-Inf" else "+Inf"
  | .finite negative significand exponent =>
    let (n, d) := scaleByPowerOfTwo significand 1 (-exponent)
    let body := (fixedDigits n d places).plain places
    if negative then "-" ++ body else body

end BasicJvm.Number
