import BasicJvm.Number.Binary

/-!
# Arithmetic on binary numbers

The operations of a binary format compute the exact result and round it once, to the
nearest value of the format with ties to the even significand (`Format.roundRatio`).  The
special values follow the usual rules: a NaN operand gives NaN, infinity minus infinity,
zero times infinity, zero over zero and infinity over infinity give NaN, and a nonzero
number over zero gives an infinity.  An exact zero sum is positive unless both addends are
negative; a product or quotient that rounds to zero keeps the sign of the exact result.
Which NaN comes out is not specified: no operation here can tell two NaNs apart.

`Format.order?` compares two values, `none` when one of them is NaN; the two zeros are
equal.  `Format.truncate` is the saturating conversion to a 32-bit integer: NaN goes to zero,
and values beyond the range go to its nearest end.

`Single` gets the binary32 instances of all of these.
-/

-- Powers use the core `NatPow` instance also where an algebra library is loaded, so that
-- the definitions below elaborate to the same terms in every build.
attribute [local instance (high)] instPowNat

namespace BasicJvm.Number

/-- The quiet NaN with a clear sign bit. -/
def Format.quietNaN (f : Format) : Nat := f.infinityBits + 2 ^ (f.fractionBits - 1)

/-- The pattern of the value nearest to `± n / d`. -/
def Format.roundSigned (f : Format) (negative : Bool) (n d : Nat) : Nat :=
  f.withSign negative (f.roundRatio n d)

/-- The signed infinity. -/
def Format.infinity (f : Format) (negative : Bool) : Nat := f.withSign negative f.infinityBits

/-- The sum of two patterns. -/
def Format.add (f : Format) (a b : Nat) : Nat :=
  match f.decode a, f.decode b with
  | .nan, _ => f.quietNaN
  | _, .nan => f.quietNaN
  | .infinite na, .infinite nb => if na == nb then f.infinity na else f.quietNaN
  | .infinite na, .finite .. => f.infinity na
  | .finite .., .infinite nb => f.infinity nb
  | .finite na ma ea, .finite nb mb eb =>
    let e := min ea eb
    let signed (negative : Bool) (m : Nat) (x : Int) : Int :=
      let v : Int := (m * 2 ^ (x - e).toNat : Nat)
      if negative then -v else v
    let v := signed na ma ea + signed nb mb eb
    if v == 0 then f.withSign (na && nb) 0
    else
      let (n, d) := scaleByPowerOfTwo v.natAbs 1 (-e)
      f.roundSigned (v < 0) n d

/-- The pattern with the sign bit flipped. -/
def Format.negate (f : Format) (a : Nat) : Nat :=
  if a / f.signBit % 2 == 1 then a - f.signBit else a + f.signBit

/-- The difference of two patterns: the sum with the negated subtrahend. -/
def Format.sub (f : Format) (a b : Nat) : Nat := f.add a (f.negate b)

/-- The product of two patterns. -/
def Format.mul (f : Format) (a b : Nat) : Nat :=
  match f.decode a, f.decode b with
  | .nan, _ => f.quietNaN
  | _, .nan => f.quietNaN
  | .infinite na, .infinite nb => f.infinity (na != nb)
  | .infinite na, .finite nb mb _ => if mb == 0 then f.quietNaN else f.infinity (na != nb)
  | .finite na ma _, .infinite nb => if ma == 0 then f.quietNaN else f.infinity (na != nb)
  | .finite na ma ea, .finite nb mb eb =>
    let (n, d) := scaleByPowerOfTwo (ma * mb) 1 (-(ea + eb))
    f.roundSigned (na != nb) n d

/-- The quotient of two patterns. -/
def Format.div (f : Format) (a b : Nat) : Nat :=
  match f.decode a, f.decode b with
  | .nan, _ => f.quietNaN
  | _, .nan => f.quietNaN
  | .infinite _, .infinite _ => f.quietNaN
  | .infinite na, .finite nb _ _ => f.infinity (na != nb)
  | .finite na _ _, .infinite nb => f.withSign (na != nb) 0
  | .finite na ma ea, .finite nb mb eb =>
    if mb == 0 then
      if ma == 0 then f.quietNaN else f.infinity (na != nb)
    else
      let (n, d) := scaleByPowerOfTwo ma mb (eb - ea)
      f.roundSigned (na != nb) n d

/-- The pattern nearest to an integer. -/
def Format.ofInt (f : Format) (i : Int) : Nat := f.roundSigned (i < 0) i.natAbs 1

/-- A key that orders the patterns that are not NaN by their values: the magnitude bits,
negated for negative patterns, so that the two zeros share the key zero. -/
def Format.orderKey (f : Format) (a : Nat) : Int :=
  let magnitude := a % f.signBit
  if a / f.signBit % 2 == 1 then -(magnitude : Int) else magnitude

/-- Whether a pattern is a NaN. -/
def Format.isNaN (f : Format) (a : Nat) : Bool :=
  match f.decode a with
  | .nan => true
  | _ => false

/-- How two patterns compare by value; `none` when one of them is NaN. -/
def Format.order? (f : Format) (a b : Nat) : Option Ordering :=
  if f.isNaN a || f.isNaN b then none else some (compare (f.orderKey a) (f.orderKey b))

/-- The least 32-bit integer. -/
def int32Min : Int := -2 ^ (31 : Nat)

/-- The greatest 32-bit integer. -/
def int32Max : Int := 2 ^ (31 : Nat) - 1

/-- The value of a pattern rounded toward zero and held to the 32-bit range; NaN gives
zero. -/
def Format.truncate (f : Format) (a : Nat) : Int :=
  match f.decode a with
  | .nan => 0
  | .infinite negative => if negative then int32Min else int32Max
  | .finite negative m e =>
    let whole : Nat := if 0 ≤ e then m * 2 ^ e.toNat else m / 2 ^ (-e).toNat
    let v : Int := if negative then -(whole : Int) else whole
    max int32Min (min int32Max v)

/-- The binary32 number one. -/
def Single.one : Single := ⟨0x3F800000⟩

/-- Lift a binary32 operation on patterns to `Single`. -/
def Single.onBits (op : Format → Nat → Nat → Nat) (x y : Single) : Single :=
  ⟨(op Format.binary32 x.bits.toNat y.bits.toNat).toUInt32⟩

/-- The rounded sum. -/
def Single.add (x y : Single) : Single := Single.onBits Format.add x y

/-- The rounded difference. -/
def Single.sub (x y : Single) : Single := Single.onBits Format.sub x y

/-- The rounded product. -/
def Single.mul (x y : Single) : Single := Single.onBits Format.mul x y

/-- The rounded quotient. -/
def Single.div (x y : Single) : Single := Single.onBits Format.div x y

/-- The binary32 number nearest to an integer. -/
def Single.ofInt (i : Int) : Single := ⟨(Format.binary32.ofInt i).toUInt32⟩

/-- How two numbers compare; `none` when one is NaN. -/
def Single.order? (x y : Single) : Option Ordering :=
  Format.binary32.order? x.bits.toNat y.bits.toNat

/-- Whether a number is NaN. -/
def Single.isNaN (x : Single) : Bool := Format.binary32.isNaN x.bits.toNat

/-- Whether a number is below zero (not a zero, not NaN). -/
def Single.isNegative (x : Single) : Bool := x.order? Single.zero == some .lt

/-- Whether a number is above zero. -/
def Single.isPositive (x : Single) : Bool := x.order? Single.zero == some .gt

/-- Whether a number is one of the two zeros. -/
def Single.isZero (x : Single) : Bool := x.order? Single.zero == some .eq

/-- The sign of a number as `-1`, `0` or `1`; NaN and the zeros stay as they are. -/
def Single.signum (x : Single) : Single :=
  if x.isPositive then Single.one
  else if x.isNegative then Single.one.neg
  else x

/-- The number with the sign bit cleared. -/
def Single.abs (x : Single) : Single := ⟨x.bits &&& 0x7FFFFFFF⟩

/-- The number rounded toward zero to a 32-bit integer, saturating. -/
def Single.truncate (x : Single) : Int := Format.binary32.truncate x.bits.toNat

/-- The least integer not below a finite number; `none` for NaN and the infinities. -/
def Single.ceil? (x : Single) : Option Int :=
  match x.value with
  | .finite negative m e =>
    if 0 ≤ e then
      let v : Int := (m * 2 ^ e.toNat : Nat)
      some (if negative then -v else v)
    else
      let unit := 2 ^ (-e).toNat
      let q : Int := (m / unit : Nat)
      some (if negative then -q else if m % unit == 0 then q else q + 1)
  | _ => none

end BasicJvm.Number
