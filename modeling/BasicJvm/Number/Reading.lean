import BasicJvm.Number.Binary

/-!
# Reading numbers from text

`readNumber f s` reads the whole text `s` as a number of the binary format `f`, rounding
the exact value of the text to the nearest value of the format.  The accepted forms are:

* `inf` or `infinity` in any case, with an optional sign, and `nan` in any case;
* an optional sign, then decimal digits with at most one point and at least one digit,
  then an optional exponent `e` or `E` with an optional sign and at least one digit;
* an optional sign, then `0x` or `0X`, hexadecimal digits with at most one point, and a
  mandatory binary exponent `p` or `P`.

An underscore may separate digits: it must stand between two digits, or between the `0x`
prefix and a digit.  A text that is not of these forms is refused, and so is a value too
large for the format (one that rounds to infinity).  A value too small rounds to zero.
-/

-- Powers use the core `NatPow` instance also where an algebra library is loaded, so that
-- the definitions below elaborate to the same terms in every build.
attribute [local instance (high)] instPowNat

namespace BasicJvm.Number

/-- The value of a decimal or hexadecimal digit character in base `base`. -/
def digitValue (base : Nat) (c : Char) : Option Nat :=
  if '0' ≤ c ∧ c ≤ '9' then some (c.toNat - 48)
  else if base == 16 ∧ 'a' ≤ c.toLower ∧ c.toLower ≤ 'f' then some (c.toLower.toNat - 87)
  else none

/-- Whether the text starts with the given lowercase word, ignoring case, and how many of
the word's characters match at the start. -/
def commonPrefixIgnoringCase : List Char → List Char → Nat
  | c :: cs, w :: ws => if c.toLower == w then commonPrefixIgnoringCase cs ws + 1 else 0
  | _, _ => 0

/-- The infinities and NaN, read from the whole text. -/
def readSpecial (f : Format) (s : List Char) : Option Nat :=
  let (negative, rest, signed) := match s with
    | '+' :: r => (false, r, true)
    | '-' :: r => (true, r, true)
    | r => (false, r, false)
  let n := commonPrefixIgnoringCase rest "infinity".toList
  let n := if 3 < n ∧ n < 8 then 3 else n
  if (n == 3 || n == 8) && rest.length == n then some (f.withSign negative f.infinityBits)
  else if !signed && commonPrefixIgnoringCase rest "nan".toList == 3 && rest.length == 3 then
    some (f.topExponent * 2 ^ f.fractionBits + 2 ^ (f.fractionBits - 1))
  else none

/-- The digits of a mantissa as read so far. -/
structure Mantissa where
  value : Nat := 0
  digits : Nat := 0
  /-- Digits after the point. -/
  fraction : Nat := 0
  sawPoint : Bool := false
  sawUnderscore : Bool := false

/-- Read mantissa characters: digits of the base, underscores, and one point. -/
def readMantissa (base : Nat) : Mantissa → List Char → Mantissa × List Char
  | m, [] => (m, [])
  | m, c :: cs =>
    if c == '_' then readMantissa base { m with sawUnderscore := true } cs
    else if c == '.' then
      if m.sawPoint then (m, c :: cs) else readMantissa base { m with sawPoint := true } cs
    else match digitValue base c with
      | some d =>
        let fraction := if m.sawPoint then m.fraction + 1 else m.fraction
        readMantissa base { m with value := m.value * base + d, digits := m.digits + 1, fraction } cs
      | none => (m, c :: cs)

/-- Read exponent digits and underscores; the value stops growing once it reaches 10000. -/
def readExponentDigits : Nat → Bool → List Char → Nat × Bool × List Char
  | e, u, [] => (e, u, [])
  | e, u, c :: cs =>
    if c == '_' then readExponentDigits e true cs
    else if '0' ≤ c ∧ c ≤ '9' then
      readExponentDigits (if e < 10000 then e * 10 + (c.toNat - 48) else e) u cs
    else (e, u, c :: cs)

/-- Whether the underscores of a number's text stand only between digits, or between the
base prefix and a digit. -/
def underscoresWellPlaced (s : List Char) : Bool :=
  let s := match s with
    | '+' :: r => r
    | '-' :: r => r
    | r => r
  -- the state: 0 after a digit or prefix, 1 after an underscore, 2 at the start or after
  -- anything else
  let (hex, start, rest) := match s with
    | '0' :: c :: r =>
      if c.toLower == 'x' then (true, 0, r)
      else if c.toLower == 'b' || c.toLower == 'o' then (false, 0, r)
      else (false, 2, s)
    | _ => (false, 2, s)
  let step (state : Option Nat) (c : Char) : Option Nat :=
    match state with
    | none => none
    | some st =>
      if ('0' ≤ c ∧ c ≤ '9') ∨ (hex ∧ 'a' ≤ c.toLower ∧ c.toLower ≤ 'f') then some 0
      else if c == '_' then (if st == 0 then some 1 else none)
      else if st == 1 then none
      else some 2
  match rest.foldl step (some start) with
  | some st => st != 1
  | none => false

/-- A number read from text, before rounding: `± mantissa · base ^ exponent`, where the
base is 10 for decimal text and 2 for hexadecimal text. -/
structure ExactNumber where
  negative : Bool
  mantissa : Nat
  /-- The radix: 10 for decimal text, 2 for hexadecimal text. -/
  radix : Nat
  exponent : Int

/-- Read decimal or hexadecimal number text, which must be used up entirely. -/
def readExact (s : List Char) : Option ExactNumber :=
  let (negative, body) := match s with
    | '+' :: r => (false, r)
    | '-' :: r => (true, r)
    | r => (false, r)
  let (hex, digitsText) := match body with
    | '0' :: x :: r => if x.toLower == 'x' && !r.isEmpty then (true, r) else (false, body)
    | _ => (false, body)
  let base := if hex then 16 else 10
  let (m, rest) := readMantissa base {} digitsText
  if m.digits == 0 then none else
  let expMark := if hex then 'p' else 'e'
  let exponentPart : Option (Int × Bool × List Char) :=
    match rest with
    | c :: r =>
      if c.toLower == expMark then
        let (esign, r) : Int × List Char := match r with
          | '+' :: r' => (1, r')
          | '-' :: r' => (-1, r')
          | r' => (1, r')
        match r with
        | d :: _ =>
          if '0' ≤ d ∧ d ≤ '9' then
            let (e, u, r) := readExponentDigits 0 false r
            some (esign * e, u, r)
          else none
        | [] => none
      else if hex then none else some (0, false, rest)
    | [] => if hex then none else some (0, false, [])
  match exponentPart with
  | none => none
  | some (e, expUnderscore, rest) =>
    if !rest.isEmpty then none
    else if (m.sawUnderscore || expUnderscore) && !underscoresWellPlaced s then none
    else if hex then some ⟨negative, m.value, 2, e - 4 * (m.fraction : Int)⟩
    else some ⟨negative, m.value, 10, e - (m.fraction : Int)⟩

/-- The number of decimal digits of a positive natural number. -/
def decimalLength (n : Nat) : Nat := (Nat.toDigits 10 n).length

/-- Round an exact number to the format; `none` when it is too large. -/
def ExactNumber.round (x : ExactNumber) (f : Format) : Option Nat :=
  if x.mantissa == 0 then some (f.withSign x.negative 0) else
  -- the size of the value in powers of its radix decides the far cases at once
  let size : Int :=
    if x.radix == 10 then (decimalLength x.mantissa : Int) + x.exponent
    else (Nat.log2 x.mantissa + 1 : Nat) + x.exponent
  let limit : Int := if x.radix == 10 then 400 else 1300
  if limit < size then none
  else if size < -limit then some (f.withSign x.negative 0)
  else
    let (n, d) :=
      if 0 ≤ x.exponent then (x.mantissa * x.radix ^ x.exponent.toNat, 1)
      else (x.mantissa, x.radix ^ (-x.exponent).toNat)
    let magnitude := f.roundRatio n d
    if magnitude == f.infinityBits then none else some (f.withSign x.negative magnitude)

/-- The binary32 number nearest to the binary64 number nearest to `x`: the value of a
number read as a double and then narrowed to a float.  A value too large for a double
becomes an infinity. -/
def ExactNumber.narrowed (x : ExactNumber) : Single :=
  let f := Format.binary64
  Single.ofDouble ((x.round f).getD (f.withSign x.negative f.infinityBits))

/-- The bit pattern of the number that the whole text `s` denotes in format `f`, or `none`
when the text is not a number or the number is too large for the format. -/
def readNumber (f : Format) (s : String) : Option Nat :=
  let cs := s.toList
  match readSpecial f cs with
  | some bits => some bits
  | none => (readExact cs).bind (·.round f)

/-- The binary32 number that the whole text denotes, if any. -/
def readSingle (s : String) : Option Single :=
  (readNumber Format.binary32 s).map fun bits => ⟨bits.toUInt32⟩

end BasicJvm.Number
