import Mathlib
import BasicJvm.Number.Arithmetic

/-!
# Integers rounded to binary32

`Single.ofInt` rounds an integer to the nearest binary32 number, a tie going to the even
significand (`Format.roundRatio` over the denominator one).  For a positive integer `n` below
`2 ^ 64` the pattern has a closed form (`roundRatio_one`): the exponent field is
`log2 n + 126`, and the significand with its leading bit is `n` scaled to 24 bits and rounded
(`intSignificand`), between `2 ^ 23` and `2 ^ 24`, where `2 ^ 24` is a carry into the next
binade that the exponent field takes up.  From it:

* rounding is monotone (`roundRatio_one_mono`): a larger integer never gets a smaller float;
* an integer that a float holds exactly rounds to that float (`roundRatio_one_exact`);
* an integer of magnitude below `2 ^ 64` becomes a finite float, whose pattern is its rounded
  magnitude with the sign bit of the integer (`Single.ofInt_bits`, `Single.ofInt_isNaN`).

`Single.order?` compares two numbers that are not NaN by their keys (`Single.order?_eq`): the
pattern of a positive number, the negated magnitude of a negative one (`Single.ofInt_key`).
Together these let a proof compare a column, converted to a float, with any float through
plain arithmetic on patterns, which is what the loop of `TAB` does.
-/

namespace BasicJvm.Number

/-! ## Rounding a quotient to nearest, ties to even -/

theorem roundHalfEven_eq (n d : Nat) : roundHalfEven n d =
    if d < 2 * (n % d) ∨ (2 * (n % d) = d ∧ n / d % 2 = 1) then n / d + 1 else n / d := by
  simp [roundHalfEven]

theorem div_le_roundHalfEven (n d : Nat) : n / d ≤ roundHalfEven n d := by
  rw [roundHalfEven_eq]
  split <;> omega

theorem roundHalfEven_le_succ (n d : Nat) : roundHalfEven n d ≤ n / d + 1 := by
  rw [roundHalfEven_eq]
  split <;> omega

/-- An exact quotient needs no rounding. -/
theorem roundHalfEven_mul (q : Nat) {d : Nat} (pos : 0 < d) : roundHalfEven (q * d) d = q := by
  rw [roundHalfEven_eq, Nat.mul_mod_left, Nat.mul_div_cancel q pos]
  simp
  omega

/-- A larger numerator never rounds to a smaller quotient. -/
theorem roundHalfEven_mono {n n' d : Nat} (h : n ≤ n') :
    roundHalfEven n d ≤ roundHalfEven n' d := by
  have quotients : n / d ≤ n' / d := Nat.div_le_div_right h
  rcases Nat.lt_or_eq_of_le quotients with lt | same
  · have := roundHalfEven_le_succ n d
    have := div_le_roundHalfEven n' d
    omega
  · -- the same quotient: the larger remainder rounds up whenever the smaller one does
    have split := Nat.div_add_mod n d
    have split' := Nat.div_add_mod n' d
    have remainders : n % d ≤ n' % d := by
      have : d * (n / d) = d * (n' / d) := by rw [same]
      omega
    rw [roundHalfEven_eq, roundHalfEven_eq, same]
    split <;> split <;> omega

/-! ## The closed form -/

theorem scaleByPowerOfTwo_log2 (n : Nat) :
    scaleByPowerOfTwo n 1 ((n.log2 : Int) - 23) = (n * 2 ^ (23 - n.log2), 2 ^ (n.log2 - 23)) := by
  unfold scaleByPowerOfTwo
  split
  · have : ((n.log2 : Int) - 23).toNat = n.log2 - 23 := by omega
    rw [this, show 23 - n.log2 = 0 by omega]
    simp
  · have : (-((n.log2 : Int) - 23)).toNat = 23 - n.log2 := by omega
    rw [this, show n.log2 - 23 = 0 by omega, Nat.pow_zero]

/-- Scaled to 24 bits, a positive integer has a quotient in `[2 ^ 23, 2 ^ 24)`. -/
theorem scaled_quotient {n : Nat} (pos : 0 < n) :
    2 ^ 23 ≤ n * 2 ^ (23 - n.log2) / 2 ^ (n.log2 - 23) ∧
      n * 2 ^ (23 - n.log2) / 2 ^ (n.log2 - 23) < 2 ^ 24 := by
  have low := Nat.log2_self_le (Nat.pos_iff_ne_zero.mp pos)
  have high := @Nat.lt_log2_self n
  by_cases short : n.log2 ≤ 23
  · -- a short integer is shifted left, exactly
    rw [show n.log2 - 23 = 0 by omega, Nat.pow_zero, Nat.div_one]
    have split : 2 ^ 23 = 2 ^ n.log2 * 2 ^ (23 - n.log2) := by
      rw [← Nat.pow_add]
      congr 1
      omega
    have split' : 2 ^ 24 = 2 ^ (n.log2 + 1) * 2 ^ (23 - n.log2) := by
      rw [← Nat.pow_add]
      congr 1
      omega
    constructor
    · rw [split]
      exact Nat.mul_le_mul_right _ low
    · rw [split']
      exact Nat.mul_lt_mul_of_pos_right high (Nat.two_pow_pos _)
  · -- a long integer is divided, with a remainder
    rw [show 23 - n.log2 = 0 by omega, Nat.pow_zero, Nat.mul_one]
    have split : 2 ^ n.log2 = 2 ^ 23 * 2 ^ (n.log2 - 23) := by
      rw [← Nat.pow_add]
      congr 1
      omega
    have split' : 2 ^ (n.log2 + 1) = 2 ^ 24 * 2 ^ (n.log2 - 23) := by
      rw [← Nat.pow_add]
      congr 1
      omega
    constructor
    · rw [Nat.le_div_iff_mul_le (Nat.two_pow_pos _)]
      omega
    · rw [Nat.div_lt_iff_lt_mul (Nat.two_pow_pos _)]
      omega

/-- The significand, leading bit included, that binary32 rounding gives a positive integer:
the integer scaled to 24 bits and rounded to nearest, ties to even. -/
def intSignificand (n : Nat) : Nat := roundHalfEven (n * 2 ^ (23 - n.log2)) (2 ^ (n.log2 - 23))

theorem intSignificand_bounds {n : Nat} (pos : 0 < n) :
    2 ^ 23 ≤ intSignificand n ∧ intSignificand n ≤ 2 ^ 24 := by
  have quotient := scaled_quotient pos
  have := div_le_roundHalfEven (n * 2 ^ (23 - n.log2)) (2 ^ (n.log2 - 23))
  have := roundHalfEven_le_succ (n * 2 ^ (23 - n.log2)) (2 ^ (n.log2 - 23))
  unfold intSignificand
  omega

/-- The binary32 pattern of a positive integer below `2 ^ 64`. -/
theorem roundRatio_one {n : Nat} (pos : 0 < n) (small : n < 2 ^ 64) :
    Format.binary32.roundRatio n 1 = (n.log2 + 126) * 2 ^ 23 + intSignificand n := by
  have log_lt : n.log2 < 64 := (Nat.log2_lt (by omega)).mpr small
  have bounds := intSignificand_bounds pos
  have quotient := scaled_quotient pos
  -- the first guess at the exponent is right: the scaled quotient needs no correction
  have guess : ((n.log2 : Int) - (Nat.log2 1 : Int) - ((24 - 1 : Nat) : Int)) =
      (n.log2 : Int) - 23 := by
    rw [show Nat.log2 1 = 0 by decide]
    omega
  have normal : max ((n.log2 : Int) - 23)
      (1 - ((2 ^ (8 - 1) - 1 : Nat) : Int) - ((24 - 1 : Nat) : Int)) = (n.log2 : Int) - 23 := by
    simp only [show (2 ^ (8 - 1) - 1 : Nat) = 127 from rfl, show (24 - 1 : Nat) = 23 from rfl]
    omega
  have nonzero : (n == 0 || 1 == 0) = false := by
    simp
    omega
  unfold Format.roundRatio
  simp only [Format.binary32, Format.minExponent, Format.bias, Format.fractionBits,
    Format.topExponent, Format.infinityBits, nonzero, guess, scaleByPowerOfTwo_log2,
    show ¬ (n * 2 ^ (23 - n.log2) / 2 ^ (n.log2 - 23) < 2 ^ (24 - 1)) by omega, if_false, normal]
  rw [show roundHalfEven (n * 2 ^ (23 - n.log2)) (2 ^ (n.log2 - 23)) = intSignificand n from rfl]
  simp only [Bool.false_eq_true, if_false, show (2 ^ (8 - 1) - 1 : Nat) = 127 from rfl,
    show (24 - 1 : Nat) = 23 from rfl]
  -- a carry into the next binade moves the exponent up by one
  by_cases carry : intSignificand n = 2 ^ 24
  · simp only [carry, beq_self_eq_true, if_true]
    split
    · omega
    · split <;> omega
  · simp only [beq_iff_eq, carry, if_false]
    split
    · omega
    · split <;> omega

@[simp] theorem roundRatio_zero : Format.binary32.roundRatio 0 1 = 0 := rfl

/-- The pattern of an integer below `2 ^ 64` is at most that of `2 ^ 64`, far below the
infinities. -/
theorem roundRatio_one_le {n : Nat} (small : n < 2 ^ 64) :
    Format.binary32.roundRatio n 1 ≤ 191 * 2 ^ 23 := by
  rcases Nat.eq_zero_or_pos n with rfl | pos
  · simp
  have log_lt : n.log2 < 64 := (Nat.log2_lt (by omega)).mpr small
  have bounds := intSignificand_bounds pos
  rw [roundRatio_one pos small]
  omega

/-! ## Monotone and exact -/

theorem log2_mono {n m : Nat} (pos : 0 < n) (h : n ≤ m) : n.log2 ≤ m.log2 :=
  (Nat.le_log2 (by omega)).mpr (Nat.le_trans (Nat.log2_self_le (by omega)) h)

/-- A larger integer never rounds to a smaller float. -/
theorem roundRatio_one_mono {n m : Nat} (h : n ≤ m) (small : m < 2 ^ 64) :
    Format.binary32.roundRatio n 1 ≤ Format.binary32.roundRatio m 1 := by
  rcases Nat.eq_zero_or_pos n with rfl | pos
  · simp
  have bounds := intSignificand_bounds pos
  have bounds' := intSignificand_bounds (Nat.lt_of_lt_of_le pos h)
  rw [roundRatio_one pos (by omega), roundRatio_one (by omega) small]
  rcases Nat.lt_or_eq_of_le (log2_mono pos h) with lower | same
  · -- a lower binade ends below the next one starts
    have : (n.log2 + 126) * 2 ^ 23 + 2 ^ 24 ≤ (m.log2 + 126) * 2 ^ 23 + 2 ^ 23 := by omega
    omega
  · -- the same binade: the significands are rounded with the same scale
    have scaled : intSignificand n ≤ intSignificand m := by
      unfold intSignificand
      rw [same]
      exact roundHalfEven_mono (Nat.mul_le_mul_right _ h)
    omega

theorem log2_significand_mul {m e : Nat} (low : 2 ^ 23 ≤ m) (high : m < 2 ^ 24) :
    (m * 2 ^ e).log2 = 23 + e := by
  have pos : m * 2 ^ e ≠ 0 :=
    Nat.mul_ne_zero (by omega) (Nat.pos_iff_ne_zero.mp (Nat.two_pow_pos e))
  apply Nat.le_antisymm
  · apply Nat.lt_succ_iff.mp
    rw [Nat.log2_lt pos, show (23 + e).succ = 24 + e by omega, Nat.pow_add]
    exact Nat.mul_lt_mul_of_pos_right high (Nat.two_pow_pos e)
  · rw [Nat.le_log2 pos, Nat.pow_add]
    exact Nat.mul_le_mul_right _ low

/-- An integer that a float holds exactly, with significand `m` and exponent `e`, rounds to
that float. -/
theorem roundRatio_one_exact {m e : Nat} (low : 2 ^ 23 ≤ m) (high : m < 2 ^ 24)
    (small : m * 2 ^ e < 2 ^ 64) :
    Format.binary32.roundRatio (m * 2 ^ e) 1 = (e + 149) * 2 ^ 23 + m := by
  have pos : 0 < m * 2 ^ e := Nat.mul_pos (by omega) (Nat.two_pow_pos e)
  rw [roundRatio_one pos small]
  have exact : intSignificand (m * 2 ^ e) = m := by
    unfold intSignificand
    rw [log2_significand_mul low high, show 23 - (23 + e) = 0 by omega,
      show 23 + e - 23 = e by omega, Nat.pow_zero, Nat.mul_one]
    exact roundHalfEven_mul m (Nat.two_pow_pos e)
  rw [exact, log2_significand_mul low high]
  omega

/-- An integer of at most `2 ^ 24` is held exactly: its pattern is `E · 2 ^ 23 + m` for a
significand `m` below `2 ^ 24` that has its leading bit above the subnormals, and
`m · 2 ^ E` is the integer scaled by `2 ^ 149`. -/
theorem roundRatio_one_small {j : Nat} (small : j ≤ 2 ^ 24) :
    ∃ E m, m < 2 ^ 24 ∧ (0 < E → 2 ^ 23 ≤ m) ∧
      Format.binary32.roundRatio j 1 = E * 2 ^ 23 + m ∧ m * 2 ^ E = j * 2 ^ 149 := by
  rcases Nat.eq_zero_or_pos j with rfl | pos
  · exact ⟨0, 0, by decide, nofun, by simp, by simp⟩
  by_cases top : j = 2 ^ 24
  · -- `2 ^ 24` needs the exponent one
    subst top
    refine ⟨150, 2 ^ 23, by decide, fun _ => Nat.le_refl _, ?_, by norm_num⟩
    rw [show (2 : Nat) ^ 24 = 2 ^ 23 * 2 ^ 1 by norm_num,
      roundRatio_one_exact (Nat.le_refl _) (by decide) (by decide)]
  · -- a shorter integer is shifted left onto 24 bits, exactly
    have short : j.log2 ≤ 23 := Nat.lt_succ_iff.mp ((Nat.log2_lt (by omega)).mpr (by omega))
    have bounds := scaled_quotient pos
    rw [show j.log2 - 23 = 0 by omega, Nat.pow_zero, Nat.div_one] at bounds
    have exact : intSignificand j = j * 2 ^ (23 - j.log2) := by
      unfold intSignificand
      rw [show j.log2 - 23 = 0 by omega, Nat.pow_zero]
      simpa using roundHalfEven_mul (j * 2 ^ (23 - j.log2)) Nat.one_pos
    refine ⟨j.log2 + 126, j * 2 ^ (23 - j.log2), bounds.2, fun _ => bounds.1, ?_, ?_⟩
    · rw [roundRatio_one pos (by omega), exact]
    · rw [Nat.mul_assoc, ← Nat.pow_add, show 23 - j.log2 + (j.log2 + 126) = 149 by omega]

/-- A float of a lower binade is below a float of a higher one. -/
theorem scaled_lt_of_binade_lt {E₁ m₁ E₂ m₂ : Nat} (high₁ : m₁ < 2 ^ 24) (low₂ : 2 ^ 23 ≤ m₂)
    (lower : E₁ < E₂) : m₁ * 2 ^ E₁ < m₂ * 2 ^ E₂ :=
  calc m₁ * 2 ^ E₁
    _ < 2 ^ 24 * 2 ^ E₁ := Nat.mul_lt_mul_of_pos_right high₁ (Nat.two_pow_pos _)
    _ = 2 ^ 23 * 2 ^ (E₁ + 1) := by rw [Nat.pow_succ]; ring
    _ ≤ m₂ * 2 ^ E₂ := Nat.mul_le_mul low₂ (Nat.pow_le_pow_right (by decide) lower)

/-- Two positive patterns `E · 2 ^ 23 + m`, each with a significand below `2 ^ 24` that has its
leading bit above the subnormals, are ordered as the values `m · 2 ^ E` they stand for. -/
theorem key_lt_iff_scaled_lt {E₁ m₁ E₂ m₂ : Nat} (high₁ : m₁ < 2 ^ 24)
    (normal₁ : 0 < E₁ → 2 ^ 23 ≤ m₁) (high₂ : m₂ < 2 ^ 24) (normal₂ : 0 < E₂ → 2 ^ 23 ≤ m₂) :
    E₁ * 2 ^ 23 + m₁ < E₂ * 2 ^ 23 + m₂ ↔ m₁ * 2 ^ E₁ < m₂ * 2 ^ E₂ := by
  rcases Nat.lt_trichotomy E₁ E₂ with lower | rfl | higher
  · have low₂ := normal₂ (by omega)
    have scaled := scaled_lt_of_binade_lt high₁ low₂ lower
    exact ⟨fun _ => scaled, fun _ => by omega⟩
  · rw [Nat.mul_lt_mul_right (Nat.two_pow_pos _)]
    omega
  · have low₁ := normal₁ (by omega)
    have scaled := scaled_lt_of_binade_lt high₂ low₁ higher
    constructor <;> intro <;> omega

/-! ## Patterns, keys and comparisons -/

/-- How the fields of a binary32 pattern decode. -/
theorem decode_binary32 (b : Nat) : Format.binary32.decode b =
    if b / 2 ^ 23 % 2 ^ 8 = 255 then
      (if b % 2 ^ 23 = 0 then .infinite (b / 2 ^ 31 % 2 == 1) else .nan)
    else if b / 2 ^ 23 % 2 ^ 8 = 0 then .finite (b / 2 ^ 31 % 2 == 1) (b % 2 ^ 23) (-149)
    else .finite (b / 2 ^ 31 % 2 == 1) (b % 2 ^ 23 + 2 ^ 23)
      (-149 + (b / 2 ^ 23 % 2 ^ 8 : Nat) - 1) := by
  simp [Format.decode, Format.binary32, Format.fractionBits, Format.topExponent, Format.signBit,
    Format.minExponent, Format.bias]

/-- A pattern whose magnitude is below the infinities is no NaN. -/
theorem isNaN_of_lt {a : Nat} (h : a % 2 ^ 31 < 255 * 2 ^ 23) :
    Format.binary32.isNaN a = false := by
  have field : a / 2 ^ 23 % 2 ^ 8 ≠ 255 := by omega
  unfold Format.isNaN
  rw [decode_binary32, if_neg field]
  by_cases zero : a / 2 ^ 23 % 2 ^ 8 = 0
  · rw [if_pos zero]
  · rw [if_neg zero]

theorem orderKey_binary32 (a : Nat) : Format.binary32.orderKey a =
    if a / 2 ^ 31 % 2 = 1 then -((a % 2 ^ 31 : Nat) : Int) else ((a % 2 ^ 31 : Nat) : Int) := by
  simp [Format.orderKey, Format.signBit, Format.binary32, Format.fractionBits]

/-- The key that orders a number among the others: its pattern when it is positive, its
negated magnitude when it is negative. -/
def Single.key (x : Single) : Int := Format.binary32.orderKey x.bits.toNat

/-- Two numbers that are not NaN compare by their keys. -/
theorem Single.order?_eq {x y : Single} (hx : x.isNaN = false) (hy : y.isNaN = false) :
    x.order? y = some (compare x.key y.key) := by
  unfold Single.order? Format.order? Single.key
  simp only [Single.isNaN] at hx hy
  simp [hx, hy]

theorem withSign_binary32 (negative : Bool) (r : Nat) :
    Format.binary32.withSign negative r = if negative then r + 2 ^ 31 else r := by
  cases negative <;> rfl

/-- The pattern of an integer of magnitude below `2 ^ 64`: its rounded magnitude, with the sign
bit set when it is negative. -/
theorem Single.ofInt_bits {i : Int} (small : i.natAbs < 2 ^ 64) :
    (Single.ofInt i).bits.toNat =
      if i < 0 then Format.binary32.roundRatio i.natAbs 1 + 2 ^ 31
      else Format.binary32.roundRatio i.natAbs 1 := by
  have bound := roundRatio_one_le small
  simp only [Single.ofInt, Format.ofInt, Format.roundSigned, withSign_binary32, decide_eq_true_eq]
  generalize Format.binary32.roundRatio i.natAbs 1 = r at bound ⊢
  rw [Nat.toUInt32_eq, UInt32.toNat_ofNat', Nat.mod_eq_of_lt (by split <;> omega)]

/-- An integer of magnitude below `2 ^ 64` becomes a finite float: never NaN. -/
theorem Single.ofInt_isNaN {i : Int} (small : i.natAbs < 2 ^ 64) :
    (Single.ofInt i).isNaN = false := by
  have bound := roundRatio_one_le small
  unfold Single.isNaN
  apply isNaN_of_lt
  rw [Single.ofInt_bits small]
  generalize Format.binary32.roundRatio i.natAbs 1 = r at bound ⊢
  split <;> omega

/-- The key of an integer of magnitude below `2 ^ 64`: its rounded magnitude, negated when the
integer is negative. -/
theorem Single.ofInt_key {i : Int} (small : i.natAbs < 2 ^ 64) :
    (Single.ofInt i).key = if i < 0 then -(Format.binary32.roundRatio i.natAbs 1 : Int)
      else (Format.binary32.roundRatio i.natAbs 1 : Int) := by
  have bound := roundRatio_one_le small
  unfold Single.key
  rw [Single.ofInt_bits small, orderKey_binary32]
  generalize Format.binary32.roundRatio i.natAbs 1 = r at bound ⊢
  by_cases negative : i < 0 <;> simp only [negative, if_true, if_false] <;> omega

/-- `2 ^ 63` and the integer just below it both round to the float `2 ^ 63`. -/
theorem roundRatio_two_pow_63 :
    Format.binary32.roundRatio (2 ^ 63 - 1) 1 = 190 * 2 ^ 23 ∧
      Format.binary32.roundRatio (2 ^ 63) 1 = 190 * 2 ^ 23 := by
  constructor <;> decide

end BasicJvm.Number
