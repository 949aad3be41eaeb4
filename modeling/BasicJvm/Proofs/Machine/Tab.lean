import BasicJvm.Proofs.Machine.Exec
import BasicJvm.Proofs.Number.Rounding
import BasicJvm.Machine.Run

/-!
# How far `TAB` writes

`TAB(x)` writes a space for each column from the current one on while the column, converted to
a float, is below `x` (`tabLoop`).  The column is a 64-bit integer, so past `2 ^ 63 - 1` it
wraps around to the negative columns, and every 64-bit column converts to a float of at most
`2 ^ 63`.  The loop therefore ends exactly when `x` is not above `2 ^ 63`:

* above `2 ^ 63`, and at positive infinity, every column converts to a float below `x`, and
  the loop never ends (`tabSpaces_above`);
* otherwise the loop stops at the latest at the ceiling of `x`, or at `2 ^ 63 - 1` when that
  ceiling is `2 ^ 63`, so it writes at most as many spaces as there are columns below the
  ceiling, and none when `x` is NaN or at most the current column (`tabSpaces_bounded`).

The loop compares through keys (`Single.key`): a column `j` below `2 ^ 64` has the key
`roundRatio j 1`, monotone in `j` (`roundRatio_one_mono`), and a float whose ceiling is above
`2 ^ 24` is an integer, with the rounded pattern of that integer as its key
(`Single.ceil?_large`).  It may stop before the ceiling, where a column rounds up to `x`.

`tabSpaces` counts the spaces without running the loop when the ceiling is at most `2 ^ 24`,
and for NaN and negative infinity.  It gives the loop's count all the same
(`tabSpaces_eq_tabLoop`): a column up to `2 ^ 24` is a float exactly (`roundRatio_one_small`),
whose key compares with the key of `x` as the column compares with the ceiling of `x`
(`tabContinues_of_small`), so the loop stops at the ceiling itself (`tabLoop_exact`).

Main statement: `tab_spaces_or_endless`, the run of the runtime method `TAB` from any machine
whose column is a 64-bit column.
-/

namespace BasicJvm.Number

/-! ## Floats with a ceiling -/

/-- A number is NaN when its value is. -/
theorem Single.isNaN_value (x : Single) :
    x.isNaN = match x.value with
      | .nan => true
      | _ => false := rfl

/-- A pattern with its sign bit set has its negated lower 31 bits as its key. -/
theorem Single.key_of_signBit_set {x : Single} (sign : (x.bits.toNat / 2 ^ 31 % 2 == 1) = true) :
    x.key = -((x.bits.toNat % 2 ^ 31 : Nat) : Int) := by
  unfold Single.key
  rw [orderKey_binary32, if_pos (beq_iff_eq.mp sign)]

/-- A pattern with its sign bit clear has its lower 31 bits as its key. -/
theorem Single.key_of_signBit_clear {x : Single} (sign : (x.bits.toNat / 2 ^ 31 % 2 == 1) = false) :
    x.key = ((x.bits.toNat % 2 ^ 31 : Nat) : Int) := by
  unfold Single.key
  rw [orderKey_binary32, if_neg (beq_eq_false_iff_ne.mp sign)]

/-- A finite value `± m · 2 ^ e` read off its pattern: never NaN, a significand of at most 24
bits, and for a positive one the key `(e + 149) · 2 ^ 23 + m`, which covers the subnormals
(`e = -149`) and the normal numbers, whose significand has its leading bit. -/
theorem Single.value_finite {x : Single} {negative : Bool} {m : Nat} {e : Int}
    (h : x.value = .finite negative m e) :
    x.isNaN = false ∧ m < 2 ^ 24 ∧ (-149 < e → 2 ^ 23 ≤ m) ∧
      (negative = true → x.key ≤ 0) ∧
      (negative = false → x.key = (e + 149) * 2 ^ 23 + m) := by
  have bits := x.bits.toNat_lt
  have notNaN : x.isNaN = false := by
    rw [Single.isNaN_value, h]
  unfold Single.value at h
  rw [decode_binary32] at h
  by_cases top : x.bits.toNat / 2 ^ 23 % 2 ^ 8 = 255
  · -- the top exponent field holds the infinities and the NaNs
    rw [if_pos top] at h
    split at h <;> cases h
  rw [if_neg top] at h
  by_cases subnormal : x.bits.toNat / 2 ^ 23 % 2 ^ 8 = 0
  · rw [if_pos subnormal] at h
    obtain ⟨rfl, rfl, rfl⟩ := h
    refine ⟨notNaN, by omega, by omega, fun sign => ?_, fun sign => ?_⟩
    · rw [Single.key_of_signBit_set sign]
      omega
    · rw [Single.key_of_signBit_clear sign]
      omega
  · rw [if_neg subnormal] at h
    obtain ⟨rfl, rfl, rfl⟩ := h
    refine ⟨notNaN, by omega, by omega, fun sign => ?_, fun sign => ?_⟩
    · rw [Single.key_of_signBit_set sign]
      omega
    · rw [Single.key_of_signBit_clear sign]
      omega

/-- A finite value has an exponent of at least `-149`, that of the subnormals. -/
theorem Single.value_exponent {x : Single} {negative : Bool} {m : Nat} {e : Int}
    (h : x.value = .finite negative m e) : -149 ≤ e := by
  unfold Single.value at h
  rw [decode_binary32] at h
  split at h
  · split at h <;> cases h
  · split at h
    · cases h
      exact Int.le_refl _
    · cases h
      omega

/-- Rounding a quotient up: `j` is below `⌈m / d⌉` exactly when `j · d` is below `m`. -/
theorem lt_div_ceil_iff {m d : Nat} (pos : 0 < d) (j : Nat) :
    j < m / d + (if m % d = 0 then 0 else 1) ↔ j * d < m := by
  by_cases exact : m % d = 0
  · obtain ⟨q, rfl⟩ : ∃ q, m = q * d :=
      ⟨m / d, (Nat.div_mul_cancel (Nat.dvd_of_mod_eq_zero exact)).symm⟩
    rw [if_pos exact, Nat.add_zero, Nat.mul_div_cancel q pos, Nat.mul_lt_mul_right pos]
  · -- a multiple of `d` is never `m` itself
    rw [if_neg exact, Nat.lt_succ_iff, Nat.le_div_iff_mul_le pos]
    refine ⟨fun le => Nat.lt_of_le_of_ne le fun same => exact ?_, Nat.le_of_lt⟩
    rw [← same, Nat.mul_mod_left]

/-- An integer `j` is below the ceiling of a positive finite value `m · 2 ^ e` exactly when it
is below the value, both scaled by `2 ^ 149` to integers. -/
theorem Single.lt_ceil?_iff {x : Single} {c : Int} (h : x.ceil? = some c) {m : Nat} {e : Int}
    (value : x.value = .finite false m e) (j : Nat) :
    (j : Int) < c ↔ j * 2 ^ 149 < m * 2 ^ (e + 149).toNat := by
  have exponent := Single.value_exponent value
  unfold Single.ceil? at h
  rw [value] at h
  by_cases whole : 0 ≤ e
  · simp only [whole, if_true, Bool.false_eq_true, if_false, Option.some.injEq] at h
    rw [← h, show (e + 149).toNat = e.toNat + 149 by omega, Nat.pow_add, ← Nat.mul_assoc,
      Nat.mul_lt_mul_right (Nat.two_pow_pos _)]
    omega
  · -- below one, the value is `m / 2 ^ k` for `k = -e`, rounded up to the ceiling
    simp only [whole, if_false, Bool.false_eq_true, Option.some.injEq] at h
    have split : 2 ^ 149 = 2 ^ (-e).toNat * 2 ^ (e + 149).toNat := by
      rw [← Nat.pow_add]
      congr 1
      omega
    rw [split, ← Nat.mul_assoc, Nat.mul_lt_mul_right (Nat.two_pow_pos _),
      ← lt_div_ceil_iff (Nat.two_pow_pos _), ← h]
    generalize 2 ^ (-e).toNat = d
    by_cases exact : m % d = 0
    · simp only [exact, beq_self_eq_true, if_true, Nat.add_zero]
      omega
    · simp only [exact, beq_iff_eq, if_false]
      omega

/-- The ceiling of a finite value `± m · 2 ^ e`: at most zero for a negative one, the integer
itself for a positive one with `0 ≤ e`, and at most `m / 2 + 1` below that. -/
theorem Single.ceil?_eq_some {x : Single} {c : Int} (h : x.ceil? = some c) :
    ∃ negative m e, x.value = .finite negative m e ∧ (negative = true → c ≤ 0) ∧
      (negative = false →
        (0 ≤ e → c = (m * 2 ^ e.toNat : Nat)) ∧ (e < 0 → c ≤ m / 2 + 1)) := by
  unfold Single.ceil? at h
  split at h
  · rename_i negative m e value
    refine ⟨negative, m, e, value, ?_⟩
    cases negative
    · refine ⟨nofun, fun _ => ⟨fun nonnegative => ?_, fun negativeExponent => ?_⟩⟩
      · simp only [nonnegative, if_true, Bool.false_eq_true, if_false, Option.some.injEq] at h
        exact h.symm
      · -- a negative exponent halves the significand at least once
        have halved : m / 2 ^ (-e).toNat ≤ m / 2 :=
          Nat.div_le_div_left (Nat.le_trans (show 2 ≤ 2 ^ 1 by decide)
            (Nat.pow_le_pow_right (by decide) (show 1 ≤ (-e).toNat by omega))) (by decide)
        simp only [show ¬ 0 ≤ e by omega, if_false, Bool.false_eq_true, Option.some.injEq] at h
        generalize m / 2 ^ (-e).toNat = q at h halved
        split at h <;> omega
    · -- the ceiling of a negative value is the negated magnitude rounded toward zero
      refine ⟨fun _ => ?_, nofun⟩
      split at h <;> simp only [Option.some.injEq] at h <;> rw [← h] <;>
        exact Int.neg_nonpos_of_nonneg (Int.natCast_nonneg _)
  · cases h

/-- A float whose ceiling is at most `2 ^ 24` has a key below that of `2 ^ 25`. -/
theorem Single.key_of_ceil?_small {x : Single} {c : Int} (h : x.ceil? = some c)
    (small : c ≤ 2 ^ 24) : x.key < 152 * 2 ^ 23 := by
  obtain ⟨negative, m, e, value, below, above⟩ := Single.ceil?_eq_some h
  obtain ⟨-, significand, leading, keyNeg, keyPos⟩ := Single.value_finite value
  cases negative
  · obtain ⟨whole, -⟩ := above rfl
    rw [keyPos rfl]
    by_cases fraction : e < 0
    · omega
    -- an integer of at most `2 ^ 24` with a leading bit has an exponent of at most one
    have exponent : e.toNat ≤ 1 := by
      refine Nat.le_of_not_lt fun big => ?_
      have : 2 ^ 2 ≤ 2 ^ e.toNat := Nat.pow_le_pow_right (by decide) (by omega)
      have : 2 ^ 23 * 2 ^ 2 ≤ m * 2 ^ e.toNat := Nat.mul_le_mul (leading (by omega)) this
      have := whole (by omega)
      omega
    omega
  · have := keyNeg rfl
    omega

/-- A float whose ceiling is above `2 ^ 24` is the integer `m · 2 ^ e` of a 24-bit significand
with its leading bit, and its key is the pattern that integer rounds to. -/
theorem Single.ceil?_large {x : Single} {c : Int} (h : x.ceil? = some c) (large : 2 ^ 24 < c) :
    ∃ m e : Nat, 2 ^ 23 ≤ m ∧ m < 2 ^ 24 ∧ c = (m * 2 ^ e : Nat) ∧
      x.key = (e + 149) * 2 ^ 23 + m := by
  obtain ⟨negative, m, e, value, below, above⟩ := Single.ceil?_eq_some h
  obtain ⟨-, significand, leading, -, keyPos⟩ := Single.value_finite value
  cases negative
  · obtain ⟨whole, fraction⟩ := above rfl
    have exponent : 0 ≤ e := Int.not_lt.mp fun negativeExponent => by
      have := fraction negativeExponent
      omega
    refine ⟨m, e.toNat, leading (by omega), significand, whole exponent, ?_⟩
    rw [keyPos rfl]
    omega
  · have := below rfl
    omega

/-- The infinities: never NaN, with the key `± 255 · 2 ^ 23`. -/
theorem Single.value_infinite {x : Single} {negative : Bool} (h : x.value = .infinite negative) :
    x.isNaN = false ∧ x.key = if negative then -(255 * 2 ^ 23) else 255 * 2 ^ 23 := by
  have bits := x.bits.toNat_lt
  have notNaN : x.isNaN = false := by
    rw [Single.isNaN_value, h]
  unfold Single.value at h
  rw [decode_binary32] at h
  refine ⟨notNaN, ?_⟩
  by_cases top : x.bits.toNat / 2 ^ 23 % 2 ^ 8 = 255
  · rw [if_pos top] at h
    split at h
    · -- an infinity: the sign bit gives the sign of the key
      cases h
      cases sign : (x.bits.toNat / 2 ^ 31 % 2 == 1)
      · rw [Single.key_of_signBit_clear sign, if_neg Bool.false_ne_true]
        omega
      · rw [Single.key_of_signBit_set sign, if_pos rfl]
        omega
    · cases h
  · rw [if_neg top] at h
    split at h <;> cases h

/-- A number with a ceiling is no NaN. -/
theorem Single.isNaN_of_ceil? {x : Single} {c : Int} (h : x.ceil? = some c) : x.isNaN = false := by
  obtain ⟨_, _, _, value, -⟩ := Single.ceil?_eq_some h
  exact (Single.value_finite value).1

theorem some_compare_beq_lt (a b : Int) :
    (some (compare a b) == some .lt) = decide (a < b) := by
  by_cases lt : a < b
  · simp [lt, Int.compare_eq_lt.mpr lt]
  · have : compare a b ≠ .lt := mt Int.compare_eq_lt.mp lt
    simp [lt, this]

/-- A number that is no NaN is negative exactly when its key is. -/
theorem Single.isNegative_eq {x : Single} (hx : x.isNaN = false) :
    x.isNegative = decide (x.key < 0) := by
  unfold Single.isNegative
  rw [Single.order?_eq hx (by decide), show Single.zero.key = 0 by decide]
  exact some_compare_beq_lt _ _

/-- Whether a number is at most an integer: a finite number whose ceiling is at most the
integer, or negative infinity. -/
def Single.atMost (x : Single) (c : Int) : Bool :=
  match x.ceil? with
  | some k => decide (k ≤ c)
  | none => x.isNegative

end BasicJvm.Number

namespace BasicJvm.Vm

open BasicJvm.Number

/-! ## Comparing a column with `x` -/

/-- A column of magnitude below `2 ^ 64` is below a number that is no NaN exactly when its key
is. -/
theorem tabContinues_eq {x : Single} (hx : x.isNaN = false) {j : Int} (small : j.natAbs < 2 ^ 64) :
    tabContinues x j = decide ((Single.ofInt j).key < x.key) := by
  unfold tabContinues
  rw [Single.order?_eq (Single.ofInt_isNaN small) hx]
  exact some_compare_beq_lt _ _

/-- Above `2 ^ 63` every 64-bit column converts to a smaller float: the nonnegative ones to at
most `2 ^ 63`, the negative ones to negative floats. -/
theorem tabContinues_above {x : Single} (hx : x.isNaN = false) (above : 190 * 2 ^ 23 < x.key)
    (j : Int64) : tabContinues x j.toInt = true := by
  have low := Int64.le_toInt j
  have high := Int64.toInt_lt j
  have small : j.toInt.natAbs < 2 ^ 64 := by omega
  rw [tabContinues_eq hx small, Single.ofInt_key small]
  by_cases negative : j.toInt < 0
  · simp only [negative, if_true, decide_eq_true_eq]
    omega
  · have rounded : Format.binary32.roundRatio j.toInt.natAbs 1 ≤ 190 * 2 ^ 23 := by
      rw [← roundRatio_two_pow_63.1]
      exact roundRatio_one_mono (by omega) (by omega)
    simp only [negative, if_false, decide_eq_true_eq]
    omega

/-- A column whose float reaches a number that is no NaN stops the loop. -/
theorem tabContinues_stop {x : Single} (hx : x.isNaN = false) {j : Nat} (small : j < 2 ^ 64)
    (reached : x.key ≤ Format.binary32.roundRatio j 1) : tabContinues x j = false := by
  have small' : (j : Int).natAbs < 2 ^ 64 := by simpa using small
  rw [tabContinues_eq hx small', Single.ofInt_key small']
  simp only [Int.natAbs_natCast, show ¬ ((j : Int) < 0) by omega, if_false,
    decide_eq_false_iff_not]
  omega

/-- Once a column reaches a number that is no NaN, so does every later column below `2 ^ 64`. -/
theorem tabContinues_false_mono {x : Single} (hx : x.isNaN = false) {j k : Nat} (h : j ≤ k)
    (small : k < 2 ^ 64) (stop : tabContinues x j = false) : tabContinues x k = false := by
  have small' : (j : Int).natAbs < 2 ^ 64 := by simp only [Int.natAbs_natCast]; omega
  rw [tabContinues_eq hx small', Single.ofInt_key small'] at stop
  simp only [Int.natAbs_natCast, show ¬ ((j : Int) < 0) by omega, if_false,
    decide_eq_false_iff_not, Int.not_lt] at stop
  exact tabContinues_stop hx small
    (Int.le_trans stop (Int.ofNat_le.mpr (roundRatio_one_mono h small)))

/-- A column of at most `2 ^ 24` is below a number with a ceiling exactly when it is below the
ceiling: the column converts to a float exactly, and compares with `x` as integers do. -/
theorem tabContinues_of_small {x : Single} {c : Int} (ceiling : x.ceil? = some c) {j : Nat}
    (small : j ≤ 2 ^ 24) : tabContinues x j = decide ((j : Int) < c) := by
  have small' : (j : Int).natAbs < 2 ^ 64 := by simp only [Int.natAbs_natCast]; omega
  rw [tabContinues_eq (Single.isNaN_of_ceil? ceiling) small', Single.ofInt_key small']
  simp only [Int.natAbs_natCast, show ¬ ((j : Int) < 0) by omega, if_false, decide_eq_decide]
  obtain ⟨negative, m, e, value, below, -⟩ := Single.ceil?_eq_some ceiling
  obtain ⟨-, high, normal, keyNeg, keyPos⟩ := Single.value_finite value
  have exponent := Single.value_exponent value
  cases negative
  · -- both are positive patterns: compare the values they stand for, scaled by `2 ^ 149`
    obtain ⟨E, m', high', normal', key, scaled⟩ := roundRatio_one_small small
    rw [keyPos rfl, key, Single.lt_ceil?_iff ceiling value j, ← scaled,
      ← key_lt_iff_scaled_lt high' normal' high (fun pos => normal (by omega))]
    omega
  · -- a negative value is below every column, and so is its ceiling
    have := keyNeg rfl
    have := below rfl
    omega

/-- NaN and every negative number stop the loop at every column. -/
theorem tabContinues_of_nan_or_negative {x : Single} (h : (x.isNaN || x.isNegative) = true)
    {j : Nat} (small : j < 2 ^ 64) : tabContinues x j = false := by
  cases nan : x.isNaN
  · rw [nan, Bool.false_or, Single.isNegative_eq nan, decide_eq_true_eq] at h
    exact tabContinues_stop nan small (by omega)
  · unfold tabContinues Single.order? Format.order?
    simp only [Single.isNaN] at nan
    simp [nan]

/-- The float `2 ^ 63` is below `x` exactly when `x` is no NaN and has a key above `2 ^ 63`'s. -/
theorem order?_two_pow_63 (x : Single) :
    (Single.ofInt (2 ^ 63)).order? x = some .lt ↔ x.isNaN = false ∧ 190 * 2 ^ 23 < x.key := by
  have small : ((2 : Int) ^ 63).natAbs < 2 ^ 64 := by decide
  cases nan : x.isNaN
  · have key : (Single.ofInt (2 ^ 63)).key = 190 * 2 ^ 23 := by
      rw [Single.ofInt_key small]
      simp only [show ¬ ((2 : Int) ^ 63 < 0) by decide, if_false,
        show ((2 : Int) ^ 63).natAbs = 2 ^ 63 from rfl, roundRatio_two_pow_63.2]
      rfl
    rw [Single.order?_eq (Single.ofInt_isNaN small) nan, key]
    simp [Int.compare_eq_lt]
  · have none : (Single.ofInt (2 ^ 63)).order? x = none := by
      unfold Single.order? Format.order?
      simp only [Single.isNaN] at nan
      simp [nan]
    rw [none]
    simp

/-! ## The loop -/

theorem int64_toInt_succ (i : Int64) (h : i.toInt < 2 ^ 63 - 1) : (i + 1).toInt = i.toInt + 1 := by
  have := Int64.le_toInt i
  rw [Int64.toInt_add, Int64.toInt_one, Int.bmod_eq_of_le] <;> omega

theorem int64_toInt_ofNat (n : Nat) (h : n < 2 ^ 63) : (Int64.ofNat n).toInt = n := by
  rw [Int64.toInt_ofNat', Int.bmod_eq_of_le] <;> (simp only [Int64.size]; omega)

/-- The loop stops exactly `d` columns further on, having written `d` more spaces, when the
test holds at every column before and fails there, no column on the way wrapping around and
the fuel lasting. -/
theorem tabLoop_exact (x : Single) (d : Nat) :
    ∀ (i : Int64) (n fuel : Nat), i.toInt + d < 2 ^ 63 → d < fuel →
      (∀ t < d, tabContinues x (i.toInt + t) = true) → tabContinues x (i.toInt + d) = false →
      tabLoop x fuel i n = some (n + d) := by
  -- induction on the distance to the column where the test fails
  induction d with
  | zero =>
    intro i n fuel _ fuel_pos _ stop
    obtain ⟨fuel, rfl⟩ : ∃ f, fuel = f + 1 := ⟨fuel - 1, by omega⟩
    simp only [Int.natCast_zero, Int.add_zero] at stop
    simp [tabLoop, stop]
  | succ d ih =>
    intro i n fuel fits fuel_gt continues stop
    obtain ⟨fuel, rfl⟩ : ∃ f, fuel = f + 1 := ⟨fuel - 1, by omega⟩
    have test : tabContinues x i.toInt = true := by simpa using continues 0 (by omega)
    have next := int64_toInt_succ i (by omega)
    have loop := ih (i + 1) (n + 1) fuel (by omega) (by omega)
      (fun t lt => by
        rw [next, show i.toInt + 1 + t = i.toInt + (t + 1 : Nat) by omega]
        exact continues (t + 1) (by omega))
      (by rw [next, show i.toInt + 1 + d = i.toInt + (d + 1 : Nat) by omega]; exact stop)
    simp only [tabLoop, test, if_true, loop]
    congr 1
    omega

/-- The loop stops by a column `d` further on where the test fails, when no column on the way
wraps around and the fuel lasts, having written at most `d` more spaces. -/
theorem tabLoop_exit (x : Single) (d : Nat) :
    ∀ (i : Int64) (n fuel : Nat), i.toInt + d < 2 ^ 63 → d < fuel →
      tabContinues x (i.toInt + d) = false → ∃ k ≤ d, tabLoop x fuel i n = some (n + k) := by
  intro i n fuel fits fuel_gt stop
  -- the loop stops exactly at the first column where the test fails
  have fails : ∃ k : Nat, tabContinues x (i.toInt + k) = false := ⟨d, stop⟩
  have first := Nat.find_min' fails stop
  refine ⟨Nat.find fails, first,
    tabLoop_exact x _ i n fuel (by omega) (by omega) (fun t lt => ?_) (Nat.find_spec fails)⟩
  simpa using Nat.find_min fails lt

/-- A loop whose test holds at every 64-bit column never stops. -/
theorem tabLoop_endless {x : Single} (h : ∀ j : Int64, tabContinues x j.toInt = true) :
    ∀ fuel i n, tabLoop x fuel i n = none := by
  intro fuel
  induction fuel with
  | zero => intro i n; rfl
  | succ fuel ih => intro i n; simp [tabLoop, h i, ih]

/-- From a 64-bit column, the loop stops by a column `j` whose float reaches `x`, having written
at most the spaces from the column to `j`. -/
theorem tabLoop_stops {x : Single} (hx : x.isNaN = false) {column j : Nat} (h : column ≤ j)
    (small : j < 2 ^ 63) (reached : x.key ≤ Format.binary32.roundRatio j 1) :
    ∃ k ≤ j - column, tabLoop x (2 ^ 64) (Int64.ofNat column) 0 = some k := by
  have start := int64_toInt_ofNat column (by omega)
  have stop : tabContinues x ((Int64.ofNat column).toInt + (j - column : Nat)) = false := by
    rw [start, show (column : Int) + (j - column : Nat) = j by omega]
    exact tabContinues_stop hx (by omega) reached
  obtain ⟨k, le, loop⟩ := tabLoop_exit x (j - column) (Int64.ofNat column) 0 (2 ^ 64)
    (by omega) (by omega) stop
  exact ⟨k, le, by simpa using loop⟩

/-! ## The spaces of `TAB` -/

theorem tabSpaces_of_ceil?_some {x : Single} {c : Int} (h : x.ceil? = some c) (column : Nat) :
    tabSpaces column x =
      if c ≤ 2 ^ 24 then some (c - column).toNat
      else tabLoop x (2 ^ 64) (Int64.ofNat column) 0 := by
  simp [tabSpaces, h]

theorem tabSpaces_of_ceil?_none {x : Single} (h : x.ceil? = none) (column : Nat) :
    tabSpaces column x =
      if x.isNaN || x.isNegative then some 0 else tabLoop x (2 ^ 64) (Int64.ofNat column) 0 := by
  simp [tabSpaces, h]

/-- For a ceiling of at most `2 ^ 24`, the loop from a 64-bit column writes one space for each
column below the ceiling: every such column converts to a float exactly. -/
theorem tabLoop_of_ceil?_small {x : Single} {c : Int} (ceiling : x.ceil? = some c)
    (small : c ≤ 2 ^ 24) {column : Nat} (h : column < 2 ^ 63) :
    tabLoop x (2 ^ 64) (Int64.ofNat column) 0 = some (c - column).toNat := by
  have start := int64_toInt_ofNat column h
  -- the ceiling, or the column when it is past the ceiling, is the first column that stops
  have atCeiling : tabContinues x c.toNat = false := by
    rw [tabContinues_of_small ceiling (by omega), decide_eq_false_iff_not]
    omega
  have loop := tabLoop_exact x (c - column).toNat (Int64.ofNat column) 0 (2 ^ 64) (by omega)
    (by omega)
    (fun t lt => by
      rw [start, ← Int.natCast_add, tabContinues_of_small ceiling (by omega), decide_eq_true_eq]
      omega)
    (by
      rw [start, ← Int.natCast_add]
      exact tabContinues_false_mono (Single.isNaN_of_ceil? ceiling) (by omega) (by omega)
        atCeiling)
  rwa [Nat.zero_add] at loop

/-- `tabSpaces` is the loop of `TAB` from every 64-bit column: the closed form it takes for a
ceiling of at most `2 ^ 24`, and the nothing it writes for NaN and negative infinity, are what
the loop gives. -/
theorem tabSpaces_eq_tabLoop (x : Single) {column : Nat} (h : column < 2 ^ 63) :
    tabSpaces column x = tabLoop x (2 ^ 64) (Int64.ofNat column) 0 := by
  cases ceiling : x.ceil? with
  | some c =>
    rw [tabSpaces_of_ceil?_some ceiling]
    split
    · rename_i small
      rw [tabLoop_of_ceil?_small ceiling small h]
    · rfl
  | none =>
    rw [tabSpaces_of_ceil?_none ceiling]
    split
    · -- NaN and negative infinity stop the loop at its first column
      rename_i stops
      have start := int64_toInt_ofNat column h
      have loop := tabLoop_exact x 0 (Int64.ofNat column) 0 (2 ^ 64) (by omega) (by omega) nofun
        (by
          rw [start, Int.natCast_zero, Int.add_zero]
          exact tabContinues_of_nan_or_negative stops (by omega))
      rw [loop]
    · rfl

/-- Above `2 ^ 63`, positive infinity included, `TAB` never ends, from every column. -/
theorem tabSpaces_above {x : Single} (hx : x.isNaN = false) (above : 190 * 2 ^ 23 < x.key)
    (column : Nat) : tabSpaces column x = none := by
  have endless := tabLoop_endless (tabContinues_above hx above)
  cases ceiling : x.ceil? with
  | some c =>
    have large : ¬ c ≤ 2 ^ 24 := fun small => by
      have := Single.key_of_ceil?_small ceiling small
      omega
    rw [tabSpaces_of_ceil?_some ceiling, if_neg large, endless]
  | none =>
    have positive : x.isNegative = false := by
      rw [Single.isNegative_eq hx]
      simp only [decide_eq_false_iff_not]
      omega
    rw [tabSpaces_of_ceil?_none ceiling, hx, positive, Bool.or_false, if_neg (by decide), endless]

/-- A float whose ceiling is above `2 ^ 24`, not above `2 ^ 63`, stops the loop by its
ceiling. -/
theorem tabLoop_by_ceiling {x : Single} {c : Int} (ceiling : x.ceil? = some c) (large : 2 ^ 24 < c)
    (notAbove : x.key ≤ 190 * 2 ^ 23) {column : Nat} (h : column < 2 ^ 63) :
    ∃ k ≤ (c - column).toNat, tabLoop x (2 ^ 64) (Int64.ofNat column) 0 = some k := by
  obtain ⟨m, e, leading, significand, whole, key⟩ := Single.ceil?_large ceiling large
  -- the loop stops by the ceiling, or by `2 ^ 63 - 1` when the ceiling is `2 ^ 63`
  let j := max column (min (m * 2 ^ e) (2 ^ 63 - 1))
  have reachedCeiling :
      x.key ≤ Format.binary32.roundRatio (min (m * 2 ^ e) (2 ^ 63 - 1)) 1 := by
    by_cases below : m * 2 ^ e ≤ 2 ^ 63 - 1
    · rw [Nat.min_eq_left below, roundRatio_one_exact leading significand (by omega), key]
      omega
    · rw [Nat.min_eq_right (by omega), roundRatio_two_pow_63.1]
      exact notAbove
  have reached : x.key ≤ Format.binary32.roundRatio j 1 :=
    Int.le_trans reachedCeiling (Int.ofNat_le.mpr (roundRatio_one_mono (by omega) (by omega)))
  obtain ⟨k, le, loop⟩ :=
    tabLoop_stops (Single.isNaN_of_ceil? ceiling) (Nat.le_max_left _ _) (by omega) reached
  exact ⟨k, by omega, loop⟩

/-- Without a ceiling, a number not above `2 ^ 63` is NaN or negative infinity, and `TAB`
writes nothing. -/
theorem tabSpaces_without_ceiling {x : Single} (h : x.ceil? = none)
    (notAbove : ¬ (x.isNaN = false ∧ 190 * 2 ^ 23 < x.key)) (column : Nat) :
    tabSpaces column x = some 0 := by
  rw [tabSpaces_of_ceil?_none h]
  cases value : x.value with
  | nan =>
    have nan : x.isNaN = true := by
      rw [Single.isNaN_value, value]
    simp [nan]
  | infinite negative =>
    obtain ⟨notNaN, key⟩ := Single.value_infinite value
    cases negative
    · -- positive infinity is above `2 ^ 63`
      exact absurd ⟨notNaN, by simp at key; omega⟩ notAbove
    · have : x.isNegative = true := by
        rw [Single.isNegative_eq notNaN]
        simp at key
        simp only [decide_eq_true_eq]
        omega
      simp [this]
  | finite negative m e =>
    simp only [Single.ceil?, value] at h
    split at h <;> simp at h

/-- Not above `2 ^ 63`, `TAB` ends from every 64-bit column, with at most a space for each
column below the ceiling of `x`, and none when `x` is NaN or at most the column. -/
theorem tabSpaces_bounded {x : Single} {column : Nat} (h : column < 2 ^ 63)
    (notAbove : ¬ (x.isNaN = false ∧ 190 * 2 ^ 23 < x.key)) :
    ∃ n, tabSpaces column x = some n ∧
      (∀ c, x.ceil? = some c → n ≤ (c - column).toNat) ∧
      (x.isNaN || x.atMost column → n = 0) := by
  cases ceiling : x.ceil? with
  | some c =>
    have notNaN := Single.isNaN_of_ceil? ceiling
    have atMost : x.atMost column = decide (c ≤ column) := by simp [Single.atMost, ceiling]
    simp only [Option.some.injEq, forall_eq', notNaN, atMost, Bool.false_or, decide_eq_true_eq]
    rw [tabSpaces_of_ceil?_some ceiling]
    by_cases small : c ≤ 2 ^ 24
    · -- every column up to `2 ^ 24` is exact: one space per column below the ceiling
      rw [if_pos small]
      exact ⟨_, rfl, Nat.le_refl _, fun reached => by omega⟩
    · rw [if_neg small]
      have notAbove : x.key ≤ 190 * 2 ^ 23 := by
        rw [notNaN] at notAbove
        simpa using notAbove
      obtain ⟨k, le, loop⟩ := tabLoop_by_ceiling ceiling (by omega) notAbove h
      exact ⟨k, loop, le, fun reached => by omega⟩
  | none =>
    refine ⟨0, tabSpaces_without_ceiling ceiling notAbove column, fun c none => ?_,
      fun _ => rfl⟩
    cases none

/-- The runtime method `TAB` reads the column and gives the spaces of `tabSpaces`, or never
ends. -/
theorem tab_run (x : Single) (m : Machine) :
    (RuntimeNative.call .tab [.float x]).run.run m =
      match tabSpaces m.column x with
      | some n => (.ok (.text (String.ofList (List.replicate n ' '))), m)
      | none => (.error .endless, m) := by
  simp only [RuntimeNative.call, argAt, List.getD_cons_zero, asFloat, pure_bind]
  rw [Exec.run_bind_ok (Exec.run_get m)]
  cases tabSpaces m.column x <;> rfl

/-- `TAB(x)` from a 64-bit column never ends when `x` is above `2 ^ 63` (positive infinity
included), and otherwise writes at most one space for each column from the current one to
the ceiling of `x`, and none when `x` is NaN or at most the column; the machine is left as it
was. -/
theorem tab_spaces_or_endless (x : Single) (m : Machine) (h : m.column < 2 ^ 63) :
    ((Single.ofInt (2 ^ 63)).order? x = some .lt ∧
        (RuntimeNative.call .tab [.float x]).run.run m = (.error .endless, m)) ∨
      ((Single.ofInt (2 ^ 63)).order? x ≠ some .lt ∧
        ∃ n, (RuntimeNative.call .tab [.float x]).run.run m =
            (.ok (.text (String.ofList (List.replicate n ' '))), m) ∧
          (∀ c, x.ceil? = some c → n ≤ (c - m.column).toNat) ∧
          (x.isNaN || x.atMost m.column → n = 0)) := by
  rw [tab_run]
  by_cases above : (Single.ofInt (2 ^ 63)).order? x = some .lt
  · obtain ⟨notNaN, key⟩ := (order?_two_pow_63 x).mp above
    left
    rw [tabSpaces_above notNaN key]
    exact ⟨above, rfl⟩
  · obtain ⟨n, spaces, bound, zero⟩ := tabSpaces_bounded h (mt (order?_two_pow_63 x).mpr above)
    right
    rw [spaces]
    exact ⟨above, n, rfl, bound, zero⟩

/-- From a fresh machine, `TAB(5)` writes at most five spaces. -/
theorem tab_five_fromStart :
    ∃ n ≤ 5, (RuntimeNative.call .tab [.float ⟨0x40A00000⟩]).run.run
        (Loaded.start ⟨default, "Prog", "BasRuntime"⟩ ⟨none, 1, 0, 0⟩) =
      (.ok (.text (String.ofList (List.replicate n ' '))),
        Loaded.start ⟨default, "Prog", "BasRuntime"⟩ ⟨none, 1, 0, 0⟩) := by
  rcases tab_spaces_or_endless ⟨0x40A00000⟩
      (Loaded.start ⟨default, "Prog", "BasRuntime"⟩ ⟨none, 1, 0, 0⟩) (by decide) with
    ⟨above, -⟩ | ⟨-, n, run, bound, -⟩
  · exact absurd above (by decide)
  · exact ⟨n, bound 5 (by decide), run⟩

/-- `TAB` at positive infinity never ends: the counter passes every `Int64` column without
reaching it. -/
theorem tab_infinity_endless :
    (RuntimeNative.call .tab [.float ⟨0x7F800000⟩]).run.run
        (Loaded.start ⟨default, "Prog", "BasRuntime"⟩ ⟨none, 1, 0, 0⟩) =
      (.error .endless, Loaded.start ⟨default, "Prog", "BasRuntime"⟩ ⟨none, 1, 0, 0⟩) := by
  rw [tab_run, tabSpaces_above (by decide) (by decide)]

end BasicJvm.Vm
