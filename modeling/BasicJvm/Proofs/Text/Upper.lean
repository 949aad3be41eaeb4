import Mathlib
import BasicJvm.Text.Upper

/-!
# What folding asks of an upper-casing

Folding case takes the upper case of a character as a parameter, `upper c`: the characters
that replace `c`.  Folding a line twice gives the line folded once only if every character
that `upper` gives is its own upper case, which the full case mapping of Unicode promises.
The proofs that folding keeps quoted text and finds a `REM` keyword again rely on four more
facts of that mapping: no character folds to nothing, only a double quote folds to text with a
double quote in it, only a newline to text with a newline, and the letter `M` only comes
alone.  `UpperCasing` collects these laws, and every theorem about folding is stated for an
upper-casing that has them.

The upper case of the ASCII letters has them (`asciiUpper_casing`): `Char.toUpper` moves the
letters `a` to `z` by 32 code points onto `A` to `Z` and leaves every other character alone
(`toUpper_cases`).
-/

namespace BasicJvm.Text

/-- The laws of an upper-casing of characters that folding case relies on. -/
structure UpperCasing (upper : Char → List Char) : Prop where
  /-- Every character of an upper case is its own upper case. -/
  idempotent : ∀ c, ∀ d ∈ upper c, upper d = [d]
  /-- No character folds to nothing. -/
  nonempty : ∀ c, upper c ≠ []
  /-- Only a double quote folds to text with a double quote. -/
  quote : ∀ c, '"' ∈ upper c → c = '"'
  /-- A newline folds to text with a newline, and nothing else does. -/
  newline : ∀ c, '\n' ∈ upper c ↔ c = '\n'
  /-- A character that folds to text with `M` folds to `M` alone. -/
  soleM : ∀ c, 'M' ∈ upper c → upper c = ['M']

section Laws

variable {upper : Char → List Char}

theorem UpperCasing.newline_self (casing : UpperCasing upper) : upper '\n' = ['\n'] :=
  casing.idempotent '\n' '\n' ((casing.newline '\n').mpr rfl)

/-- Only a double quote folds to a double quote, and only a newline to a newline. -/
theorem UpperCasing.eq_of_special_mem (casing : UpperCasing upper) {c d : Char}
    (special : d = '"' ∨ d = '\n') (h : d ∈ upper c) : c = d := by
  rcases special with rfl | rfl
  · exact casing.quote c h
  · exact (casing.newline c).mp h

end Laws

/-! ## The upper case of the ASCII letters -/

/-- `Char.toUpper` leaves a character alone, or moves a letter from `a` to `z` down by 32. -/
theorem toUpper_cases (c : Char) :
    c.toUpper = c ∨ (97 ≤ c.toNat ∧ c.toNat ≤ 122 ∧ c.toUpper.toNat = c.toNat - 32) := by
  unfold Char.toUpper
  split
  · rename_i letter
    obtain ⟨low, high⟩ := letter
    rw [UInt32.le_iff_toNat_le] at low high
    -- the shift is `2 ^ 32 - 32`, added modulo `2 ^ 32`
    have shift : ('A'.val - 'a'.val).toNat = 2 ^ 32 - 32 := by decide
    simp only [Char.toNat, UInt32.toNat_add, shift, show 'a'.val.toNat = 97 by decide,
      show 'z'.val.toNat = 122 by decide] at *
    omega
  · exact Or.inl rfl

theorem toUpper_toUpper (c : Char) : c.toUpper.toUpper = c.toUpper := by
  rcases toUpper_cases c with same | ⟨low, high, moved⟩
  · rw [same, same]
  · -- a moved letter lands on `A` to `Z`, which stay
    rcases toUpper_cases c.toUpper with same' | ⟨low', -, -⟩
    · exact same'
    · omega

/-- A character outside `A` to `Z` is the upper case of itself alone. -/
theorem eq_of_toUpper_eq {c d : Char} (h : c.toUpper = d)
    (outside : d.toNat < 65 ∨ 90 < d.toNat) : c = d := by
  rcases toUpper_cases c with same | ⟨low, high, moved⟩
  · rw [← h, same]
  · rw [h] at moved
    omega

theorem asciiUpper_casing : UpperCasing asciiUpper where
  idempotent c d mem := by
    rw [asciiUpper, List.mem_singleton] at mem
    rw [asciiUpper, mem, toUpper_toUpper]
  nonempty c := by simp [asciiUpper]
  quote c mem := by
    rw [asciiUpper, List.mem_singleton] at mem
    exact eq_of_toUpper_eq mem.symm (by decide)
  newline c := by
    rw [asciiUpper, List.mem_singleton]
    constructor
    · intro h
      exact eq_of_toUpper_eq h.symm (by decide)
    · rintro rfl
      decide
  soleM c mem := by
    rw [asciiUpper, List.mem_singleton] at mem
    rw [asciiUpper, ← mem]

end BasicJvm.Text
