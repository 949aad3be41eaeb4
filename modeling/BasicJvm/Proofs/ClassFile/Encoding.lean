import BasicJvm.Proofs.ClassFile.Reading

/-!
# The bytes of modified UTF-8

Modified UTF-8 writes each UTF-16 unit of a text on its own, in one, two or three bytes
(`unitBytes`).  The unit zero is written as the two bytes `C0 80`, so no byte of an encoding is
zero.  A unit has sixteen bits, so a lead byte is at most `1110xxxx` and a continuation byte
`10xxxxxx`: no byte is `F0` or more, the lead bytes of the four-byte sequences of standard
UTF-8.  A character outside the basic multilingual plane is two surrogate units, each written
in three bytes.

Main statement: `encodeModifiedUtf8_wellFormed`, every text decodes back from its encoding,
and its encoding has neither a zero byte nor a byte that starts a four-byte sequence.
-/

namespace BasicJvm.ClassFile

open BasicJvm.Text

/-- The bytes of one unit are nonzero and below `F0`: one byte `0xxxxxxx` for a unit from 1 to
`7F`, else a lead byte `110xxxxx` or `1110xxxx` with continuation bytes `10xxxxxx`. -/
theorem unitBytes_range {u : Nat} (h : u < 2 ^ 16) :
    ∀ b ∈ unitBytes u, b ≠ 0 ∧ b.toNat < 0xF0 := by
  intro b hb
  have range : ∀ n, n < 0xF0 → 0 < n → n.toUInt8 ≠ 0 ∧ n.toUInt8.toNat < 0xF0 := by
    intro n below pos
    have byte := toNat_toUInt8 n (by omega)
    refine ⟨fun zero => ?_, by omega⟩
    have : n.toUInt8.toNat = 0 := by rw [zero]; rfl
    omega
  unfold unitBytes at hb
  split at hb
  · -- a unit from 1 to 7F is its own byte
    rename_i single
    simp only [Bool.and_eq_true, bne_iff_ne, ne_eq, decide_eq_true_eq] at single
    simp only [List.mem_singleton] at hb
    subst hb
    exact range u (by omega) (by omega)
  · split at hb
    · -- zero and the units below 800: a lead byte `110xxxxx` and one continuation byte
      simp only [List.mem_cons, List.not_mem_nil, or_false] at hb
      rcases hb with rfl | rfl
      · exact range _ (by omega) (by omega)
      · exact range _ (by omega) (by omega)
    · -- the other units: a lead byte `1110xxxx` and two continuation bytes
      simp only [List.mem_cons, List.not_mem_nil, or_false] at hb
      rcases hb with rfl | rfl | rfl
      · exact range _ (by omega) (by omega)
      · exact range _ (by omega) (by omega)
      · exact range _ (by omega) (by omega)

/-- No byte of the encoding of a text is zero or starts a four-byte sequence. -/
theorem encodeModifiedUtf8_range (s : String) :
    ∀ b ∈ encodeModifiedUtf8 s, b ≠ 0 ∧ b.toNat < 0xF0 := by
  intro b hb
  obtain ⟨u, hu, hb⟩ := List.mem_flatMap.mp hb
  obtain ⟨c, _, hc⟩ := List.mem_flatMap.mp hu
  exact unitBytes_range (charUnits_lt c u hc) b hb

/-- Modified UTF-8 is a faithful encoding without zero bytes or four-byte sequences: every
text decodes back from its bytes, none of which is zero or `F0` and above. -/
theorem encodeModifiedUtf8_wellFormed (s : String) :
    decodeModifiedUtf8 (encodeModifiedUtf8 s) = .ok s ∧
      ∀ b ∈ encodeModifiedUtf8 s, b ≠ 0 ∧ b.toNat < 0xF0 :=
  ⟨decodeModifiedUtf8_encode s, encodeModifiedUtf8_range s⟩

end BasicJvm.ClassFile
