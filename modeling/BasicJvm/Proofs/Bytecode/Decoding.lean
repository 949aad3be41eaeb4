import BasicJvm.Bytecode.Decode
import BasicJvm.Proofs.Bytecode.Layout
import BasicJvm.Proofs.ClassFile.Reading

/-!
# Reading an assembled body back

The decoder reads back what the encoder wrote.  The reading side works on
`BytesAt code pc bytes`: the body holds `bytes` from offset `pc` on.  Each number the
decoder reads there is then the number the encoder wrote.
-/

namespace BasicJvm.Bytecode

open BasicJvm.ClassFile

/-! ## Bytes at an offset -/

/-- The body holds `bytes` from offset `pc` on. -/
def BytesAt (code : Array UInt8) (pc : Nat) (bytes : List UInt8) : Prop :=
  ∀ k (h : k < bytes.length), code[pc + k]? = some bytes[k]

namespace BytesAt

variable {code : Array UInt8} {pc : Nat}

theorem append {a b : List UInt8} : BytesAt code pc (a ++ b) ↔
    BytesAt code pc a ∧ BytesAt code (pc + a.length) b := by
  constructor
  · intro h
    refine ⟨fun k hk => ?_, fun k hk => ?_⟩
    · have := h k (by simp; omega)
      rwa [List.getElem_append_left hk] at this
    · have := h (a.length + k) (by simp; omega)
      rw [List.getElem_append_right (by omega)] at this
      simpa [Nat.add_assoc] using this
  · rintro ⟨ha, hb⟩ k hk
    by_cases left : k < a.length
    · rw [List.getElem_append_left left]
      exact ha k left
    · have := hb (k - a.length) (by simp at hk; omega)
      rw [List.getElem_append_right (by omega)]
      rwa [show pc + a.length + (k - a.length) = pc + k by omega] at this

theorem cons {b : UInt8} {bs : List UInt8} : BytesAt code pc (b :: bs) ↔
    code[pc]? = some b ∧ BytesAt code (pc + 1) bs := by
  have := @append code pc [b] bs
  simp only [List.singleton_append] at this
  rw [this]
  constructor
  · rintro ⟨hb, rest⟩
    exact ⟨by simpa using hb 0 (by simp), rest⟩
  · rintro ⟨hb, rest⟩
    refine ⟨fun k hk => ?_, rest⟩
    obtain rfl : k = 0 := by simp at hk; omega
    simpa using hb

/-- Bytes that are there end inside the body. -/
theorem le_size {bytes : List UInt8} (h : BytesAt code pc bytes) (ne : bytes ≠ []) :
    pc + bytes.length ≤ code.size := by
  have nonempty : 0 < bytes.length := List.length_pos_iff.mpr ne
  have last := h (bytes.length - 1) (by omega)
  have inside := (Array.getElem?_eq_some_iff.mp last).1
  omega

theorem byteAt {b : UInt8} {bs : List UInt8} (h : BytesAt code pc (b :: bs)) :
    Bytecode.byteAt code pc = b.toNat := by
  simp [Bytecode.byteAt, (cons.mp h).1]

end BytesAt

/-! ## Numbers -/

section Numbers

variable {code : Array UInt8} {pc : Nat}

theorem u2At_u2 {n : Nat} (h : BytesAt code pc (u2 n)) (small : n < 2 ^ 16) :
    u2At code pc = n := by
  obtain ⟨hi, rest⟩ := BytesAt.cons.mp h
  have lo := (BytesAt.cons.mp rest).1
  simp only [u2At, byteAt, Array.getD_eq_getD_getElem?, hi, lo, Option.getD_some]
  simp only [UInt8.toNat_ofNat', Nat.toUInt8]
  omega

theorem s2At_s2 {v : Int} (h : BytesAt code pc (s2 v)) (range : -32768 ≤ v ∧ v < 32768) :
    s2At code pc = v := by
  unfold s2 at h
  have read := u2At_u2 h (by omega)
  simp only [s2At, read]
  split <;> omega

/-- A signed 32-bit number reads back as its value wrapped to 32 bits. -/
theorem s4At_s4 {v : Int} (h : BytesAt code pc (s4 v)) : s4At code pc = wrap32 v := by
  unfold s4 u4 at h
  obtain ⟨hi, lo⟩ := BytesAt.append.mp h
  have readHi := u2At_u2 hi (by omega)
  have readLo := u2At_u2 lo (by omega)
  simp only [u2_length] at readLo
  simp only [s4At, readHi, readLo, wrap32]
  split <;> split <;> omega

theorem wrap32_of_range {v : Int} (range : -2 ^ 31 ≤ v ∧ v < 2 ^ 31) : wrap32 v = v := by
  unfold wrap32
  dsimp only
  split <;> omega

theorem s1At_byte {v : Int} (h : BytesAt code pc [(v % 256).toNat.toUInt8])
    (range : -128 ≤ v ∧ v < 128) : s1At code pc = v := by
  have read := BytesAt.byteAt h
  simp only [s1At, read, UInt8.toNat_ofNat', Nat.toUInt8]
  split <;> omega

end Numbers

end BasicJvm.Bytecode
