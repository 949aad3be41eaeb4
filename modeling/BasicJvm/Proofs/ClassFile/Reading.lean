import BasicJvm.ClassFile.Code
import BasicJvm.Proofs.Except

/-!
# Reading back what was written

The readers of `BasicJvm.ClassFile.Reader` undo the writers of `BasicJvm.ClassFile.Writer`.
Each law here has the form `ReadsAs r w v`: from any cursor whose bytes start with `w`, the
reader `r` returns `v` and leaves the cursor just after `w`, whatever follows and whatever
the offset.  Quantifying over the rest of the input is what lets the laws compose: a reader
made with `>>=` reads back the concatenation of the parts (`ReadsAs.bind`).

* Numbers: `readU1`, `readU2` and `readU4` read back `u1`, `u2` and `u4` of a number that
  fits the width (`readU2_readsAs`, `readU4_readsAs`).
* Repetition: `readMany` reads back the concatenated parts written for a list
  (`readMany_readsAs`).
* Texts: modified UTF-8 decodes the encoding of every text to the text itself
  (`decodeModifiedUtf8_encode`).  A text is a list of Unicode scalar values, so every
  character is one unit below the surrogates or above them, or a surrogate pair; the
  decoder puts pairs back together and leaves single units alone.
-/

namespace BasicJvm.ClassFile

open BasicJvm.Text

/-! ## The reading predicate -/

/-- The reader `r` reads the bytes `w` as the value `v`, whatever follows them. -/
def ReadsAs {α : Type} (r : ReadM α) (w : List UInt8) (v : α) : Prop :=
  ∀ rest off, r.run ⟨w ++ rest, off⟩ = .ok (v, ⟨rest, off + w.length⟩)

section Combinators

variable {α β : Type} {r : ReadM α} {w w₁ w₂ : List UInt8} {a : α} {b : β}

theorem ReadsAs.pure (a : α) : ReadsAs (Pure.pure a : ReadM α) [] a := by
  intro rest off
  rfl

theorem ReadsAs.bind {k : α → ReadM β} (h₁ : ReadsAs r w₁ a) (h₂ : ReadsAs (k a) w₂ b) :
    ReadsAs (r >>= k) (w₁ ++ w₂) b := by
  intro rest off
  have step₁ := h₁ (w₂ ++ rest) off
  have step₂ := h₂ rest (off + w₁.length)
  simp only [List.append_assoc, StateT.run] at step₁ step₂ ⊢
  simp only [StateT.bind, Bind.bind, Except.bind, step₁, step₂, List.length_append,
    Nat.add_assoc]

theorem ReadsAs.map (f : α → β) (h : ReadsAs r w a) : ReadsAs (f <$> r) w (f a) := by
  intro rest off
  have step := h rest off
  simp only [StateT.run] at step ⊢
  simp only [Functor.map, StateT.map, step]
  rfl

end Combinators

/-! ## Bytes and numbers -/

theorem takeBytes_readsAs (bs : List UInt8) : ReadsAs (takeBytes bs.length) bs bs := by
  intro rest off
  simp [takeBytes, StateT.run, bind, StateT.bind, get, getThe, MonadStateOf.get, StateT.get,
    set, StateT.set, Pure.pure, StateT.pure, Except.pure, Except.bind, List.splitAt_eq]

@[simp] theorem u1_length (n : Nat) : (u1 n).length = 1 := rfl

@[simp] theorem u2_length (n : Nat) : (u2 n).length = 2 := rfl

@[simp] theorem u4_length (n : Nat) : (u4 n).length = 4 := rfl

theorem bigEndian_u1 {n : Nat} (h : n < 2 ^ 8) : bigEndian (u1 n) = n := by
  rw [bigEndian, u1, List.foldl_cons, List.foldl_nil, Nat.zero_mul, Nat.zero_add, Nat.toUInt8_eq,
    UInt8.toNat_ofNat', Nat.mod_eq_of_lt h]

theorem bigEndian_u2 {n : Nat} (h : n < 2 ^ 16) : bigEndian (u2 n) = n := by
  simp [bigEndian, u2]
  omega

theorem bigEndian_u4 {n : Nat} (h : n < 2 ^ 32) : bigEndian (u4 n) = n := by
  simp [bigEndian, u4, u2]
  omega

theorem readU1_readsAs {n : Nat} (h : n < 2 ^ 8) : ReadsAs readU1 (u1 n) n := by
  have read := (takeBytes_readsAs (u1 n)).map bigEndian
  rwa [bigEndian_u1 h] at read

theorem readU2_readsAs {n : Nat} (h : n < 2 ^ 16) : ReadsAs readU2 (u2 n) n := by
  have read := (takeBytes_readsAs (u2 n)).map bigEndian
  rwa [bigEndian_u2 h] at read

theorem readU4_readsAs {n : Nat} (h : n < 2 ^ 32) : ReadsAs readU4 (u4 n) n := by
  have read := (takeBytes_readsAs (u4 n)).map bigEndian
  rwa [bigEndian_u4 h] at read

/-! ## Repetition -/

/-- `readMany` reads back the parts written for the items of a list, one after another,
when each item is read back from its own part. -/
theorem readMany_readsAs {α : Type} {r : ReadM α} :
    ∀ {xs : List α} {parts : List (List UInt8)},
      List.Forall₂ (fun x part => ReadsAs r part x) xs parts →
      ReadsAs (readMany r xs.length) parts.flatten xs
  | [], [], .nil => ReadsAs.pure []
  | x :: xs, part :: parts, .cons head rest => by
    have tail := readMany_readsAs rest
    have restRead : ReadsAs (readMany r xs.length >>= fun ys => Pure.pure (x :: ys))
        (parts.flatten ++ []) (x :: xs) :=
      tail.bind (ReadsAs.pure (x :: xs))
    have both : ReadsAs (r >>= fun y => readMany r xs.length >>= fun ys => Pure.pure (y :: ys))
        (part ++ (parts.flatten ++ [])) (x :: xs) :=
      head.bind restRead
    simpa [readMany] using both

/-! ## Modified UTF-8 -/

/-- A byte below `0x80` is a unit of its own. -/
theorem readUnits_one {b : UInt8} (h : b.toNat < 0x80) (acc : List Nat) (offset : Nat)
    (rest : List UInt8) :
    readUnits acc offset (b :: rest) = readUnits (b.toNat :: acc) (offset + 1) rest := by
  rw [readUnits.eq_def]
  simp [h]

/-- A lead byte `110xxxxx` starts a unit of two bytes. -/
theorem readUnits_two {b₀ b₁ : UInt8} (h : b₀.toNat / 32 = 6) (acc : List Nat) (offset : Nat)
    (rest : List UInt8) :
    readUnits acc offset (b₀ :: b₁ :: rest) =
      readUnits ((b₀.toNat % 32 * 64 + b₁.toNat % 64) :: acc) (offset + 2) rest := by
  have notOne : ¬ b₀.toNat < 0x80 := by omega
  rw [readUnits.eq_2]
  simp [notOne, h]

/-- A lead byte `1110xxxx` starts a unit of three bytes. -/
theorem readUnits_three {b₀ b₁ b₂ : UInt8} (h : b₀.toNat / 16 = 14) (acc : List Nat)
    (offset : Nat) (rest : List UInt8) :
    readUnits acc offset (b₀ :: b₁ :: b₂ :: rest) =
      readUnits ((b₀.toNat % 16 * 4096 + b₁.toNat % 64 * 64 + b₂.toNat % 64) :: acc)
        (offset + 3) rest := by
  have notOne : ¬ b₀.toNat < 0x80 := by omega
  have notTwo : ¬ b₀.toNat / 32 = 6 := by omega
  rw [readUnits.eq_2]
  simp [notOne, notTwo, h]

theorem toNat_toUInt8 (n : Nat) (h : n < 2 ^ 8) : n.toUInt8.toNat = n := by
  rw [Nat.toUInt8_eq, UInt8.toNat_ofNat', Nat.mod_eq_of_lt h]

/-- One unit's bytes are read back as that unit. -/
theorem readUnits_unitBytes {u : Nat} (h : u < 2 ^ 16) (acc : List Nat) (offset : Nat)
    (rest : List UInt8) :
    readUnits acc offset (unitBytes u ++ rest) =
      readUnits (u :: acc) (offset + (unitBytes u).length) rest := by
  by_cases one : u ≠ 0 ∧ u < 0x80
  · have shape : unitBytes u = [u.toUInt8] := by simp [unitBytes, one.1, one.2]
    have byte := toNat_toUInt8 u (by omega)
    rw [shape, List.singleton_append, readUnits_one (by omega), byte]
    rfl
  have notOne : (u != 0 && decide (u < 0x80)) = false := by
    simp only [Bool.and_eq_false_iff, bne_eq_false_iff_eq, decide_eq_false_iff_not]
    omega
  by_cases two : u < 0x800
  · have shape : unitBytes u = [(0xC0 + u / 64).toUInt8, (0x80 + u % 64).toUInt8] := by
      simp [unitBytes, notOne, two]
    have lead := toNat_toUInt8 (0xC0 + u / 64) (by omega)
    have next := toNat_toUInt8 (0x80 + u % 64) (by omega)
    have join : (0xC0 + u / 64) % 32 * 64 + (0x80 + u % 64) % 64 = u := by omega
    rw [shape, List.cons_append, List.singleton_append, readUnits_two (by omega), lead, next,
      join]
    rfl
  · have shape : unitBytes u =
        [(0xE0 + u / 4096).toUInt8, (0x80 + u / 64 % 64).toUInt8, (0x80 + u % 64).toUInt8] := by
      simp [unitBytes, notOne, two]
    have lead := toNat_toUInt8 (0xE0 + u / 4096) (by omega)
    have mid := toNat_toUInt8 (0x80 + u / 64 % 64) (by omega)
    have last := toNat_toUInt8 (0x80 + u % 64) (by omega)
    have join : (0xE0 + u / 4096) % 16 * 4096 + (0x80 + u / 64 % 64) % 64 * 64 +
        (0x80 + u % 64) % 64 = u := by omega
    rw [shape, List.cons_append, List.cons_append, List.singleton_append,
      readUnits_three (by omega), lead, mid, last, join]
    rfl

/-- The bytes of units below `2 ^ 16` are read back as those units. -/
theorem readUnits_flatMap_unitBytes :
    ∀ (us acc : List Nat) (offset : Nat), (∀ u ∈ us, u < 2 ^ 16) →
      readUnits acc offset (us.flatMap unitBytes) = .ok (acc.reverse ++ us)
  | [], acc, offset, _ => by simp [readUnits]
  | u :: us, acc, offset, small => by
    rw [List.flatMap_cons, readUnits_unitBytes (small u List.mem_cons_self),
      readUnits_flatMap_unitBytes us (u :: acc) _ fun v hv => small v (List.mem_cons_of_mem u hv)]
    simp

end BasicJvm.ClassFile

namespace BasicJvm.Text

/-- A character is a Unicode scalar value: below the surrogates, or above them and below
`0x110000`. -/
theorem Char.toNat_scalar (c : Char) :
    c.toNat < 0xd800 ∨ (0xdfff < c.toNat ∧ c.toNat < 0x110000) :=
  c.valid

/-- Every UTF-16 unit of a character fits sixteen bits. -/
theorem charUnits_lt (c : Char) : ∀ u ∈ charUnits c, u < 2 ^ 16 := by
  have scalar := Char.toNat_scalar c
  unfold charUnits
  split
  · simp
    omega
  · simp
    omega

/-- A unit that does not start a surrogate pair decodes on its own. -/
theorem decodeUnitsList_cons_single {u : Nat} (h : isHighSurrogate u = false) (rest : List Nat) :
    decodeUnitsList (u :: rest) = unitChar u :: decodeUnitsList rest := by
  cases rest with
  | nil => rfl
  | cons v rest => simp [decodeUnitsList, h]

/-- A high surrogate followed by a low one decodes to the character they encode. -/
theorem decodeUnitsList_cons_pair {u v : Nat} (hu : isHighSurrogate u = true)
    (hv : isLowSurrogate v = true) (rest : List Nat) :
    decodeUnitsList (u :: v :: rest) =
      Char.ofNat (0x10000 + (u - 0xD800) * 0x400 + (v - 0xDC00)) :: decodeUnitsList rest := by
  simp [decodeUnitsList, hu, hv]

/-- The UTF-16 units of a list of characters decode to the characters. -/
theorem decodeUnitsList_flatMap_charUnits :
    ∀ cs : List Char, decodeUnitsList (cs.flatMap charUnits) = cs
  | [] => rfl
  | c :: cs => by
    have scalar := Char.toNat_scalar c
    rw [List.flatMap_cons]
    by_cases bmp : c.toNat < 0x10000
    · -- one unit, which is no surrogate
      have high : isHighSurrogate c.toNat = false := by
        simp [isHighSurrogate]
        omega
      have self : unitChar c.toNat = c := by
        have low : isLowSurrogate c.toNat = false := by
          simp [isLowSurrogate]
          omega
        simp [unitChar, high, low]
      simp only [charUnits, bmp, if_true, List.singleton_append]
      rw [decodeUnitsList_cons_single high, self, decodeUnitsList_flatMap_charUnits cs]
    · -- a surrogate pair
      have high : isHighSurrogate (0xD800 + (c.toNat - 0x10000) / 0x400) = true := by
        simp [isHighSurrogate]
        omega
      have low : isLowSurrogate (0xDC00 + (c.toNat - 0x10000) % 0x400) = true := by
        simp [isLowSurrogate]
        omega
      have value : 0x10000 + (0xD800 + (c.toNat - 0x10000) / 0x400 - 0xD800) * 0x400 +
          (0xDC00 + (c.toNat - 0x10000) % 0x400 - 0xDC00) = c.toNat := by
        omega
      simp only [charUnits, bmp, if_false, List.cons_append, List.nil_append]
      rw [decodeUnitsList_cons_pair high low, value, Char.ofNat_toNat,
        decodeUnitsList_flatMap_charUnits cs]

end BasicJvm.Text

namespace BasicJvm.ClassFile

open BasicJvm.Text

/-- Modified UTF-8 decodes the encoding of every text to the text. -/
theorem decodeModifiedUtf8_encode (s : String) :
    decodeModifiedUtf8 (encodeModifiedUtf8 s) = .ok s := by
  have small : ∀ u ∈ utf16Units s, u < 2 ^ 16 := by
    intro u hu
    obtain ⟨c, _, hc⟩ := List.mem_flatMap.mp hu
    exact charUnits_lt c u hc
  unfold decodeModifiedUtf8 encodeModifiedUtf8
  rw [readUnits_flatMap_unitBytes _ [] 0 small]
  show Except.ok (decodeUnits (utf16Units s)) = _
  rw [decodeUnits, utf16Units, decodeUnitsList_flatMap_charUnits, String.ofList_toList]

end BasicJvm.ClassFile
