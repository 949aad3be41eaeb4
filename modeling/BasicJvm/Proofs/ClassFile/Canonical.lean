import BasicJvm.Proofs.ClassFile.Constants

/-!
# Canonical class files are written back byte for byte

`parseClass_bytes` reads back what the writer writes.  The other way round holds only for
bytes in the one form the writer gives them, because reading is more lenient than writing in
two places:

* a Utf8 constant is decoded without checking that its bytes are the modified UTF-8 of the
  text: a raw zero byte, an overlong form, continuation bytes of any top bits and a lone
  surrogate all decode, and the writer then writes the text's own encoding;
* the constants are read until the index reaches the declared count, so a long or double
  constant in the last slot leaves a pool one entry longer than the count said, and the
  writer writes the longer count.

`CanonicalBytes` names the class files without either: they read as class files when every
text must decode from its own encoding (`decodeCanonical`), and the count they declare is the
count of the pool they hold.  For them `parseClass_canonical_bytes`: writing the class that
reading gives returns the bytes.

The proof reads the readers backwards.  A law `ReadsFrom r W` says that whatever `r` reads, it
read from bytes at the front of its input that stand in relation `W` to the value: the bytes
the writer writes for it, and the facts that the value fits its fields.  Each reader gets its
law from the laws of the readers it is made of (`readU2_readsFrom`, `readMany_readsFrom`,
`readConstantWith_readsFrom`, `readPoolWith_readsFrom`, `readClassWith_readsFrom`).
-/

namespace BasicJvm.ClassFile

open BasicJvm.Text

/-! ## The reading-from predicate -/

/-- Whatever `r` reads from a cursor, it reads from bytes `w` at the front of the cursor with
`W v w` for the value `v` it gives. -/
def ReadsFrom {α : Type} (r : ReadM α) (W : α → List UInt8 → Prop) : Prop :=
  ∀ ⦃c : Cursor⦄ ⦃v : α⦄ ⦃c' : Cursor⦄, r.run c = .ok (v, c') → ∃ w, W v w ∧ c.rest = w ++ c'.rest

theorem ReadM.run_pure_eq_ok {α : Type} {x v : α} {c c' : Cursor}
    (h : (Pure.pure x : ReadM α).run c = .ok (v, c')) : v = x ∧ c' = c := by
  simp only [StateT.run_pure, Except.pure_eq_ok, Except.ok.injEq, Prod.mk.injEq] at h
  exact ⟨h.1.symm, h.2.symm⟩

theorem ReadM.run_map_eq_ok {α β : Type} {f : α → β} {r : ReadM α} {v : β} {c c' : Cursor}
    (h : (f <$> r).run c = .ok (v, c')) : ∃ a, r.run c = .ok (a, c') ∧ v = f a := by
  simp only [StateT.run_map] at h
  obtain ⟨⟨a, c''⟩, ha, hv⟩ := Except.map_eq_ok.mp h
  simp only [Prod.mk.injEq] at hv
  obtain ⟨rfl, rfl⟩ := hv
  exact ⟨a, ha, rfl⟩

/-- Items read one after another with a fact each: every item has it. -/
private theorem forall_of_forall₂ {α β : Type} {R : α → β → Prop} {P : α → Prop}
    {xs : List α} {ys : List β} (h : List.Forall₂ R xs ys) (f : ∀ x y, R x y → P x) :
    ∀ x ∈ xs, P x :=
  ((List.forall₂_and_left _ _).mp (h.imp fun x y r => ⟨f x y r, r⟩)).1

/-! ## Bytes and numbers -/

theorem takeBytes_run (n : Nat) (c : Cursor) :
    (takeBytes n).run c =
      if n ≤ c.rest.length then .ok (c.rest.take n, ⟨c.rest.drop n, c.offset + n⟩)
      else .error (.endOfData c.offset n) := by
  simp only [takeBytes, StateT.run, bind, StateT.bind, get, getThe, MonadStateOf.get, StateT.get,
    set, Pure.pure, Except.pure, Except.bind, List.splitAt_eq, List.length_take]
  split <;> split
  · omega
  · rfl
  · rfl
  · omega

theorem takeBytes_readsFrom (n : Nat) :
    ReadsFrom (takeBytes n) (fun t w => w = t ∧ t.length = n) := by
  intro c t c' h
  rw [takeBytes_run] at h
  split at h
  · rename_i enough
    obtain ⟨rfl, rfl⟩ := Prod.mk.inj (Except.ok.inj h)
    exact ⟨_, ⟨rfl, by simp; omega⟩, (List.take_append_drop n c.rest).symm⟩
  · cases h

theorem u1_bigEndian {bytes : List UInt8} (h : bytes.length = 1) :
    u1 (bigEndian bytes) = bytes ∧ bigEndian bytes < 2 ^ 8 := by
  match bytes, h with
  | [x], _ =>
    have hx := x.toNat_lt
    simp only [bigEndian, List.foldl_cons, List.foldl_nil, u1]
    exact ⟨by simp, by omega⟩

/-- Two bytes are the two-byte field of their big-endian number. -/
theorem u2_bigEndian {bytes : List UInt8} (h : bytes.length = 2) :
    u2 (bigEndian bytes) = bytes ∧ bigEndian bytes < 2 ^ 16 := by
  match bytes, h with
  | [x, y], _ =>
    have hx := x.toNat_lt
    have hy := y.toNat_lt
    simp only [bigEndian, List.foldl_cons, List.foldl_nil, u2]
    refine ⟨?_, by omega⟩
    have high : (x.toNat * 256 + y.toNat) / 256 % 256 = x.toNat := by omega
    have low : (x.toNat * 256 + y.toNat) % 256 = y.toNat := by omega
    simp [high, low]

theorem u4_bigEndian {bytes : List UInt8} (h : bytes.length = 4) :
    u4 (bigEndian bytes) = bytes ∧ bigEndian bytes < 2 ^ 32 := by
  match bytes, h with
  | [a, b, c, d], _ =>
    -- the number is the two-byte numbers of the halves, the first one scaled
    have halves : bigEndian [a, b, c, d] = bigEndian [a, b] * 65536 + bigEndian [c, d] := by
      simp only [bigEndian, List.foldl_cons, List.foldl_nil]
      omega
    obtain ⟨first, high⟩ := (u2_bigEndian (rfl : [a, b].length = 2))
    obtain ⟨second, low⟩ := (u2_bigEndian (rfl : [c, d].length = 2))
    rw [halves]
    generalize bigEndian [a, b] = x at first high
    generalize bigEndian [c, d] = y at second low
    have e₁ : (x * 65536 + y) / 65536 % 65536 = x := by omega
    have e₂ : (x * 65536 + y) % 65536 = y := by omega
    refine ⟨?_, by omega⟩
    rw [u4, e₁, e₂, first, second]
    rfl

/-- A number read from `width` bytes, with the facts about those bytes that the writer of the
number gives. -/
private theorem readNumber_readsFrom {width : Nat} {write : Nat → List UInt8} {bound : Nat}
    (back : ∀ bytes : List UInt8, bytes.length = width →
      write (bigEndian bytes) = bytes ∧ bigEndian bytes < bound) :
    ReadsFrom (bigEndian <$> takeBytes width) (fun n w => w = write n ∧ n < bound) := by
  intro c n c' h
  obtain ⟨bytes, hbytes, rfl⟩ := ReadM.run_map_eq_ok h
  obtain ⟨w, ⟨rfl, length⟩, rest⟩ := takeBytes_readsFrom width hbytes
  obtain ⟨written, small⟩ := back w length
  exact ⟨w, ⟨written.symm, small⟩, rest⟩

theorem readU1_readsFrom : ReadsFrom readU1 (fun n w => w = u1 n ∧ n < 2 ^ 8) :=
  readNumber_readsFrom fun _ => u1_bigEndian

theorem readU2_readsFrom : ReadsFrom readU2 (fun n w => w = u2 n ∧ n < 2 ^ 16) :=
  readNumber_readsFrom fun _ => u2_bigEndian

theorem readU4_readsFrom : ReadsFrom readU4 (fun n w => w = u4 n ∧ n < 2 ^ 32) :=
  readNumber_readsFrom fun _ => u4_bigEndian

/-- `readMany` reads its items from parts of the bytes, one after another. -/
theorem readMany_readsFrom {α : Type} {r : ReadM α} {W : α → List UInt8 → Prop}
    (each : ReadsFrom r W) : ∀ n, ReadsFrom (readMany r n)
      (fun xs w => xs.length = n ∧ ∃ parts, List.Forall₂ W xs parts ∧ w = parts.flatten)
  | 0 => by
    intro c xs c' h
    obtain ⟨rfl, rfl⟩ := ReadM.run_pure_eq_ok h
    exact ⟨[], ⟨rfl, [], .nil, rfl⟩, rfl⟩
  | n + 1 => by
    intro c xs c' h
    obtain ⟨x, c₁, hx, h⟩ := StateT.run_bind_eq_ok.mp h
    obtain ⟨ys, c₂, hys, h⟩ := StateT.run_bind_eq_ok.mp h
    obtain ⟨rfl, rfl⟩ := ReadM.run_pure_eq_ok h
    obtain ⟨w, hw, rest₁⟩ := each hx
    obtain ⟨_, ⟨length, parts, hparts, rfl⟩, rest₂⟩ := readMany_readsFrom each n hys
    refine ⟨w ++ parts.flatten, ⟨by simp [length], w :: parts, .cons hw hparts, rfl⟩, ?_⟩
    rw [rest₁, rest₂, List.append_assoc]

/-! ## Attributes and members -/

theorem readAttribute_readsFrom :
    ReadsFrom readAttribute (fun a w => a.Fits ∧ attributeBytes a = .ok w) := by
  intro c a c' h
  obtain ⟨name, c₁, hname, h⟩ := StateT.run_bind_eq_ok.mp h
  obtain ⟨length, c₂, hlength, h⟩ := StateT.run_bind_eq_ok.mp h
  obtain ⟨data, c₃, hdata, h⟩ := StateT.run_bind_eq_ok.mp h
  obtain ⟨rfl, rfl⟩ := ReadM.run_pure_eq_ok h
  obtain ⟨_, ⟨rfl, fits⟩, rest₁⟩ := readU2_readsFrom hname
  obtain ⟨_, ⟨rfl, small⟩, rest₂⟩ := readU4_readsFrom hlength
  obtain ⟨_, ⟨taken, sized⟩, rest₃⟩ := takeBytes_readsFrom length hdata
  rw [taken] at rest₃
  refine ⟨u2 name ++ u4 length ++ data, ⟨fits, ?_⟩, by simp [rest₁, rest₂, rest₃]⟩
  unfold attributeBytes
  rw [if_neg (by simp only [sized]; omega)]
  simp only [sized]

theorem readAttributes_readsFrom : ReadsFrom readAttributes (fun as w =>
    as.length < 2 ^ 16 ∧ (∀ a ∈ as, a.Fits) ∧ attributesBytes as = .ok w) := by
  intro c as c' h
  obtain ⟨n, c₁, hn, h⟩ := StateT.run_bind_eq_ok.mp h
  obtain ⟨_, ⟨rfl, small⟩, rest₁⟩ := readU2_readsFrom hn
  obtain ⟨_, ⟨length, parts, hparts, rfl⟩, rest₂⟩ :=
    readMany_readsFrom readAttribute_readsFrom n h
  have written : as.mapM attributeBytes = .ok parts :=
    List.mapM_eq_ok.mpr (hparts.imp fun _ _ h => h.2)
  refine ⟨u2 n ++ parts.flatten, ⟨by omega, forall_of_forall₂ hparts fun _ _ h => h.1, ?_⟩,
    by simp [rest₁, rest₂]⟩
  simp [attributesBytes, written, length]

theorem readMember_readsFrom :
    ReadsFrom readMember (fun m w => m.Fits ∧ memberBytes m = .ok w) := by
  intro c m c' h
  obtain ⟨access, c₁, haccess, h⟩ := StateT.run_bind_eq_ok.mp h
  obtain ⟨name, c₂, hname, h⟩ := StateT.run_bind_eq_ok.mp h
  obtain ⟨desc, c₃, hdesc, h⟩ := StateT.run_bind_eq_ok.mp h
  obtain ⟨attrs, c₄, hattrs, h⟩ := StateT.run_bind_eq_ok.mp h
  obtain ⟨rfl, rfl⟩ := ReadM.run_pure_eq_ok h
  obtain ⟨_, ⟨rfl, accessFits⟩, rest₁⟩ := readU2_readsFrom haccess
  obtain ⟨_, ⟨rfl, nameFits⟩, rest₂⟩ := readU2_readsFrom hname
  obtain ⟨_, ⟨rfl, descFits⟩, rest₃⟩ := readU2_readsFrom hdesc
  obtain ⟨w, ⟨count, fits, written⟩, rest₄⟩ := readAttributes_readsFrom hattrs
  refine ⟨u2 access ++ u2 name ++ u2 desc ++ w,
    ⟨⟨accessFits, nameFits, descFits, count, fits⟩, ?_⟩, by simp [rest₁, rest₂, rest₃, rest₄]⟩
  simp [memberBytes, written]

/-- Members read one after another are written back after their count. -/
private theorem membersBytes_of_forall₂ {ms : List Member} {parts : List (List UInt8)}
    (h : List.Forall₂ (fun m w => m.Fits ∧ memberBytes m = .ok w) ms parts) :
    membersBytes ms = .ok (u2 ms.length ++ parts.flatten) ∧ ∀ m ∈ ms, m.Fits := by
  have written : ms.mapM memberBytes = .ok parts := List.mapM_eq_ok.mpr (h.imp fun _ _ h => h.2)
  exact ⟨by simp [membersBytes, written], forall_of_forall₂ h fun _ _ h => h.1⟩

/-- Numbers read one after another are written back as the same two-byte fields. -/
private theorem flatten_of_forall₂_u2 {xs : List Nat} {parts : List (List UInt8)}
    (h : List.Forall₂ (fun x w => w = u2 x ∧ x < 2 ^ 16) xs parts) :
    parts.flatten = xs.flatMap u2 ∧ ∀ x ∈ xs, x < 2 ^ 16 := by
  refine ⟨?_, forall_of_forall₂ h fun _ _ h => h.2⟩
  induction h with
  | nil => rfl
  | cons head _ ih =>
    rw [List.flatten_cons, ih, head.1, List.flatMap_cons]

/-! ## Constants -/

/-- Decoding that accepts a text only in the form the writer gives it, its own modified UTF-8;
only whether it succeeds matters here, and other bytes are refused at their first one. -/
def decodeCanonical (t : List UInt8) : Except Utf8Problem String := do
  let s ← decodeModifiedUtf8 t
  if encodeModifiedUtf8 s = t then pure s else throw (.invalidByte (t.headD 0).toNat 0)

theorem decodeCanonical_encode {t : List UInt8} {s : String} (h : decodeCanonical t = .ok s) :
    encodeModifiedUtf8 s = t := by
  simp only [decodeCanonical, bind, Except.bind] at h
  split at h
  · cases h
  · split at h
    · rename_i same
      cases h
      exact same
    · cases h

/-- A constant of one two-byte index. -/
private theorem readOne_readsFrom (mk : Nat → Constant) :
    ReadsFrom (readU2 >>= fun i => Pure.pure (mk i))
      (fun k w => ∃ i, k = mk i ∧ i < 2 ^ 16 ∧ w = u2 i) := by
  intro c k c' h
  obtain ⟨i, c₁, hi, h⟩ := StateT.run_bind_eq_ok.mp h
  obtain ⟨rfl, rfl⟩ := ReadM.run_pure_eq_ok h
  obtain ⟨_, ⟨rfl, fits⟩, rest⟩ := readU2_readsFrom hi
  exact ⟨_, ⟨i, rfl, fits, rfl⟩, rest⟩

/-- A constant of two two-byte indexes. -/
private theorem readTwo_readsFrom (mk : Nat → Nat → Constant) :
    ReadsFrom (readU2 >>= fun i => readU2 >>= fun j => Pure.pure (mk i j))
      (fun k w => ∃ i j, k = mk i j ∧ i < 2 ^ 16 ∧ j < 2 ^ 16 ∧ w = u2 i ++ u2 j) := by
  intro c k c' h
  obtain ⟨i, c₁, hi, h⟩ := StateT.run_bind_eq_ok.mp h
  obtain ⟨j, c₂, hj, h⟩ := StateT.run_bind_eq_ok.mp h
  obtain ⟨rfl, rfl⟩ := ReadM.run_pure_eq_ok h
  obtain ⟨_, ⟨rfl, fitsI⟩, rest₁⟩ := readU2_readsFrom hi
  obtain ⟨_, ⟨rfl, fitsJ⟩, rest₂⟩ := readU2_readsFrom hj
  exact ⟨_, ⟨i, j, rfl, fitsI, fitsJ, rfl⟩, by simp [rest₁, rest₂]⟩

/-- A constant of one four-byte word. -/
private theorem readWord_readsFrom (mk : UInt32 → Constant) :
    ReadsFrom (readU4 >>= fun x => Pure.pure (mk x.toUInt32))
      (fun k w => ∃ bits : UInt32, k = mk bits ∧ w = u4 bits.toNat) := by
  intro c k c' h
  obtain ⟨x, c₁, hx, h⟩ := StateT.run_bind_eq_ok.mp h
  obtain ⟨rfl, rfl⟩ := ReadM.run_pure_eq_ok h
  obtain ⟨_, ⟨rfl, small⟩, rest⟩ := readU4_readsFrom hx
  refine ⟨_, ⟨x.toUInt32, rfl, ?_⟩, rest⟩
  rw [Nat.toUInt32, UInt32.toNat_ofNat', Nat.mod_eq_of_lt small]

/-- A constant of two four-byte halves, the high one first. -/
private theorem readHalves_readsFrom (mk : UInt64 → Constant) :
    ReadsFrom (readU4 >>= fun high => readU4 >>= fun low =>
      Pure.pure (mk (high * 2 ^ 32 + low).toUInt64))
      (fun k w => ∃ bits : UInt64, k = mk bits ∧
        w = u4 (bits.toNat / 2 ^ 32) ++ u4 bits.toNat) := by
  intro c k c' h
  obtain ⟨high, c₁, hhigh, h⟩ := StateT.run_bind_eq_ok.mp h
  obtain ⟨low, c₂, hlow, h⟩ := StateT.run_bind_eq_ok.mp h
  obtain ⟨rfl, rfl⟩ := ReadM.run_pure_eq_ok h
  obtain ⟨_, ⟨rfl, smallHigh⟩, rest₁⟩ := readU4_readsFrom hhigh
  obtain ⟨_, ⟨rfl, smallLow⟩, rest₂⟩ := readU4_readsFrom hlow
  have bits : (high * 2 ^ 32 + low).toUInt64.toNat = high * 2 ^ 32 + low := by
    rw [Nat.toUInt64, UInt64.toNat_ofNat', Nat.mod_eq_of_lt (by omega)]
  refine ⟨u4 high ++ u4 low, ⟨_, rfl, ?_⟩, by simp [rest₁, rest₂]⟩
  have quotient : (high * 2 ^ 32 + low) / 2 ^ 32 = high := by omega
  have remainder : (high * 2 ^ 32 + low) % 2 ^ 32 = low := by omega
  rw [bits, quotient, u4_mod (high * 2 ^ 32 + low), remainder]

/-- The bytes of a constant do not depend on its index, which only a refusal reports. -/
theorem constantBytes_index {i j : Nat} {k : Constant} {part : List UInt8}
    (h : constantBytes i k = .ok part) : constantBytes j k = .ok part := by
  cases k with
  | utf8 s =>
    simp only [constantBytes] at h ⊢
    split at h
    · cases h
    · rwa [if_neg (by assumption)]
  | _ => exact h

/-- Writing the slots of constants that each write succeeds and gives their parts; the
second slot of a wide constant writes nothing. -/
theorem mapM_slots_written :
    ∀ {cs : List Constant} {parts : List (List UInt8)} (k : Nat),
      List.Forall₂ (fun c part => ∃ i, constantBytes i c = .ok part) cs parts →
      ∃ written, ((cs.flatMap Constant.slots).zipIdx k).mapM (fun (c, i) => constantBytes i c) =
        .ok written ∧ written.flatten = parts.flatten
  | [], [], k, .nil => ⟨[], rfl, rfl⟩
  | c :: cs, part :: parts, k, .cons ⟨i, hpart⟩ hrest => by
    obtain ⟨written, hwritten, hflat⟩ := mapM_slots_written (k + c.slots.length) hrest
    have own := constantBytes_index (j := k) hpart
    have slots : (c.slots.zipIdx k).mapM (fun (c, i) => constantBytes i c) =
        .ok (if c.isWide then [part, []] else [part]) := by
      have second : ∀ j, constantBytes j .unusable = .ok [] := fun _ => rfl
      unfold Constant.slots
      split <;> simp [own, second]
    refine ⟨(if c.isWide then [part, []] else [part]) ++ written, ?_, ?_⟩
    · simp only [List.flatMap_cons, List.zipIdx_append, List.mapM_append, slots, hwritten,
        Except.ok_bind]
      rfl
    · split <;> simp [hflat]

/-- The count a class file declares for its pool: the two bytes after the magic number and
the version. -/
private theorem declared_count {m minor major count : Nat} (rest : List UInt8)
    (small : count < 2 ^ 16) :
    bigEndian (((u4 m ++ (u2 minor ++ (u2 major ++ (u2 count ++ rest)))).drop 8).take 2) =
      count := by
  have header : (u4 m ++ (u2 minor ++ (u2 major ++ (u2 count ++ rest)))).drop 8 =
      u2 count ++ rest := by
    simp [u4, u2]
  rw [header, List.take_left' (u2_length count), bigEndian_u2 small]

section Canonical

/- The readers of the pool and the class, with a decoding of texts that accepts only the
encoding of the text it gives. -/
variable {text : List UInt8 → Except Utf8Problem String}
  (canonical : ∀ {t s}, text t = .ok s → encodeModifiedUtf8 s = t)
include canonical

/-- The constant after a tag byte, read from the bytes the writer writes for it after the
tag. -/
theorem readConstantWith_readsFrom (index tag : Nat) :
    ReadsFrom (readConstantWith text index tag)
      (fun k w => k.Fits ∧ constantBytes index k = .ok (u1 tag ++ w)) := by
  intro c k c' h
  unfold readConstantWith at h
  -- one case per tag, grouped by the shape of what follows it
  split at h
  case h_1 =>
    obtain ⟨length, c₁, hlength, h⟩ := StateT.run_bind_eq_ok.mp h
    obtain ⟨t, c₂, ht, h⟩ := StateT.run_bind_eq_ok.mp h
    obtain ⟨_, ⟨rfl, small⟩, rest₁⟩ := readU2_readsFrom hlength
    obtain ⟨_, ⟨taken, sized⟩, rest₂⟩ := takeBytes_readsFrom length ht
    rw [taken] at rest₂
    split at h
    · rename_i s decoded
      obtain ⟨rfl, rfl⟩ := ReadM.run_pure_eq_ok h
      have encoded := canonical decoded
      refine ⟨u2 length ++ t, ⟨trivial, ?_⟩, by simp [rest₁, rest₂]⟩
      simp only [constantBytes, encoded, sized]
      rw [if_neg (by omega)]
      rfl
    · cases h
  case h_2 | h_3 =>
    obtain ⟨w, ⟨bits, rfl, rfl⟩, rest⟩ := readWord_readsFrom _ h
    exact ⟨_, ⟨trivial, rfl⟩, rest⟩
  case h_4 | h_5 =>
    obtain ⟨w, ⟨bits, rfl, rfl⟩, rest⟩ := readHalves_readsFrom _ h
    exact ⟨_, ⟨trivial, rfl⟩, rest⟩
  case h_6 | h_7 | h_8 | h_9 | h_10 =>
    obtain ⟨w, ⟨i, rfl, fits, rfl⟩, rest⟩ := readOne_readsFrom _ h
    exact ⟨_, ⟨fits, rfl⟩, rest⟩
  case h_11 | h_12 | h_13 | h_14 | h_15 | h_16 =>
    obtain ⟨w, ⟨i, j, rfl, fitsI, fitsJ, rfl⟩, rest⟩ := readTwo_readsFrom _ h
    exact ⟨_, ⟨⟨fitsI, fitsJ⟩, rfl⟩, rest⟩
  case h_17 =>
    obtain ⟨kind, c₁, hkind, h⟩ := StateT.run_bind_eq_ok.mp h
    obtain ⟨w, ⟨i, rfl, fits, rfl⟩, rest₂⟩ := readOne_readsFrom _ h
    obtain ⟨_, ⟨rfl, kindFits⟩, rest₁⟩ := readU1_readsFrom hkind
    exact ⟨u1 kind ++ u2 i, ⟨⟨kindFits, fits⟩, rfl⟩, by simp [rest₁, rest₂]⟩
  case h_18 => cases h

/-- The constants of the pool are read one after another from the bytes the writer writes for
each, and pushed onto the pool in order. -/
theorem readConstantsWith_readsFrom (count : Nat) :
    ∀ (fuel index : Nat) (pool : Pool), ReadsFrom (readConstantsWith text count fuel index pool)
      (fun p w => ∃ cs parts, p = cs.foldl Pool.push pool ∧ (∀ k ∈ cs, k.Fits) ∧
        List.Forall₂ (fun k part => ∃ i, constantBytes i k = .ok part) cs parts ∧
          w = parts.flatten)
  | 0, index, pool => by
    intro c p c' h
    obtain ⟨rfl, rfl⟩ := ReadM.run_pure_eq_ok h
    exact ⟨[], ⟨[], [], rfl, by simp, .nil, rfl⟩, rfl⟩
  | fuel + 1, index, pool => by
    intro c p c' h
    simp only [readConstantsWith] at h
    split at h
    · obtain ⟨rfl, rfl⟩ := ReadM.run_pure_eq_ok h
      exact ⟨[], ⟨[], [], rfl, by simp, .nil, rfl⟩, rfl⟩
    · obtain ⟨tag, c₁, htag, h⟩ := StateT.run_bind_eq_ok.mp h
      obtain ⟨k, c₂, hk, h⟩ := StateT.run_bind_eq_ok.mp h
      obtain ⟨_, ⟨rfl, -⟩, rest₁⟩ := readU1_readsFrom htag
      obtain ⟨w, ⟨fits, written⟩, rest₂⟩ := readConstantWith_readsFrom canonical index tag hk
      obtain ⟨_, ⟨cs, parts, rfl, fitsRest, hparts, rfl⟩, rest₃⟩ :=
        readConstantsWith_readsFrom count fuel _ _ h
      refine ⟨u1 tag ++ w ++ parts.flatten,
        ⟨k :: cs, (u1 tag ++ w) :: parts, rfl, ?_, .cons ⟨index, written⟩ hparts, by simp⟩,
        by simp [rest₁, rest₂, rest₃]⟩
      intro k' hk'
      rcases List.mem_cons.mp hk' with rfl | later
      · exact fits
      · exact fitsRest k' later

/-- The pool is read from its count and the bytes the writer writes for its constants; it is
laid out as a class file lays it out, and written back with its own count. -/
theorem readPoolWith_readsFrom :
    ReadsFrom (readPoolWith text) (fun p w => p.WellLaid ∧ ∃ count parts, count < 2 ^ 16 ∧
      w = u2 count ++ parts ∧ poolBytes p = .ok (u2 p.count ++ parts)) := by
  intro c p c' h
  obtain ⟨count, c₁, hcount, h⟩ := StateT.run_bind_eq_ok.mp h
  obtain ⟨_, ⟨rfl, small⟩, rest₁⟩ := readU2_readsFrom hcount
  obtain ⟨_, ⟨cs, parts, rfl, fits, hparts, rfl⟩, rest₂⟩ :=
    readConstantsWith_readsFrom canonical count count 1 Pool.empty h
  have entries : (cs.foldl Pool.push Pool.empty).entries.toList =
      .unusable :: cs.flatMap Constant.slots := by
    rw [foldl_push_entries]
    rfl
  obtain ⟨written, hwritten, hflat⟩ := mapM_slots_written 1 hparts
  refine ⟨u2 count ++ parts.flatten, ⟨⟨cs, entries, fits⟩, count, parts.flatten, small, rfl, ?_⟩,
    by simp [rest₁, rest₂]⟩
  simp only [poolBytes, entries, List.zipIdx_cons, List.drop_one, List.tail_cons, hwritten, hflat,
    Except.ok_bind]
  rfl

/-- A class file is read from the bytes the writer writes for it, and all its numbers fit
their fields; when the count it declares is the count of its pool, writing the class gives
those bytes back. -/
theorem readClassWith_readsFrom :
    ReadsFrom (readClassWith text) (fun cf w => cf.Fits ∧
      (cf.pool.count = bigEndian ((w.drop 8).take 2) → cf.bytes = .ok w)) := by
  intro c cf c' h
  obtain ⟨m, c₁, hm, h⟩ := StateT.run_bind_eq_ok.mp h
  obtain ⟨_, ⟨rfl, -⟩, rest₁⟩ := readU4_readsFrom hm
  split at h
  · cases h
  rename_i same
  obtain ⟨minor, c₂, hminor, h⟩ := StateT.run_bind_eq_ok.mp h
  obtain ⟨major, c₃, hmajor, h⟩ := StateT.run_bind_eq_ok.mp h
  obtain ⟨pool, c₄, hpool, h⟩ := StateT.run_bind_eq_ok.mp h
  obtain ⟨access, c₅, haccess, h⟩ := StateT.run_bind_eq_ok.mp h
  obtain ⟨thisClass, c₆, hthis, h⟩ := StateT.run_bind_eq_ok.mp h
  obtain ⟨superClass, c₇, hsuper, h⟩ := StateT.run_bind_eq_ok.mp h
  obtain ⟨ni, c₈, hni, h⟩ := StateT.run_bind_eq_ok.mp h
  obtain ⟨interfaces, c₉, hinterfaces, h⟩ := StateT.run_bind_eq_ok.mp h
  obtain ⟨nf, c₁₀, hnf, h⟩ := StateT.run_bind_eq_ok.mp h
  obtain ⟨fields, c₁₁, hfields, h⟩ := StateT.run_bind_eq_ok.mp h
  obtain ⟨nm, c₁₂, hnm, h⟩ := StateT.run_bind_eq_ok.mp h
  obtain ⟨methods, c₁₃, hmethods, h⟩ := StateT.run_bind_eq_ok.mp h
  obtain ⟨attributes, c₁₄, hattributes, h⟩ := StateT.run_bind_eq_ok.mp h
  obtain ⟨rfl, rfl⟩ := ReadM.run_pure_eq_ok h
  -- each part of the class, in the order of the file
  obtain ⟨_, ⟨rfl, minorFits⟩, rest₂⟩ := readU2_readsFrom hminor
  obtain ⟨_, ⟨rfl, majorFits⟩, rest₃⟩ := readU2_readsFrom hmajor
  obtain ⟨_, ⟨laid, count, poolParts, small, rfl, poolWritten⟩, rest₄⟩ :=
    readPoolWith_readsFrom canonical hpool
  obtain ⟨_, ⟨rfl, accessFits⟩, rest₅⟩ := readU2_readsFrom haccess
  obtain ⟨_, ⟨rfl, thisFits⟩, rest₆⟩ := readU2_readsFrom hthis
  obtain ⟨_, ⟨rfl, superFits⟩, rest₇⟩ := readU2_readsFrom hsuper
  obtain ⟨_, ⟨rfl, niFits⟩, rest₈⟩ := readU2_readsFrom hni
  obtain ⟨_, ⟨ilength, iparts, hiparts, rfl⟩, rest₉⟩ :=
    readMany_readsFrom readU2_readsFrom ni hinterfaces
  obtain ⟨_, ⟨rfl, nfFits⟩, rest₁₀⟩ := readU2_readsFrom hnf
  obtain ⟨_, ⟨flength, fparts, hfparts, rfl⟩, rest₁₁⟩ :=
    readMany_readsFrom readMember_readsFrom nf hfields
  obtain ⟨_, ⟨rfl, nmFits⟩, rest₁₂⟩ := readU2_readsFrom hnm
  obtain ⟨_, ⟨mlength, mparts, hmparts, rfl⟩, rest₁₃⟩ :=
    readMany_readsFrom readMember_readsFrom nm hmethods
  obtain ⟨attrW, ⟨acount, afits, awritten⟩, rest₁₄⟩ := readAttributes_readsFrom hattributes
  obtain ⟨iflat, ifits⟩ := flatten_of_forall₂_u2 hiparts
  obtain ⟨fwritten, ffits⟩ := membersBytes_of_forall₂ hfparts
  obtain ⟨mwritten, mfits⟩ := membersBytes_of_forall₂ hmparts
  obtain rfl : m = magic := by simpa using same
  refine ⟨u4 magic ++ u2 minor ++ u2 major ++ (u2 count ++ poolParts) ++ u2 access ++
      u2 thisClass ++ u2 superClass ++ u2 ni ++ iparts.flatten ++ (u2 nf ++ fparts.flatten) ++
      (u2 nm ++ mparts.flatten) ++ attrW, ⟨?_, ?_⟩, by
    simp [rest₁, rest₂, rest₃, rest₄, rest₅, rest₆, rest₇, rest₈, rest₉, rest₁₀, rest₁₁, rest₁₂,
      rest₁₃, rest₁₄]⟩
  · exact ⟨minorFits, majorFits, laid, accessFits, thisFits, superFits, ilength ▸ niFits, ifits,
      flength ▸ nfFits, ffits, mlength ▸ nmFits, mfits, acount, afits⟩
  · intro declared
    have counted : pool.count = count := by
      simp only [List.append_assoc] at declared
      rw [declared, declared_count _ small]
    have fits : pool.overflowed = false := by
      simp only [Pool.overflowed, counted, decide_eq_false_iff_not]
      omega
    simp only [ParsedClass.bytes, fits, Bool.false_eq_true, if_false, poolWritten, fwritten,
      mwritten, awritten, Except.ok_bind, counted, ilength, flength, mlength, iflat]
    simp

end Canonical

/-! ## Canonical class files -/

/-- Bytes of a class file in the one form the writer gives them: they read as a class file
when every text must be the modified UTF-8 of what it decodes to, and the pool count they
declare is the count of the pool they hold, so that no long or double takes the last index. -/
def CanonicalBytes (b : List UInt8) : Prop :=
  ∃ cf, parseClassWith decodeCanonical b = .ok cf ∧ cf.pool.count = bigEndian ((b.drop 8).take 2)

/-- A class file, whatever the decoding of its texts, was read from the whole input, and its
own name resolves. -/
theorem parseClassWith_eq_ok {text : List UInt8 → Except Utf8Problem String} {b : List UInt8}
    {cf : ParsedClass} (h : parseClassWith text b = .ok cf) :
    (∃ offset, (readClassWith text).run ⟨b, 0⟩ = .ok (cf, ⟨[], offset⟩)) ∧
      ∃ name, cf.name = .ok name := by
  obtain ⟨⟨cf', ⟨rest, offset⟩⟩, hrun, h⟩ := Except.bind_eq_ok.mp h
  cases rest with
  | cons b bs => simp at h
  | nil =>
    simp only [List.isEmpty_nil, Bool.not_true, Bool.false_eq_true, if_false] at h
    split at h
    · rename_i name named
      obtain rfl := Except.ok.inj h
      exact ⟨⟨offset, hrun⟩, name, named⟩
    · cases h

/-- Writing the class that reading canonical bytes gives returns the bytes. -/
theorem parseClass_canonical_bytes {b : List UInt8} {cf : ParsedClass}
    (parsed : parseClass b = .ok cf) (canonical : CanonicalBytes b) : cf.bytes = .ok b := by
  obtain ⟨cf', strict, declared⟩ := canonical
  obtain ⟨⟨offset, hrun⟩, name, named⟩ := parseClassWith_eq_ok strict
  obtain ⟨w, ⟨fits, writes⟩, whole⟩ :=
    readClassWith_readsFrom (fun h => decodeCanonical_encode h) hrun
  simp only [List.append_nil] at whole
  rw [whole] at declared
  have written : cf'.bytes = .ok b := whole ▸ writes declared
  -- the lenient reader reads the written bytes back as the same class
  have same : parseClass b = .ok cf' := parseClass_bytes fits named written
  rw [parsed] at same
  rwa [Except.ok.inj same]

end BasicJvm.ClassFile
