import BasicJvm.Proofs.Bytecode.Decoding
import BasicJvm.Proofs.Bytecode.Tiling
import BasicJvm.Proofs.Bytecode.Widening

/-!
# Reading an assembled body back

The decoder reads back, instruction by instruction, what the assembler wrote: decoding the
body of an assembly gives, node after laid-out node, the instructions each node stands for
(`AssemblyRun.decode_code`).  A label stands for none, a branch made wide and not a `goto`
for the negated branch over a `goto_w`, and any other node for one instruction with the
node's offset, size and pool index, its branch targets at the offsets of their labels
(`Node.reads`).

Two things are asked of the code.  Each instruction must be one the decoder reads as it was
written (`Instr.readable`): a plain opcode takes no operand, an immediate fits the bytes it is
written to, a `tableswitch` has targets and a range within 32 bits, a `lookupswitch` a key for
each target.  And each `lookupswitch` must have twelve bytes of body from its aligned header
on, since the decoder reads the count of pairs only after it has checked that many, also for
a switch of no pairs.

The proof goes form by form, then node by node, then over the body:

* each instruction form written at an offset decodes to itself (`decodeAt_bare`,
  `decodeAt_local`, `decodeAt_branch`, `decodeAt_lookupswitch`, ...);
* a node placed and written at its offset is tiled by its reads (`Node.reads_tile`), with
  one lemma for each kind of instruction;
* nodes placed one after another are tiled by all their reads (`Placed.reads_tile`), and a
  tiling of the whole body is what the decoder's walk returns (`Tiling.decodeFrom_eq`).
-/

namespace BasicJvm.Bytecode

open BasicJvm.ClassFile

/-! ## Classes of opcodes -/

/-- Opcodes of one byte and no operands. -/
def Opcode.bare : Opcode → Bool
  | .nop | .aconstNull | .iconstM1 | .iconst0 | .iconst1 | .iconst2 | .iconst3 | .iconst4
  | .iconst5 | .fconst0 | .fconst1 | .fconst2 | .faload | .aaload | .fastore | .aastore | .pop
  | .dup | .swap | .iadd | .fadd | .isub | .fsub | .fmul | .fdiv | .fneg | .i2f | .f2i | .f2d
  | .d2f | .i2c | .fcmpl | .fcmpg | .returnVoid | .arraylength => true
  | _ => false

/-- Opcodes followed by a two-byte pool index. -/
def Opcode.indexed : Opcode → Bool
  | .getfield | .putfield | .invokevirtual | .invokespecial | .invokestatic | .new
  | .anewarray => true
  | _ => false

/-- A bare opcode is one byte that the decoder reads back as itself. -/
theorem Opcode.bare_facts (op : Opcode) (h : op.bare = true) :
    op.code < 256 ∧ shortLocal? op.code = none ∧ Opcode.ofByte? op.code = some op ∧
      op.isBranch = false := by
  cases op <;> first | decide | simp [Opcode.bare] at h

/-- An indexed opcode is one byte that the decoder reads back as itself. -/
theorem Opcode.indexed_facts (op : Opcode) (h : op.indexed = true) :
    op.code < 256 ∧ shortLocal? op.code = none ∧ Opcode.ofByte? op.code = some op := by
  cases op <;> first | decide | simp [Opcode.indexed] at h

/-- A local opcode is one byte that the decoder reads back as itself, and its four short
forms follow one another from `shortForm`. -/
theorem Opcode.local_facts (op : Opcode) (h : op.isLocal = true) :
    op.code < 256 ∧ shortLocal? op.code = none ∧ Opcode.ofByte? op.code = some op ∧
      (∀ s < 4, shortLocal? (op.shortForm + s) = some (op, s)) ∧ op.shortForm + 4 ≤ 256 := by
  cases op <;> first | decide | simp [Opcode.isLocal] at h

/-- A branch opcode is one byte that the decoder reads back as itself. -/
theorem Opcode.branch_facts (op : Opcode) (h : op.isBranch = true) :
    op.code < 256 ∧ shortLocal? op.code = none ∧ Opcode.ofByte? op.code = some op := by
  cases op <;> first | decide | simp [Opcode.isBranch, Opcode.code] at h

/-- The negation of a conditional branch is a conditional branch. -/
theorem Opcode.negate_facts (op : Opcode) (h : op.isBranch = true) (ng : op ≠ .goto) :
    op.negate.isBranch = true ∧ op.negate ≠ .goto := by
  cases op <;> first | decide | exact absurd rfl ng | simp [Opcode.isBranch, Opcode.code] at h

/-! ## Each form at its offset -/

section Forms

variable {code : Array UInt8} {pc : Nat}

/-- A byte written as a number below 256 reads back as that number. -/
theorem byteAt_of {b : UInt8} {bs : List UInt8} {v : Nat} (h : BytesAt code pc (b :: bs))
    (hb : b = v.toUInt8) (lt : v < 256) : byteAt code pc = v := by
  rw [BytesAt.byteAt h, hb]; simp [Nat.toUInt8]; omega

theorem decodeAt_bare {op : Opcode} (h : BytesAt code pc [op.code.toUInt8]) (hb : op.bare = true) :
    decodeAt code pc = .ok ⟨pc, 1, op, .none⟩ := by
  obtain ⟨lt, s, o, nb⟩ := Opcode.bare_facts op hb
  have rd := byteAt_of h rfl lt
  unfold decodeAt
  simp only [rd, s, o]
  cases op <;> simp_all [Opcode.bare]

theorem decodeAt_shortLocal {op : Opcode} {slot : Nat}
    (h : BytesAt code pc [(op.shortForm + slot).toUInt8])
    (hl : op.isLocal = true) (small : slot < 4) :
    decodeAt code pc = .ok ⟨pc, 1, op, .slot slot⟩ := by
  obtain ⟨-, -, -, s, lt⟩ := Opcode.local_facts op hl
  have rd := byteAt_of h rfl (by omega)
  unfold decodeAt
  simp only [rd, s slot small]
  rfl

theorem decodeAt_local {op : Opcode} {slot : Nat}
    (h : BytesAt code pc [op.code.toUInt8, slot.toUInt8])
    (hl : op.isLocal = true) (small : slot < 256) :
    decodeAt code pc = .ok ⟨pc, 2, op, .slot slot⟩ := by
  obtain ⟨lt, s, o, -⟩ := Opcode.local_facts op hl
  have rd := byteAt_of h rfl lt
  have rd1 := byteAt_of (BytesAt.cons.mp h).2 rfl small
  have fits := h.le_size (by simp)
  simp only [List.length_cons, List.length_nil] at fits
  unfold decodeAt
  simp only [rd, s, o]
  have room : ¬ ((code.size : Int) < pc + 2) := by omega
  cases op <;> simp [Opcode.isLocal] at hl <;> simp [rd1, room]

theorem decodeAt_wideLocal {op : Opcode} {slot : Nat}
    (h : BytesAt code pc ([0xc4, op.code.toUInt8] ++ u2 slot)) (hl : op.isLocal = true)
    (small : slot < 2 ^ 16) :
    decodeAt code pc = .ok ⟨pc, 4, op, .slot slot⟩ := by
  obtain ⟨lt, s, o, -⟩ := Opcode.local_facts op hl
  obtain ⟨head, index⟩ := BytesAt.append.mp h
  have rd := byteAt_of head (v := 0xc4) rfl (by decide)
  have rd1 := byteAt_of (BytesAt.cons.mp head).2 rfl lt
  have rd2 := u2At_u2 index small
  have fits := h.le_size (by simp)
  simp only [List.length_append, List.length_cons, List.length_nil, u2_length] at fits rd2
  have room : ¬ ((code.size : Int) < pc + 4) := by omega
  unfold decodeAt
  have w : shortLocal? 0xc4 = none ∧ Opcode.ofByte? 0xc4 = some .wide := by decide
  simp only [rd, w.1, w.2]
  simp [room, rd1, s, o, hl, rd2]

theorem decodeAt_bipush {v : Int}
    (h : BytesAt code pc [Opcode.bipush.code.toUInt8, (v % 256).toNat.toUInt8])
    (range : -128 ≤ v ∧ v < 128) :
    decodeAt code pc = .ok ⟨pc, 2, .bipush, .imm v⟩ := by
  have rd := byteAt_of h rfl (by decide)
  have rd1 := s1At_byte (BytesAt.cons.mp h).2 range
  have fits := h.le_size (by simp)
  simp only [List.length_cons, List.length_nil] at fits
  have room : ¬ ((code.size : Int) < pc + 2) := by omega
  unfold decodeAt
  have w : shortLocal? Opcode.bipush.code = none ∧
      Opcode.ofByte? Opcode.bipush.code = some .bipush := by decide
  simp only [rd, w.1, w.2]
  simp [room, rd1]

theorem decodeAt_newarray {v : Int}
    (h : BytesAt code pc [Opcode.newarray.code.toUInt8, (v % 256).toNat.toUInt8])
    (range : 0 ≤ v ∧ v < 256) :
    decodeAt code pc = .ok ⟨pc, 2, .newarray, .imm v⟩ := by
  have rd := byteAt_of h rfl (by decide)
  have rd1 := byteAt_of (BytesAt.cons.mp h).2 rfl (v := (v % 256).toNat) (by omega)
  have fits := h.le_size (by simp)
  simp only [List.length_cons, List.length_nil] at fits
  have room : ¬ ((code.size : Int) < pc + 2) := by omega
  unfold decodeAt
  have w : shortLocal? Opcode.newarray.code = none ∧
      Opcode.ofByte? Opcode.newarray.code = some .newarray := by decide
  simp only [rd, w.1, w.2]
  simp [room, rd1]
  omega

theorem decodeAt_sipush {v : Int} (h : BytesAt code pc ([0x11] ++ s2 v))
    (range : -32768 ≤ v ∧ v < 32768) :
    decodeAt code pc = .ok ⟨pc, 3, .sipush, .imm v⟩ := by
  obtain ⟨head, rest⟩ := BytesAt.append.mp h
  have rd := byteAt_of head (v := 0x11) rfl (by decide)
  have rd1 := s2At_s2 rest range
  have fits := h.le_size (by simp)
  simp only [List.length_append, List.length_cons, List.length_nil, s2_length] at fits rd1
  have room : ¬ ((code.size : Int) < pc + 3) := by omega
  unfold decodeAt
  have w : shortLocal? 0x11 = none ∧ Opcode.ofByte? 0x11 = some .sipush := by decide
  simp only [rd, w.1, w.2]
  simp [room, rd1]

theorem decodeAt_ldc {cp : Nat} (h : BytesAt code pc [0x12, cp.toUInt8]) (small : cp < 256) :
    decodeAt code pc = .ok ⟨pc, 2, .ldc, .pool cp⟩ := by
  have rd := byteAt_of h (v := 0x12) rfl (by decide)
  have rd1 := byteAt_of (BytesAt.cons.mp h).2 rfl small
  have fits := h.le_size (by simp)
  simp only [List.length_cons, List.length_nil] at fits
  have room : ¬ ((code.size : Int) < pc + 2) := by omega
  unfold decodeAt
  have w : shortLocal? 0x12 = none ∧ Opcode.ofByte? 0x12 = some .ldc := by decide
  simp only [rd, w.1, w.2]
  simp [room, rd1]

theorem decodeAt_ldcW {cp : Nat} (h : BytesAt code pc ([0x13] ++ u2 cp)) (small : cp < 2 ^ 16) :
    decodeAt code pc = .ok ⟨pc, 3, .ldc, .pool cp⟩ := by
  obtain ⟨head, rest⟩ := BytesAt.append.mp h
  have rd := byteAt_of head (v := 0x13) rfl (by decide)
  have rd1 := u2At_u2 rest small
  have fits := h.le_size (by simp)
  simp only [List.length_append, List.length_cons, List.length_nil, u2_length] at fits rd1
  have room : ¬ ((code.size : Int) < pc + 3) := by omega
  unfold decodeAt
  have w : shortLocal? 0x13 = none ∧ Opcode.ofByte? 0x13 = some .ldcW := by decide
  simp only [rd, w.1, w.2]
  simp [room, rd1]

theorem decodeAt_indexed {op : Opcode} {cp : Nat} (h : BytesAt code pc ([op.code.toUInt8] ++ u2 cp))
    (hi : op.indexed = true) (small : cp < 2 ^ 16) :
    decodeAt code pc = .ok ⟨pc, 3, op, .pool cp⟩ := by
  obtain ⟨lt, s, o⟩ := Opcode.indexed_facts op hi
  obtain ⟨head, rest⟩ := BytesAt.append.mp h
  have rd := byteAt_of head rfl lt
  have rd1 := u2At_u2 rest small
  have fits := h.le_size (by simp)
  simp only [List.length_append, List.length_cons, List.length_nil, u2_length] at fits rd1
  have room : ¬ ((code.size : Int) < pc + 3) := by omega
  unfold decodeAt
  simp only [rd, s, o]
  cases op <;> simp [Opcode.indexed] at hi <;> simp [room, rd1]

theorem decodeAt_multianewarray {cp : Nat} {dims : Int}
    (h : BytesAt code pc ([0xc5] ++ u2 cp ++ [(dims % 256).toNat.toUInt8])) (small : cp < 2 ^ 16) :
    decodeAt code pc = .ok ⟨pc, 4, .multianewarray, .multiArray cp (dims % 256).toNat⟩ := by
  obtain ⟨front, last⟩ := BytesAt.append.mp h
  obtain ⟨head, rest⟩ := BytesAt.append.mp front
  have rd := byteAt_of head (v := 0xc5) rfl (by decide)
  have rd1 := u2At_u2 rest small
  have rd3 := byteAt_of last rfl (v := (dims % 256).toNat) (by omega)
  have fits := h.le_size (by simp)
  simp only [List.length_append, List.length_cons, List.length_nil, u2_length] at fits rd1 rd3
  have room : ¬ ((code.size : Int) < pc + 4) := by omega
  unfold decodeAt
  have w : shortLocal? 0xc5 = none ∧ Opcode.ofByte? 0xc5 = some .multianewarray := by decide
  simp only [rd, w.1, w.2]
  simp [room, rd1, rd3]

theorem decodeAt_branch {op : Opcode} {r : Int} (h : BytesAt code pc ([op.code.toUInt8] ++ s2 r))
    (hb : op.isBranch = true) (range : -32768 ≤ r ∧ r < 32768) :
    decodeAt code pc = .ok ⟨pc, 3, op, .branch (pc + r)⟩ := by
  obtain ⟨lt, s, o⟩ := Opcode.branch_facts op hb
  obtain ⟨head, rest⟩ := BytesAt.append.mp h
  have rd := byteAt_of head rfl lt
  have rd1 := s2At_s2 rest range
  have fits := h.le_size (by simp)
  simp only [List.length_append, List.length_cons, List.length_nil, s2_length] at fits rd1
  have room : ¬ ((code.size : Int) < pc + 3) := by omega
  unfold decodeAt
  simp only [rd, s, o]
  cases op <;> simp [Opcode.isBranch, Opcode.code] at hb <;>
    simp [room, rd1, Opcode.isBranch, Opcode.code]

theorem decodeAt_gotoW {r : Int} (h : BytesAt code pc ([0xc8] ++ s4 r))
    (range : -2 ^ 31 ≤ r ∧ r < 2 ^ 31) :
    decodeAt code pc = .ok ⟨pc, 5, .gotoW, .branch (pc + r)⟩ := by
  obtain ⟨head, rest⟩ := BytesAt.append.mp h
  have rd := byteAt_of head (v := 0xc8) rfl (by decide)
  have rd1 := s4At_s4 rest
  rw [wrap32_of_range range] at rd1
  have fits := h.le_size (by simp)
  simp only [List.length_append, List.length_cons, List.length_nil, s4_length] at fits rd1
  have room : ¬ ((code.size : Int) < pc + 5) := by omega
  unfold decodeAt
  have w : shortLocal? 0xc8 = none ∧ Opcode.ofByte? 0xc8 = some .gotoW := by decide
  simp only [rd, w.1, w.2]
  simp [room, rd1]

/-- The displacement of the negated branch over a `goto_w`. -/
theorem s2_eight : s2 8 = [0, 8] := by decide

/-- A conditional branch made wide reads back as its negation, which jumps over the next five
bytes, and the `goto_w` in those five bytes. -/
theorem negatedBranch_tiles {op : Opcode} {o : Nat}
    (h : BytesAt code pc ([op.negate.code.toUInt8, 0, 8, 0xc8] ++ s4 ((o : Int) - (pc + 3 : Nat))))
    (branch : op.isBranch = true) (goto : op ≠ .goto) (near : o < 2 ^ 16) (low : pc < 2 ^ 16) :
    Tiling code [⟨pc, 3, op.negate, .branch (pc + 8)⟩, ⟨pc + 3, 5, .gotoW, .branch o⟩] pc
      (pc + 8) := by
  obtain ⟨negated, -⟩ := Opcode.negate_facts op branch goto
  have parts : [op.negate.code.toUInt8, 0, 8, 0xc8] ++ s4 ((o : Int) - (pc + 3 : Nat)) =
      ([op.negate.code.toUInt8] ++ s2 8) ++ ([0xc8] ++ s4 ((o : Int) - (pc + 3 : Nat))) := by
    simp [s2_eight]
  rw [parts] at h
  obtain ⟨first, second⟩ := BytesAt.append.mp h
  simp only [List.length_append, List.length_cons, List.length_nil, s2_length] at second
  have d₁ := decodeAt_branch first negated (by decide)
  have d₂ := decodeAt_gotoW second (r := (o : Int) - (pc + 3 : Nat)) (by omega)
  rw [show ((pc + (0 + 1 + 2) : Nat) : Int) + (o - (pc + 3 : Nat)) = o by omega] at d₂
  refine .cons rfl d₁ (by simp) (.cons (by push_cast; rfl) d₂ (by simp) ?_)
  -- the two instructions end where the eight bytes do
  convert (Tiling.nil ((pc : Int) + 8) : Tiling code [] _ _) using 1
  push_cast
  ring

/-- Four-byte numbers written one after another read back one by one, each wrapped to 32 bits. -/
theorem s4At_flatMap {ts : List Int} {q : Nat} (h : BytesAt code q (ts.flatMap s4)) :
    ∀ j (hj : j < ts.length), s4At code (q + 4 * j) = wrap32 ts[j] := by
  induction ts generalizing q with
  | nil => simp
  | cons t ts ih =>
    rw [List.flatMap_cons] at h
    obtain ⟨first, rest⟩ := BytesAt.append.mp h
    intro j hj
    cases j with
    | zero => simpa using s4At_s4 first
    | succ j =>
      have := ih (by simpa using rest) j (by simpa using hj)
      rw [show q + 4 * (j + 1) = q + 4 + 4 * j by omega]
      simpa using this

/-- Pairs of four-byte numbers written one after another read back pair by pair. -/
theorem s4At_pairs {ks ts : List Int} {q : Nat}
    (h : BytesAt code q ((ks.zip ts).flatMap fun kt => s4 kt.1 ++ s4 kt.2))
    (same : ks.length = ts.length) :
    ∀ j (hj : j < ts.length), s4At code (q + 8 * j) = wrap32 ks[j] ∧
      s4At code (q + 8 * j + 4) = wrap32 ts[j] := by
  induction ks generalizing ts q with
  | nil =>
    intro j hj
    simp at same
    omega
  | cons k ks ih =>
    cases ts with
    | nil => simp at same
    | cons t ts =>
      simp only [List.zip_cons_cons, List.flatMap_cons] at h
      obtain ⟨pair, rest⟩ := BytesAt.append.mp h
      obtain ⟨first, second⟩ := BytesAt.append.mp pair
      intro j hj
      cases j with
      | zero => exact ⟨by simpa using s4At_s4 first, by simpa using s4At_s4 second⟩
      | succ j =>
        have := ih (by simpa using rest) (by simpa using same) j (by simpa using hj)
        rw [show q + 8 * (j + 1) = q + 8 + 8 * j by omega]
        simpa using this

/-- A table of four-byte numbers within 32 bits reads back as the numbers, in order. -/
theorem s4At_table {ts : List Int} {q : Nat} (h : BytesAt code q (ts.flatMap s4))
    (range : ∀ t ∈ ts, -2 ^ 31 ≤ t ∧ t < 2 ^ 31) :
    (List.range ts.length).map (fun j => s4At code (q + 4 * j)) = ts := by
  apply List.ext_getElem (by simp)
  intro j hj hj'
  rw [List.getElem_map, List.getElem_range, s4At_flatMap h j hj',
    wrap32_of_range (range _ (List.getElem_mem _))]

/-- A table of pairs of four-byte numbers reads back as the first numbers wrapped to 32 bits
and, when they are within 32 bits, as the second numbers themselves. -/
theorem s4At_pairTable {ks ts : List Int} {q : Nat}
    (h : BytesAt code q ((ks.zip ts).flatMap fun kt => s4 kt.1 ++ s4 kt.2))
    (same : ks.length = ts.length) (range : ∀ t ∈ ts, -2 ^ 31 ≤ t ∧ t < 2 ^ 31) :
    (List.range ts.length).map (fun j => s4At code (q + 8 * j)) = ks.map wrap32 ∧
      (List.range ts.length).map (fun j => s4At code (q + 8 * j + 4)) = ts := by
  constructor
  · apply List.ext_getElem (by simp [same])
    intro j hj hj'
    simp only [List.getElem_map, List.getElem_range]
    exact (s4At_pairs h same j (by simpa using hj)).1
  · apply List.ext_getElem (by simp)
    intro j hj hj'
    simp only [List.getElem_map, List.getElem_range]
    rw [(s4At_pairs h same j (by simpa using hj)).2, wrap32_of_range (range _ (List.getElem_mem _))]

/-- The start of a switch: its opcode, the padding to a multiple of four, and the default
displacement, which reads back when it is within 32 bits. -/
theorem switch_header {b : UInt8} {v : Nat} {d : Int} {rest : List UInt8}
    (h : BytesAt code pc ([b] ++ (List.replicate (switchPad pc) 0 ++ (s4 d ++ rest))))
    (hb : b = v.toUInt8) (lt : v < 256) (dRange : -2 ^ 31 ≤ d ∧ d < 2 ^ 31) :
    byteAt code pc = v ∧ s4At code (pc + 1 + switchPad pc) = d ∧
      BytesAt code (pc + 1 + switchPad pc + 4) rest := by
  obtain ⟨op, h⟩ := BytesAt.append.mp h
  obtain ⟨-, h⟩ := BytesAt.append.mp h
  obtain ⟨dflt, rest⟩ := BytesAt.append.mp h
  simp only [List.length_cons, List.length_nil, List.length_replicate, s4_length] at dflt rest
  refine ⟨byteAt_of op hb lt, ?_, ?_⟩
  · rw [← wrap32_of_range dRange, ← s4At_s4 dflt]
  · rwa [show pc + (0 + 1) + switchPad pc + 4 = pc + 1 + switchPad pc + 4 by omega] at rest

theorem decodeAt_tableswitch {low d : Int} {ts : List Int}
    (h : BytesAt code pc ([0xaa] ++ List.replicate (switchPad pc) 0 ++ s4 d ++ s4 low ++
      s4 (low + ts.length - 1) ++ ts.flatMap s4))
    (nonempty : ts ≠ []) (short : ts.length < 2 ^ 31) (lowRange : -2 ^ 31 ≤ low)
    (highRange : low + ts.length ≤ 2 ^ 31) (dRange : -2 ^ 31 ≤ d ∧ d < 2 ^ 31)
    (tRange : ∀ t ∈ ts, -2 ^ 31 ≤ t ∧ t < 2 ^ 31) :
    decodeAt code pc = .ok ⟨pc, ((1 + switchPad pc + 12 + 4 * ts.length : Nat) : Int),
      .tableswitch, .table low (pc + d) (ts.map ((pc : Int) + ·))⟩ := by
  have fits := h.le_size (by simp)
  simp only [List.length_append, List.length_cons, List.length_nil, List.length_replicate,
    s4_length, List.length_flatMap, List.map_const', List.sum_replicate, smul_eq_mul] at fits
  simp only [List.append_assoc] at h
  obtain ⟨rd, rdD, h⟩ := switch_header h (v := 0xaa) rfl (by decide) dRange
  obtain ⟨lowBytes, h⟩ := BytesAt.append.mp h
  obtain ⟨high, targets⟩ := BytesAt.append.mp h
  simp only [s4_length] at high targets
  have len := List.length_pos_iff.mpr nonempty
  -- the bounds, and the targets after them, each within 32 bits
  have rdLow := wrap32_of_range ⟨lowRange, by omega⟩ ▸ s4At_s4 lowBytes
  have rdHigh := wrap32_of_range (v := low + ts.length - 1) ⟨by omega, by omega⟩ ▸ s4At_s4 high
  have read := s4At_table targets tRange
  rw [show pc + 1 + switchPad pc + 4 + 4 = pc + 1 + switchPad pc + 8 by omega] at rdHigh
  rw [show pc + 1 + switchPad pc + 4 + 4 + 4 = pc + 1 + switchPad pc + 12 by omega] at read
  have count : wrap32 (low + ts.length - 1 - low) + 1 = ts.length := by
    have := wrap32_of_range (v := low + ts.length - 1 - low) ⟨by omega, by omega⟩
    omega
  have ordered : ¬ (low + ts.length - 1 < low) := by omega
  have room₁ : ¬ ((pc : Int) + (↑(pc + 1 + switchPad pc) - ↑pc + 12) > code.size) := by
    push_cast
    omega
  have room₂ : ¬ ((pc : Int) + (↑(pc + 1 + switchPad pc - pc + 12) + 4 * (ts.length : Int)) >
      code.size) := by
    rw [show pc + 1 + switchPad pc - pc + 12 = 1 + switchPad pc + 12 by omega]
    push_cast
    omega
  unfold decodeAt
  have w : shortLocal? 0xaa = none ∧ Opcode.ofByte? 0xaa = some .tableswitch := by decide
  simp only [rd, w.1, w.2, rdD, rdLow, rdHigh, count, if_neg ordered, if_neg room₁, if_neg room₂,
    Int.toNat_natCast]
  have targetsRead : (List.range ts.length).map
      (fun j => (pc : Int) + s4At code (pc + 1 + switchPad pc + 12 + 4 * j)) =
        ts.map ((pc : Int) + ·) := by
    have shifted := congrArg (List.map ((pc : Int) + ·)) read
    rwa [List.map_map] at shifted
  rw [targetsRead, show pc + 1 + switchPad pc - pc + 12 = 1 + switchPad pc + 12 by omega]
  simp

theorem decodeAt_lookupswitch {d : Int} {keys ts : List Int} {write : Int × Int → List UInt8}
    (h : BytesAt code pc ([0xab] ++ List.replicate (switchPad pc) 0 ++ s4 d ++ s4 ts.length ++
      (keys.zip ts).flatMap write))
    (writes : ∀ k t, write (k, t) = s4 k ++ s4 t) (same : keys.length = ts.length)
    (short : ts.length < 2 ^ 31)
    (room : pc + 1 + switchPad pc + 12 ≤ code.size)
    (dRange : -2 ^ 31 ≤ d ∧ d < 2 ^ 31) (tRange : ∀ t ∈ ts, -2 ^ 31 ≤ t ∧ t < 2 ^ 31) :
    decodeAt code pc = .ok ⟨pc, ((1 + switchPad pc + 8 + 8 * ts.length : Nat) : Int),
      .lookupswitch, .lookup (pc + d) (keys.map wrap32) (ts.map ((pc : Int) + ·))⟩ := by
  obtain rfl : write = fun kt => s4 kt.1 ++ s4 kt.2 := funext fun kt => writes kt.1 kt.2
  have fits := h.le_size (by simp)
  simp only [List.length_append, List.length_cons, List.length_nil, List.length_replicate,
    s4_length, List.length_flatMap, List.map_const', List.sum_replicate, smul_eq_mul,
    List.length_zip, same, Nat.min_self] at fits
  simp only [List.append_assoc] at h
  obtain ⟨rd, rdD, h⟩ := switch_header h (v := 0xab) rfl (by decide) dRange
  obtain ⟨count, pairs⟩ := BytesAt.append.mp h
  simp only [s4_length] at pairs
  -- the count of pairs, then each key and target
  have rdN := wrap32_of_range (v := ts.length) ⟨by omega, by omega⟩ ▸ s4At_s4 count
  obtain ⟨readKeys, readTargets⟩ := s4At_pairTable pairs same tRange
  rw [show pc + 1 + switchPad pc + 4 + 4 = pc + 1 + switchPad pc + 8 by omega]
    at readKeys readTargets
  have nonneg : ¬ ((ts.length : Int) < 0) := by omega
  have room₁ : ¬ ((pc : Int) + (↑(pc + 1 + switchPad pc) - ↑pc + 12) > code.size) := by
    push_cast
    omega
  have room₂ : ¬ ((code.size : Int) <
      (pc : Int) + (1 + (switchPad pc : Int) + 8 + 8 * (ts.length : Int))) := by
    omega
  unfold decodeAt
  have w : shortLocal? 0xab = none ∧ Opcode.ofByte? 0xab = some .lookupswitch := by decide
  simp only [rd, w.1, w.2, rdD, rdN, if_neg nonneg, if_neg room₁, Int.toNat_natCast]
  have targetsRead : (List.range ts.length).map
      (fun j => (pc : Int) + s4At code (pc + 1 + switchPad pc + 12 + 8 * j)) =
        ts.map ((pc : Int) + ·) := by
    have offsets : (fun j => s4At code (pc + 1 + switchPad pc + 8 + 8 * j + 4)) =
        fun j => s4At code (pc + 1 + switchPad pc + 12 + 8 * j) :=
      funext fun j => congrArg (s4At code) (by omega)
    have shifted := congrArg (List.map ((pc : Int) + ·)) readTargets
    rwa [offsets, List.map_map] at shifted
  rw [readKeys, targetsRead,
    show pc + 1 + switchPad pc - pc + 8 + 8 * ts.length = 1 + switchPad pc + 8 + 8 * ts.length by
      omega]
  simp [room₂]

end Forms

/-! ## What a laid-out node reads back as -/

/-- Whether the decoder reads an instruction back as the assembler wrote it: no operand where
the opcode reads one, an immediate within the bytes it is written to, a branch opcode for a
branch, a `tableswitch` with targets whose keys stay in 32 bits, and a `lookupswitch` with a key
for each target.  The pseudo-instructions `gosub` and `dispatch` are lowered before layout. -/
def Instr.readable : Instr → Bool
  | .plain op => op.bare
  | .var op _ => op.isLocal
  | .imm op v =>
    (op == .bipush && decide (-128 ≤ v ∧ v ≤ 127)) ||
      (op == .sipush && decide (-32768 ≤ v ∧ v ≤ 32767)) ||
      (op == .newarray && decide (0 ≤ v ∧ v ≤ 255))
  | .ldc _ | .label _ | .multiArray .. => true
  | .member op _ | .typed op _ => op.indexed
  | .jump op _ => op.isBranch
  | .tableSwitch low _ targets =>
    !targets.isEmpty && decide (-2 ^ 31 ≤ low ∧ low + targets.length ≤ 2 ^ 31)
  | .lookupSwitch _ keys targets => keys.length == targets.length
  | .gosub .. | .dispatch _ => false

/-- The offset a branch to a label reads back as. -/
def labelTarget (labels : List (Label × Nat)) (l : Label) : Int := ((labels.lookup l).getD 0 : Nat)

/-- The instructions the decoder reads where a laid-out node was written: none for a label,
the negated branch and a `goto_w` for a widened conditional branch, and otherwise one, with
the node's offset, size and pool index, its branch targets at their labels' offsets, and the
keys of a `lookupswitch` and the dimensions of a `multianewarray` cut to the bytes they are
written to. -/
def Node.reads (labels : List (Label × Nat)) (n : Node) : List Decoded :=
  match n.instr with
  | .label _ | .gosub .. | .dispatch _ => []
  | .plain op => [⟨n.offset, n.size, op, .none⟩]
  | .var op slot => [⟨n.offset, n.size, op, .slot slot.toNat⟩]
  | .imm op v => [⟨n.offset, n.size, op, .imm v⟩]
  | .ldc _ => [⟨n.offset, n.size, .ldc, .pool n.cp⟩]
  | .member op _ | .typed op _ => [⟨n.offset, n.size, op, .pool n.cp⟩]
  | .multiArray _ dims =>
    [⟨n.offset, n.size, .multianewarray, .multiArray n.cp (dims % 256).toNat⟩]
  | .tableSwitch low dflt targets =>
    [⟨n.offset, n.size, .tableswitch,
      .table low (labelTarget labels dflt) (targets.map (labelTarget labels))⟩]
  | .lookupSwitch dflt keys targets =>
    [⟨n.offset, n.size, .lookupswitch,
      .lookup (labelTarget labels dflt) (keys.map wrap32) (targets.map (labelTarget labels))⟩]
  | .jump op target =>
    if n.wide && op != .goto then
      [⟨n.offset, 3, op.negate, .branch (n.offset + 8)⟩,
       ⟨n.offset + 3, 5, .gotoW, .branch (labelTarget labels target)⟩]
    else
      [⟨n.offset, n.size, if n.wide then .gotoW else op, .branch (labelTarget labels target)⟩]

/-! ## Each node at its offset -/

/-- One instruction decoded at the cursor, of positive size, tiles its own bytes. -/
theorem Tiling.single {code : Array UInt8} {pc : Nat} {s : Int} {op : Opcode} {args : Operands}
    (hd : decodeAt code pc = .ok ⟨pc, s, op, args⟩) (pos : 0 < s) :
    Tiling code [⟨pc, s, op, args⟩] pc (pc + s) :=
  .cons rfl hd pos (.nil _)

/-- A displacement written from `pc` to a label at a 16-bit offset is one the branch at `pc`
reads back as that offset. -/
theorem displacement_eq_ok {labels : List (Label × Nat)} {pc : Nat} {l : Label} {t : Int}
    (h : (do let o ← offsetOf labels l; pure ((o : Int) - (pc : Int)) : Except AsmError Int) =
      .ok t) :
    ∃ o, labels.lookup l = some o ∧ t = o - pc ∧ labelTarget labels l = o := by
  simp only [offsetOf] at h
  split at h
  · rename_i o found
    simp only [Except.ok_bind, Except.pure_eq_ok, Except.ok.injEq] at h
    exact ⟨o, found, h.symm, by simp [labelTarget, found]⟩
  · simp [bind, Except.bind] at h

/-- The displacements of a switch's targets from `pc`: one for each target, each within 32 bits
when the labels and `pc` lie within 16, and read back from `pc` as the targets' offsets. -/
theorem mapM_displacement_reads {labels : List (Label × Nat)} {pc : Nat}
    (near : ∀ l o, labels.lookup l = some o → o < 2 ^ 16) (low : pc < 2 ^ 16) :
    ∀ {ls : List Label} {ts : List Int}, ls.mapM (fun l => do
        let o ← offsetOf labels l
        pure ((o : Int) - (pc : Int))) = .ok ts →
      ts.length = ls.length ∧ ts.map ((pc : Int) + ·) = ls.map (labelTarget labels) ∧
        ∀ t ∈ ts, -2 ^ 31 ≤ t ∧ t < 2 ^ 31 := by
  intro ls ts h
  -- one displacement per target, taken apart target by target
  replace h := List.mapM_eq_ok.mp h
  induction h with
  | nil => simp
  | cons here _ ih =>
    obtain ⟨o, found, rfl, target⟩ := displacement_eq_ok here
    have := near _ _ found
    refine ⟨by simp [ih.1], by simp [ih.2.1, target], ?_⟩
    simp only [List.mem_cons, forall_eq_or_imp]
    exact ⟨by omega, ih.2.2⟩

section NodeReads

variable {labels : List (Label × Nat)} {p p₁ : Pool} {code : Array UInt8} {b : List UInt8}
  {m : Node}

theorem reads_tile_plain {op : Opcode} (hi : m.instr = .plain op)
    (h : placeNode p m m.offset = .ok (p₁, m.size, m.cp)) (written : encodeNode labels m = .ok b)
    (there : BytesAt code m.offset b) (bare : op.bare = true) :
    Tiling code (m.reads labels) m.offset (m.offset + m.size) := by
  -- placing refuses only an `ldc` without a constant, which is not bare
  have one : m.size = 1 := by
    simp only [placeNode, hi] at h
    split at h <;> simp_all [Opcode.bare]
  simp only [encodeNode, hi, Instr.opcode, pure, Except.pure, Except.ok.injEq] at written
  subst written
  simp only [Node.reads, hi, one]
  exact Tiling.single (decodeAt_bare there bare) one_pos

theorem reads_tile_var {op : Opcode} {slot : Int} (hi : m.instr = .var op slot)
    (h : placeNode p m m.offset = .ok (p₁, m.size, m.cp)) (written : encodeNode labels m = .ok b)
    (there : BytesAt code m.offset b) (isLocal : op.isLocal = true) :
    Tiling code (m.reads labels) m.offset (m.offset + m.size) := by
  simp only [placeNode, hi] at h
  simp only [encodeNode, hi, pure, Except.pure] at written
  simp only [Node.reads, hi]
  -- the three forms: the slot in the opcode, in one byte, or in two after `wide`
  split_ifs at h with range one two <;> simp only [Except.ok.injEq, Prod.mk.injEq] at h
  · rw [← h.2.1] at written ⊢
    simp only [beq_self_eq_true, if_true, Except.ok.injEq] at written
    subst written
    exact Tiling.single (decodeAt_shortLocal there isLocal (by omega)) (by decide)
  · rw [← h.2.1] at written ⊢
    simp only [Nat.reduceBEq, Bool.false_eq_true, if_true, if_false, Except.ok.injEq] at written
    subst written
    exact Tiling.single (decodeAt_local there isLocal (by omega)) (by decide)
  · rw [← h.2.1] at written ⊢
    simp only [Nat.reduceBEq, Bool.false_eq_true, if_false, Except.ok.injEq] at written
    subst written
    exact Tiling.single (decodeAt_wideLocal there isLocal (by omega)) (by decide)

theorem reads_tile_imm {op : Opcode} {v : Int} (hi : m.instr = .imm op v)
    (h : placeNode p m m.offset = .ok (p₁, m.size, m.cp)) (written : encodeNode labels m = .ok b)
    (there : BytesAt code m.offset b) (readable : m.instr.readable = true) :
    Tiling code (m.reads labels) m.offset (m.offset + m.size) := by
  simp only [Instr.readable, hi, Bool.or_eq_true, Bool.and_eq_true, beq_iff_eq,
    decide_eq_true_eq] at readable
  simp only [Node.reads, hi]
  -- `bipush` and `newarray` take one byte, `sipush` two
  rcases readable with (⟨rfl, range⟩ | ⟨rfl, range⟩) | ⟨rfl, range⟩
  all_goals
    simp only [placeNode, hi, Except.ok.injEq, Prod.mk.injEq] at h
    simp only [encodeNode, hi, pure, Except.pure, Except.ok.injEq] at written
    subst written
    rw [← h.2.1]
  · exact Tiling.single (decodeAt_bipush there (by omega)) (by decide)
  · exact Tiling.single (decodeAt_sipush there (by omega)) (by decide)
  · exact Tiling.single (decodeAt_newarray there (by omega)) (by decide)

theorem reads_tile_ldc {v : Literal} (hi : m.instr = .ldc v)
    (h : placeNode p m m.offset = .ok (p₁, m.size, m.cp)) (written : encodeNode labels m = .ok b)
    (there : BytesAt code m.offset b) :
    Tiling code (m.reads labels) m.offset (m.offset + m.size) := by
  have index := placeNode_index_lt h
  simp only [placeNode, hi, Except.ok.injEq, Prod.mk.injEq] at h
  simp only [encodeNode, hi, pure, Except.pure, Except.ok.injEq] at written
  subst written
  simp only [Node.reads, hi]
  obtain ⟨-, size, cp⟩ := h
  -- `ldc` with a one-byte index, `ldc_w` with a two-byte one
  by_cases wideIndex : m.cp > 255
  · rw [cp] at size
    simp only [wideIndex, if_true] at size
    simp only [← size, Nat.reduceBEq, Bool.false_eq_true, if_false] at there ⊢
    exact Tiling.single (decodeAt_ldcW there index) (by decide)
  · rw [cp] at size
    simp only [wideIndex, if_false] at size
    simp only [← size, beq_self_eq_true, if_true] at there ⊢
    exact Tiling.single (decodeAt_ldc there (by omega)) (by decide)

theorem reads_tile_indexed {op : Opcode}
    (hi : (∃ ref, m.instr = .member op ref) ∨ ∃ cls, m.instr = .typed op cls)
    (h : placeNode p m m.offset = .ok (p₁, m.size, m.cp)) (written : encodeNode labels m = .ok b)
    (there : BytesAt code m.offset b) (indexed : op.indexed = true) :
    Tiling code (m.reads labels) m.offset (m.offset + m.size) := by
  have index := placeNode_index_lt h
  rcases hi with ⟨_, hi⟩ | ⟨_, hi⟩
  all_goals
    simp only [placeNode, hi, Except.ok.injEq, Prod.mk.injEq] at h
    simp only [encodeNode, hi, pure, Except.pure, Except.ok.injEq] at written
    subst written
    simp only [Node.reads, hi, ← h.2.1]
    exact Tiling.single (decodeAt_indexed there indexed index) (by decide)

theorem reads_tile_multiArray {cls : String} {dims : Int} (hi : m.instr = .multiArray cls dims)
    (h : placeNode p m m.offset = .ok (p₁, m.size, m.cp)) (written : encodeNode labels m = .ok b)
    (there : BytesAt code m.offset b) :
    Tiling code (m.reads labels) m.offset (m.offset + m.size) := by
  have index := placeNode_index_lt h
  simp only [placeNode, hi, Except.ok.injEq, Prod.mk.injEq] at h
  simp only [encodeNode, hi, pure, Except.pure, Except.ok.injEq] at written
  subst written
  simp only [Node.reads, hi, ← h.2.1]
  exact Tiling.single (decodeAt_multianewarray there index) (by decide)

theorem reads_tile_jump {op : Opcode} {target : Label} {o : Nat} (hi : m.instr = .jump op target)
    (h : placeNode p m m.offset = .ok (p₁, m.size, m.cp)) (written : encodeNode labels m = .ok b)
    (there : BytesAt code m.offset b) (branch : op.isBranch = true)
    (found : labels.lookup target = some o) (near : o < 2 ^ 16) (low : m.offset < 2 ^ 16) :
    Tiling code (m.reads labels) m.offset (m.offset + m.size) := by
  have reads : labelTarget labels target = o := by simp [labelTarget, found]
  simp only [placeNode, hi] at h
  simp only [encodeNode, hi, offsetOf_eq_ok found, Except.ok_bind, Except.pure_eq_ok] at written
  simp only [Node.reads, hi, reads]
  cases wide : m.wide
  · -- a branch with a 16-bit displacement, which placing left narrow
    simp only [wide, Bool.false_eq_true, if_false, Bool.false_and, Except.ok.injEq,
      Prod.mk.injEq] at h written ⊢
    rw [← h.2.1]
    cases fits : fitsShort ((o : Int) - m.offset)
    · simp [fits, throw, throwThe, MonadExceptOf.throw, bind, Except.bind] at written
    · simp only [fits, Bool.not_true, Bool.false_eq_true, if_false, Except.ok.injEq] at written
      subst written
      have range : -32768 ≤ (o : Int) - m.offset ∧ (o : Int) - m.offset < 32768 := by
        simp only [fitsShort, Bool.and_eq_true, decide_eq_true_eq] at fits
        omega
      have d := decodeAt_branch there branch range
      rw [show (m.offset : Int) + (o - m.offset) = o by omega] at d
      exact Tiling.single d (by decide)
  · simp only [wide, if_true, Bool.true_and, Except.ok.injEq, Prod.mk.injEq] at h written ⊢
    rw [← h.2.1]
    by_cases goto : op = .goto
    · -- a `goto_w` alone
      subst goto
      simp only [beq_self_eq_true, if_true, bne_self_eq_false, Bool.false_eq_true, if_false,
        Except.ok.injEq] at written ⊢
      subst written
      have d := decodeAt_gotoW there (r := (o : Int) - m.offset) (by omega)
      rw [show (m.offset : Int) + (o - m.offset) = o by omega] at d
      exact Tiling.single d (by decide)
    · -- the negated branch over a `goto_w`
      have other : (op == .goto) = false := beq_eq_false_iff_ne.mpr goto
      simp only [other, Bool.false_eq_true, if_false, bne_iff_ne, ne_eq, goto, not_false_eq_true,
        if_true, Except.ok.injEq] at written ⊢
      subst written
      exact negatedBranch_tiles there branch goto near low

theorem reads_tile_tableSwitch {low : Int} {dflt : Label} {targets : List Label}
    (hi : m.instr = .tableSwitch low dflt targets)
    (h : placeNode p m m.offset = .ok (p₁, m.size, m.cp)) (written : encodeNode labels m = .ok b)
    (there : BytesAt code m.offset b) (readable : m.instr.readable = true)
    (placed : ∀ l ∈ m.instr.labels, ∃ o, labels.lookup l = some o)
    (near : ∀ l o, labels.lookup l = some o → o < 2 ^ 16) (small : m.offset + m.size < 2 ^ 16) :
    Tiling code (m.reads labels) m.offset (m.offset + m.size) := by
  simp only [Instr.readable, hi, Bool.and_eq_true, Bool.not_eq_eq_eq_not, Bool.not_true,
    List.isEmpty_eq_false_iff, decide_eq_true_eq] at readable
  obtain ⟨d, hd⟩ := placed dflt (by simp [hi, Instr.labels])
  have dNear := near _ _ hd
  have dReads : labelTarget labels dflt = d := by simp [labelTarget, hd]
  simp only [placeNode, hi, Except.ok.injEq, Prod.mk.injEq] at h
  simp only [encodeNode, hi, offsetOf_eq_ok hd, Except.ok_bind, Except.bind_eq_ok,
    Except.pure_eq_ok, Except.ok.injEq] at written
  obtain ⟨ts, hts, rfl⟩ := written
  obtain ⟨length, reads, range⟩ := mapM_displacement_reads near (by omega) hts
  simp only [Node.reads, hi, dReads, ← reads, ← h.2.1]
  rw [← length] at there
  have decoded := decodeAt_tableswitch there
    (by simpa [← List.length_pos_iff, length] using readable.1)
    (by omega) readable.2.1 (by omega) (by omega) range
  rw [show (m.offset : Int) + (d - m.offset) = d by omega, length] at decoded
  exact Tiling.single decoded (by omega)

theorem reads_tile_lookupSwitch {dflt : Label} {keys : List Int} {targets : List Label}
    (hi : m.instr = .lookupSwitch dflt keys targets)
    (h : placeNode p m m.offset = .ok (p₁, m.size, m.cp)) (written : encodeNode labels m = .ok b)
    (there : BytesAt code m.offset b) (readable : m.instr.readable = true)
    (placed : ∀ l ∈ m.instr.labels, ∃ o, labels.lookup l = some o)
    (near : ∀ l o, labels.lookup l = some o → o < 2 ^ 16) (small : m.offset + m.size < 2 ^ 16)
    (room : m.offset + 1 + switchPad m.offset + 12 ≤ code.size) :
    Tiling code (m.reads labels) m.offset (m.offset + m.size) := by
  simp only [Instr.readable, hi, beq_iff_eq] at readable
  obtain ⟨d, hd⟩ := placed dflt (by simp [hi, Instr.labels])
  have dNear := near _ _ hd
  have dReads : labelTarget labels dflt = d := by simp [labelTarget, hd]
  simp only [placeNode, hi, Except.ok.injEq, Prod.mk.injEq] at h
  simp only [encodeNode, hi, offsetOf_eq_ok hd, Except.ok_bind, Except.bind_eq_ok,
    Except.pure_eq_ok, Except.ok.injEq] at written
  obtain ⟨ts, hts, rfl⟩ := written
  obtain ⟨length, reads, range⟩ := mapM_displacement_reads near (by omega) hts
  simp only [Node.reads, hi, dReads, ← reads, ← h.2.1]
  rw [← length] at there
  have decoded := decodeAt_lookupswitch there (fun _ _ => rfl) (by omega) (by omega) room (by omega)
    range
  rw [show (m.offset : Int) + (d - m.offset) = d by omega, length] at decoded
  exact Tiling.single decoded (by omega)

/-- A laid-out node the decoder can read, written where it was placed, reads back as
`Node.reads`: the instructions it stands for, tiling exactly its bytes. -/
theorem Node.reads_tile (h : placeNode p m m.offset = .ok (p₁, m.size, m.cp))
    (written : encodeNode labels m = .ok b) (there : BytesAt code m.offset b)
    (readable : m.instr.readable = true)
    (placed : ∀ l ∈ m.instr.labels, ∃ o, labels.lookup l = some o)
    (near : ∀ l o, labels.lookup l = some o → o < 2 ^ 16) (small : m.offset + m.size < 2 ^ 16)
    (room : ∀ dflt ks ts, m.instr = .lookupSwitch dflt ks ts →
      m.offset + 1 + switchPad m.offset + 12 ≤ code.size) :
    Tiling code (m.reads labels) m.offset (m.offset + m.size) := by
  cases hi : m.instr with
  | label l =>
    -- a label takes no bytes and reads as nothing
    simp only [placeNode, hi, Except.ok.injEq, Prod.mk.injEq] at h
    simp only [Node.reads, hi, ← h.2.1]
    simpa using (Tiling.nil _ : Tiling code [] m.offset m.offset)
  | plain op =>
    exact reads_tile_plain hi h written there (by simpa [Instr.readable, hi] using readable)
  | var op slot =>
    exact reads_tile_var hi h written there (by simpa [Instr.readable, hi] using readable)
  | imm op v => exact reads_tile_imm hi h written there readable
  | ldc v => exact reads_tile_ldc hi h written there
  | member op ref =>
    exact reads_tile_indexed (.inl ⟨ref, hi⟩) h written there
      (by simpa [Instr.readable, hi] using readable)
  | typed op cls =>
    exact reads_tile_indexed (.inr ⟨cls, hi⟩) h written there
      (by simpa [Instr.readable, hi] using readable)
  | multiArray cls dims => exact reads_tile_multiArray hi h written there
  | jump op target =>
    obtain ⟨o, found⟩ := placed target (by simp [hi, Instr.labels])
    exact reads_tile_jump hi h written there (by simpa [Instr.readable, hi] using readable) found
      (near _ _ found) (by omega)
  | tableSwitch low dflt targets =>
    exact reads_tile_tableSwitch hi h written there readable placed near small
  | lookupSwitch dflt keys targets =>
    exact reads_tile_lookupSwitch hi h written there readable placed near small
      (room _ _ _ hi)
  | gosub key target ret => simp [Instr.readable, hi] at readable
  | dispatch dflt => simp [Instr.readable, hi] at readable

end NodeReads

/-! ## A whole body -/

theorem Tiling.append {code : Array UInt8} {ds es : List Decoded} {pc mid stop : Int}
    (first : Tiling code ds pc mid) (second : Tiling code es mid stop) :
    Tiling code (ds ++ es) pc stop := by
  induction first with
  | nil => exact second
  | cons hoff hd hpos _ ih => exact .cons hoff hd hpos (ih second)

/-- The walk of the decoder over a body that instructions tile from a cursor on reads exactly
those instructions. -/
theorem Tiling.decodeFrom_eq {code : Array UInt8} {ds : List Decoded} {pc : Int}
    (h : Tiling code ds pc code.size) :
    ∀ {acc : List Decoded} {fuel : Nat}, 0 ≤ pc → code.size ≤ pc + fuel →
      decodeFrom code acc pc fuel = .ok (acc.reverse ++ ds) := by
  generalize stop : (code.size : Int) = e at h
  induction h with
  | nil pc =>
    intro acc fuel _ _
    unfold decodeFrom
    simp [← stop]
  | @cons d ds pc e hoff hd hpos rest ih =>
    intro acc fuel nonneg enough
    have ends := rest.le
    -- the cursor is inside the body, and the instruction there takes fuel and moves it on
    obtain ⟨fuel, rfl⟩ : ∃ f, fuel = f + 1 := ⟨fuel - 1, by omega⟩
    have atCursor : pc.toNat = d.offset := by omega
    unfold decodeFrom
    rw [if_neg (by omega), if_neg (by omega)]
    simp only [atCursor, hd]
    rw [ih stop (by omega) (by omega)]
    simp

/-- A body that instructions tile from offset zero decodes to them. -/
theorem decode_of_tiling {code : List UInt8} {ds : List Decoded}
    (h : Tiling code.toArray ds 0 code.length) : decode code = .ok ds := by
  unfold decode
  rw [Tiling.decodeFrom_eq (by simpa using h) le_rfl (by simp)]
  rfl

theorem Placed.le {p p' : Pool} {pc stop : Nat} {ns placed : List Node}
    (h : Placed p pc ns p' placed stop) : pc ≤ stop := by
  induction h with
  | nil => exact le_rfl
  | cons _ _ ih => omega

/-- Nodes placed one after another from `pc` and written where they were placed read back,
node after node, as their `Node.reads`, when the decoder can read each and their labels lie
within 16 bits. -/
theorem Placed.reads_tile {p p' : Pool} {pc stop : Nat} {ns placed : List Node}
    (laid : Placed p pc ns p' placed stop) {labels : List (Label × Nat)}
    {parts : List (List UInt8)}
    (written : List.Forall₂ (fun n b => encodeNode labels n = .ok b ∧ b.length = n.size)
      placed parts)
    {code : Array UInt8} (there : BytesAt code pc parts.flatten)
    (readable : ∀ m ∈ placed, m.instr.readable = true)
    (targets : ∀ m ∈ placed, ∀ l ∈ m.instr.labels, ∃ o, labels.lookup l = some o)
    (near : ∀ l o, labels.lookup l = some o → o < 2 ^ 16) (small : stop < 2 ^ 16)
    (room : ∀ m ∈ placed, ∀ dflt ks ts, m.instr = .lookupSwitch dflt ks ts →
      m.offset + 1 + switchPad m.offset + 12 ≤ code.size) :
    Tiling code (placed.flatMap (Node.reads labels)) pc stop := by
  induction laid generalizing parts with
  | nil => exact .nil _
  | @cons p p₁ p' pc size cp stop n ns placed here rest ih =>
    obtain ⟨b, parts, ⟨hb, length⟩, writtenRest, rfl⟩ :=
      List.forall₂_cons_left_iff.mp written
    obtain ⟨first, later⟩ := BytesAt.append.mp (by simpa using there)
    have fits := rest.le
    rw [List.flatMap_cons]
    refine Tiling.append (Node.reads_tile here hb first (readable _ List.mem_cons_self)
      (targets _ List.mem_cons_self) near (by simp; omega) (room _ List.mem_cons_self)) ?_
    push_cast
    exact ih writtenRest (by simpa [length] using later)
      (fun m hm => readable m (List.mem_cons_of_mem _ hm))
      (fun m hm => targets m (List.mem_cons_of_mem _ hm)) small
      (fun m hm => room m (List.mem_cons_of_mem _ hm))

theorem Placed.offset_le {p p' : Pool} {pc stop : Nat} {ns placed : List Node}
    (h : Placed p pc ns p' placed stop) : ∀ m ∈ placed, m.offset ≤ stop := by
  induction h with
  | nil => simp
  | cons _ rest ih =>
    have := rest.le
    intro m hm
    rcases List.mem_cons.mp hm with rfl | later
    · exact Nat.le_trans (Nat.le_add_right _ _) this
    · exact ih m later

/-- A label's offset is the offset of a label node that places it. -/
theorem lookup_labelOffsets_placed {nodes : Array Node} {l : Label} {o : Nat}
    (found : (labelOffsets nodes).lookup l = some o) :
    ∃ m ∈ nodes.toList, m.instr = .label l ∧ m.offset = o := by
  unfold labelOffsets at found
  generalize nodes.toList = ns at found ⊢
  induction ns with
  | nil => simp at found
  | cons n ns ih =>
    rw [List.filterMap_cons] at found
    -- a label node either places `l` here or is passed over, like any other node
    cases hi : n.instr
    case label l' =>
      simp only [hi, List.lookup] at found
      by_cases same : l = l'
      · subst same
        simp only [beq_self_eq_true, Option.some.injEq] at found
        exact ⟨n, List.mem_cons_self, hi, found⟩
      · simp only [beq_eq_false_iff_ne.mpr same] at found
        obtain ⟨m, hm, isLabel, offset⟩ := ih found
        exact ⟨m, List.mem_cons_of_mem _ hm, isLabel, offset⟩
    all_goals
      simp only [hi] at found
      obtain ⟨m, hm, isLabel, offset⟩ := ih found
      exact ⟨m, List.mem_cons_of_mem _ hm, isLabel, offset⟩

/-! ## Lowered code -/

/-- Whether an instruction lowers to nodes the decoder reads back: a readable one, and the
`gosub` and `dispatch` pseudo-instructions, which lower to a push and a `goto` and to a
`lookupswitch` over as many keys as targets. -/
def Instr.readsBack : Instr → Bool
  | .gosub .. | .dispatch _ => true
  | i => i.readable

theorem pushInt_readable (v : Int) : (pushInt v).readable = true := by
  unfold pushInt
  split_ifs with small byte short
  · -- one of the seven constant opcodes
    obtain ⟨k, hk, index⟩ : ∃ k, k < 7 ∧ (v + 1).toNat = k := ⟨_, by omega, rfl⟩
    rw [index]
    interval_cases k <;> rfl
  · simp [Instr.readable, byte]
  · simp [Instr.readable, short]
  · rfl

/-- Lowering code whose every instruction reads back gives nodes the decoder reads back. -/
theorem lower_readable {code : List Instr} {sim : Simulation}
    (readsBack : ∀ i ∈ code, i.readsBack = true) :
    ∀ x ∈ lower code sim, x.instr.readable = true := by
  intro x hx
  obtain ⟨⟨instr, k⟩, hk, hxk⟩ := List.mem_flatMap.mp hx
  have inCode : instr ∈ code := List.mem_of_getElem? (List.mem_zipIdx_iff_getElem?.mp hk)
  have back := readsBack instr inCode
  change x ∈ lowerAt code sim instr k at hxk
  unfold lowerAt at hxk
  split at hxk
  · simp at hxk
  cases instr
  case gosub key target ret =>
    -- the push of the key and the `goto`
    simp only [List.mem_cons, List.not_mem_nil, or_false] at hxk
    rcases hxk with rfl | rfl
    · exact pushInt_readable key
    · simp [Node.ofInstr, Instr.readable, Opcode.isBranch, Opcode.code]
  case dispatch dflt =>
    -- a `lookupswitch` with a key and a target for each site
    simp only [List.mem_cons, List.not_mem_nil, or_false] at hxk
    subst hxk
    simp [Node.ofInstr, Instr.readable]
  case jump op target =>
    -- the branch itself, with the frame after it or none
    simp only at hxk
    split_ifs at hxk <;>
    · simp only [List.mem_cons, List.not_mem_nil, or_false] at hxk
      subst hxk
      exact back
  all_goals
    simp only [List.mem_cons, List.not_mem_nil, or_false] at hxk
    subst hxk
    exact back

theorem BytesAt.whole (bytes : List UInt8) : BytesAt bytes.toArray 0 bytes := by
  intro k hk
  simp [hk]

/-- Nodes placed from `pc` to `stop` and each written to its size take `stop - pc` bytes. -/
theorem Placed.length_flatten {p p' : Pool} {pc stop : Nat} {ns placed : List Node}
    (laid : Placed p pc ns p' placed stop) {labels : List (Label × Nat)}
    {parts : List (List UInt8)}
    (written : List.Forall₂ (fun n b => encodeNode labels n = .ok b ∧ b.length = n.size)
      placed parts) : pc + parts.flatten.length = stop := by
  induction laid generalizing parts with
  | nil => cases written; rfl
  | cons _ _ ih =>
    obtain ⟨b, parts, ⟨-, length⟩, writtenRest, rfl⟩ :=
      List.forall₂_cons_left_iff.mp written
    have := ih writtenRest
    simp only [List.flatten_cons, List.length_append, length] at this ⊢
    omega

/-- The body of an assembly reads back as the instructions its laid-out nodes stand for, one
node after another, when every instruction of the code reads back and every `lookupswitch`
has the twelve bytes of its header before the end of the body. -/
theorem AssemblyRun.decode_code {pool : Pool} {owner : String} {code : List Instr}
    {a : Assembled} (r : AssemblyRun pool owner code a)
    (readsBack : ∀ i ∈ code, i.readsBack = true)
    (spacious : ∀ m ∈ r.placed.toList, ∀ dflt ks ts, m.instr = .lookupSwitch dflt ks ts →
      m.offset + 1 + switchPad m.offset + 12 ≤ r.length) :
    decode a.code.code = .ok (r.placed.toList.flatMap (Node.reads (labelOffsets r.placed))) := by
  have S := simulate_simulated r.simulated
  obtain ⟨parts, written, body⟩ := encode_parts r.encoded
  have length : a.code.code.length = r.length := by
    rw [body, ← r.laid.length_flatten written, Nat.zero_add]
  -- the laid-out nodes are the lowered ones, which read back and branch to placed labels
  have instrs : r.placed.toList.map Node.instr = (lower code r.sim).map Node.instr := by
    have same := congrArg (List.map Prod.fst) r.laid.shapes
    simp only [List.map_map, Node.shape, Function.comp_def] at same
    rw [same, ← r.lowered]
  have lowered : ∀ m ∈ r.placed.toList, ∃ x ∈ lower code r.sim, x.instr = m.instr :=
    fun m hm => List.mem_map.mp (instrs ▸ List.mem_map_of_mem hm)
  have readable : ∀ m ∈ r.placed.toList, m.instr.readable = true := by
    intro m hm
    obtain ⟨x, hx, same⟩ := lowered m hm
    exact same ▸ lower_readable readsBack x hx
  have targets := lowered_targets_placed S instrs
  have near : ∀ l o, (labelOffsets r.placed).lookup l = some o → o < 2 ^ 16 := by
    intro l o found
    obtain ⟨m, hm, -, rfl⟩ := lookup_labelOffsets_placed found
    have := r.laid.offset_le m hm
    have := r.short
    omega
  apply decode_of_tiling
  rw [length]
  exact r.laid.reads_tile written (by rw [← body]; exact BytesAt.whole _) readable targets near
    (by have := r.short; omega) (fun m hm dflt ks ts isSwitch => by
      have := spacious m hm dflt ks ts isSwitch
      simp only [List.size_toArray]
      omega)

end BasicJvm.Bytecode
