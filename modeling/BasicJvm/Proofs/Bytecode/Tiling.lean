import Mathlib
import BasicJvm.Bytecode.Decode
import BasicJvm.Proofs.Except

/-!
# How far a decoding walk gets

`decode` reads an instruction at the cursor, moves the cursor by the instruction's size and
stops once the cursor is at or past the end of the body.  Every instruction `decodeAt` reads
starts at the cursor and ends inside the body, and takes at least one byte, with one exception:
a `tableswitch` takes `4 * (wrap32 (high - low) + 1)` bytes of targets, and when `high - low`
is `2 ^ 31` or more the count wraps to zero or less (`decodeAt_eq_ok`).

`Tiling` is the trace of a walk that met no such instruction.  `decode_tiles_unless_wrapped`
says that a walk ends in a tiling of the whole body or in an error reported where the tiling
stopped, unless it reached a wrapped `tableswitch`; `decode_wrappedSwitch_outOfRange` is such a
walk, whose cursor lands before the body.
-/

namespace BasicJvm.Bytecode

/-- A 32-bit difference that fits is itself. -/
theorem wrap32_of_lt {v : Int} (h0 : 0 ≤ v) (h1 : v < 2 ^ 31) : wrap32 v = v := by
  unfold wrap32
  rw [Int.emod_eq_of_lt h0 (by omega)]
  exact if_pos h1

/-- The range `high - low` of a `tableswitch` at `pc`, read from its operands. -/
def switchRange (code : Array UInt8) (pc : Nat) : Int :=
  s4At code (pc + 1 + switchPad pc + 8) - s4At code (pc + 1 + switchPad pc + 4)

/-- The bounds check `decodeAt` makes before reading `n` bytes at `pc`: once it passed, the
bytes are inside the body. -/
theorem need_bind_eq_ok {code : Array UInt8} {pc : Nat} {n : Int} {d : Decoded}
    {k : Unit → Except DecodeProblem Decoded}
    (h : ((if (pc : Int) + n > code.size then .error .truncated else .ok ()) >>= k) = .ok d) :
    (pc : Int) + n ≤ code.size ∧ k () = .ok d := by
  by_cases fits : (pc : Int) + n > code.size
  · simp [fits] at h
  · simp only [fits, if_false] at h
    exact ⟨by omega, h⟩

/-- A check `decodeAt` makes of the operands it read: once it passed, reading goes on. -/
theorem guard_eq_ok {c : Prop} [Decidable c] {α : Type} {e : DecodeProblem}
    {k : α → Except DecodeProblem Decoded} {r : Except DecodeProblem Decoded} {d : Decoded}
    (h : (if c then throw e >>= k else r) = .ok d) : ¬ c ∧ r = .ok d := by
  by_cases holds : c
  · simp [holds] at h
  · simp only [holds, if_false] at h
    exact ⟨holds, h⟩

/-- What `decodeAt_eq_ok` says of an instruction: it starts at `pc`, ends inside the body, and
takes at least one byte unless it is a `tableswitch` whose range does not fit in 31 bits. -/
def ReadAt (code : Array UInt8) (pc : Nat) (d : Decoded) : Prop :=
  d.offset = pc ∧ (pc : Int) + d.size ≤ code.size ∧
    (0 < d.size ∨ d.op = .tableswitch ∧ 2 ^ 31 ≤ switchRange code pc)

/-- An instruction of positive size whose bytes were checked. -/
theorem readAt_of_pure {code : Array UInt8} {pc : Nat} {n : Int} {op : Opcode} {args : Operands}
    {d : Decoded} (h : (pure ⟨pc, n, op, args⟩ : Except DecodeProblem Decoded) = .ok d)
    (fits : (pc : Int) + n ≤ code.size) (pos : 0 < n) : ReadAt code pc d := by
  obtain rfl := (Except.ok.inj h).symm
  exact ⟨rfl, fits, .inl pos⟩

/-- Every instruction `decodeAt` reads inside the body is `ReadAt` its offset. -/
theorem decodeAt_eq_ok {code : Array UInt8} {pc : Nat} {d : Decoded} (hpc : pc < code.size)
    (h : decodeAt code pc = .ok d) : ReadAt code pc d := by
  unfold decodeAt at h
  simp only at h
  split at h
  · exact readAt_of_pure h (by omega) (by decide)
  split at h
  · cases h
  split at h
  -- every form of fixed size checks for its bytes and takes them
  all_goals first
    | (obtain ⟨fits, h⟩ := need_bind_eq_ok h
       exact readAt_of_pure h fits (by decide))
    | skip
  · -- `wide` checks the opcode it widens after the bounds
    obtain ⟨fits, h⟩ := need_bind_eq_ok h
    split at h
    · split_ifs at h
      exact readAt_of_pure h fits (by decide)
    · cases h
  · -- a `tableswitch` takes at least its header unless its range wraps
    obtain ⟨-, h⟩ := need_bind_eq_ok h
    obtain ⟨ordered, h⟩ := guard_eq_ok h
    obtain ⟨fits, h⟩ := need_bind_eq_ok h
    obtain rfl := (Except.ok.inj h).symm
    refine ⟨rfl, fits, ?_⟩
    by_cases small : switchRange code pc < 2 ^ 31
    · left
      unfold switchRange at small
      rw [wrap32_of_lt (by omega) small]
      simp only
      omega
    · exact .inr ⟨rfl, by omega⟩
  · -- a `lookupswitch` takes its header and its pairs
    obtain ⟨-, h⟩ := need_bind_eq_ok h
    obtain ⟨-, h⟩ := guard_eq_ok h
    obtain ⟨fits, h⟩ := need_bind_eq_ok h
    exact readAt_of_pure h fits (by omega)
  · -- the other forms: a branch checks for its offset, the rest take one byte
    split at h
    · obtain ⟨fits, h⟩ := need_bind_eq_ok h
      exact readAt_of_pure h fits (by decide)
    · exact readAt_of_pure h (by omega) (by decide)

/-- `ds` are the instructions `decodeAt` reads end to end from `pc` to `stop`: each starts
where the one before it ended and takes at least one byte. -/
inductive Tiling (code : Array UInt8) : List Decoded → Int → Int → Prop
  | nil (pc : Int) : Tiling code [] pc pc
  | cons {d : Decoded} {ds : List Decoded} {pc stop : Int} :
      (d.offset : Int) = pc → decodeAt code d.offset = .ok d → 0 < d.size →
      Tiling code ds (pc + d.size) stop → Tiling code (d :: ds) pc stop

namespace Tiling

variable {code : Array UInt8}

theorem le {ds : List Decoded} {pc stop : Int} (h : Tiling code ds pc stop) : pc ≤ stop := by
  induction h with
  | nil => exact le_rfl
  | cons _ _ hpos _ ih => omega

/-- A tiling grows by the instruction read where it stops. -/
theorem snoc {ds : List Decoded} {pc stop : Int} {d : Decoded} (h : Tiling code ds pc stop)
    (hoff : (d.offset : Int) = stop) (hd : decodeAt code d.offset = .ok d) (hpos : 0 < d.size) :
    Tiling code (ds ++ [d]) pc (stop + d.size) := by
  induction h with
  | nil pc => exact .cons hoff hd hpos (.nil _)
  | cons hoff' hd' hpos' _ ih => exact .cons hoff' hd' hpos' (ih hoff)

/-- Every instruction of a tiling lies between its ends. -/
theorem within {ds : List Decoded} {pc stop : Int} (h : Tiling code ds pc stop) {d : Decoded}
    (hd : d ∈ ds) : pc ≤ d.offset ∧ d.offset + d.size ≤ stop := by
  induction h with
  | nil => simp at hd
  | cons hoff _ hpos rest ih =>
    rcases List.mem_cons.mp hd with rfl | hd
    · exact ⟨hoff.ge, hoff ▸ rest.le⟩
    · have := ih hd
      omega

end Tiling

/-- What a walk over `code` ends in, given the instructions it read: the whole body tiled, an
error reported where the tiling stopped, or a `tableswitch` of no positive size, whose range
wraps, reached by a tiling. -/
def WalkEnds (code : Array UInt8) (r : Except DecodeFailure (List Decoded)) : Prop :=
  (∃ ds, r = .ok ds ∧ Tiling code ds 0 code.size) ∨
  (∃ e ds, r = .error (.reported e) ∧ Tiling code ds 0 e.offset ∧
    decodeAt code e.offset = .error e.problem) ∨
  (∃ ds d, Tiling code ds 0 d.offset ∧ decodeAt code d.offset = .ok d ∧ d.size ≤ 0 ∧
    d.op = .tableswitch ∧ 2 ^ 31 ≤ switchRange code d.offset)

/-- The walk from a cursor that a tiling of `acc` reached, with fuel for one instruction per
byte left, ends as `WalkEnds` says. -/
theorem decodeFrom_walkEnds {code : Array UInt8} {acc : List Decoded} {pc : Int} {fuel : Nat}
    (hacc : Tiling code acc.reverse 0 pc) (hend : pc ≤ code.size)
    (hfuel : code.size ≤ pc + fuel) : WalkEnds code (decodeFrom code acc pc fuel) := by
  fun_induction decodeFrom code acc pc fuel with
  | case1 _ acc pc done =>
    -- the cursor is exactly at the end
    obtain rfl : pc = code.size := le_antisymm hend done
    exact .inl ⟨acc.reverse, rfl, hacc⟩
  | case2 _ acc pc _ neg => exact absurd hacc.le (by omega)
  | case3 acc pc inside _ => omega
  | case4 acc pc _ _ fuel p hp =>
    have hpc : (pc.toNat : Int) = pc := Int.toNat_of_nonneg hacc.le
    exact .inr (.inl ⟨⟨pc.toNat, p⟩, acc.reverse, rfl, hpc ▸ hacc, hp⟩)
  | case5 acc pc inside _ fuel d hd ih =>
    have hpc : (pc.toNat : Int) = pc := Int.toNat_of_nonneg hacc.le
    obtain ⟨hoff, hin, hpos⟩ := decodeAt_eq_ok (by omega) hd
    by_cases pos : 0 < d.size
    · -- a positive size moves the cursor on, inside the body, using one unit of fuel
      refine ih ?_ (by omega) (by omega)
      rw [List.reverse_cons]
      exact hacc.snoc (by omega) (hoff ▸ hd) pos
    · -- a size that is not positive only comes from a wrapped `tableswitch`
      obtain ⟨op, range⟩ := hpos.resolve_left pos
      refine .inr (.inr ⟨acc.reverse, d, ?_, hoff ▸ hd, by omega, op, hoff ▸ range⟩)
      rw [hoff, hpc]
      exact hacc

/-- Decoding a body either tiles it with the instructions `decodeAt` reads from offset zero, or
reports an error at an offset where the tiling so far stopped, unless the walk reaches a
`tableswitch` whose range `high - low` is `2 ^ 31` or more and whose size is not positive. -/
theorem decode_tiles_unless_wrapped (code : List UInt8) :
    (∃ ds, decode code = .ok ds ∧ Tiling code.toArray ds 0 code.length) ∨
    (∃ e ds, decode code = .error (.reported e) ∧ Tiling code.toArray ds 0 e.offset ∧
      decodeAt code.toArray e.offset = .error e.problem) ∨
    (∃ ds d, Tiling code.toArray ds 0 d.offset ∧ decodeAt code.toArray d.offset = .ok d ∧
      d.size ≤ 0 ∧ d.op = .tableswitch ∧ 2 ^ 31 ≤ switchRange code.toArray d.offset) :=
  decodeFrom_walkEnds (.nil 0) (by simp) (by simp)

/-- A `tableswitch` at offset 0 with `low = -2 ^ 31` and `high = 0`: the range `2 ^ 31` wraps to
`-2 ^ 31`, the size is `16 + 4 * (1 - 2 ^ 31)` and the cursor lands before the body. -/
theorem decode_wrappedSwitch_outOfRange :
    decode [0xaa, 0, 0, 0, 0, 0, 0, 0, 0x80, 0, 0, 0, 0, 0, 0, 0] =
      .error (.outOfRange (-8589934572)) := by
  decide +kernel

end BasicJvm.Bytecode
