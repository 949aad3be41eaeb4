import BasicJvm.Proofs.Bytecode.Landing
import BasicJvm.Proofs.ClassFile.Interning

/-!
# The StackMapTable of an assembled body

A verifier reads a StackMapTable as a count and a chain of frames.  Each frame here is a
`full_frame`: the tag 255, the offset delta, and the locals and the operand stack (from the
bottom up) as verification types, an object naming its class through a Class entry of the
pool.  The first frame's delta is its offset; every later frame is one past the previous
offset plus its delta.  `FramesWritten` says which bytes stand for a list of frames, `MapFrame`
being a frame as the verifier reads it.

`assemble_stackMapTable` is what the table of an assembled body says, as long as the constant
pool keeps within its 16-bit count (past it, indexes wrap and the table's own name is lost,
`stackMapTable_name_wraps`):

* the table is there exactly when it has frames, and it is named `StackMapTable`;
* its offsets strictly increase, and they are exactly the offsets below the end of the code
  where a branch can land (`Node.LandsAt`): every label kept, and the instruction after every
  widened conditional branch;
* the frame at each of those offsets describes the frame that lowering gave every node that
  lands there: the simulation's frame at a label, and the one after a conditional branch;
* the instruction after a `goto`, a `return`, a switch or a widened conditional branch starts
  at one of those offsets.

The proof has three parts.  The fold that writes the table writes the frames `tableFrames`
picks out, with their bytes (`foldl_stackMapStep`).  Layout lays the nodes one after another
(`Contiguous`), so landing offsets never decrease, and two nodes that land at one offset are a
run of labels, perhaps after a widened branch: by `lower_linked` their frames agree
(`Contiguous.landing_agree`).  And by `lower_stops` a node that never goes on is followed by a
label.
-/

namespace BasicJvm.Bytecode

open BasicJvm.ClassFile

/-! ## Frames as a verifier reads them -/

/-- A stack map frame as a verifier reads it: the offset it is for, the types of the locals,
and those of the operand stack from the bottom up. -/
structure MapFrame where
  offset : Nat
  locals : List VType
  stack : List VType
  deriving DecidableEq, Repr

/-- The stack map frame for simulation frame `f` at `offset`: its locals without the trailing
`top`s, its stack from the bottom up. -/
def MapFrame.describing (offset : Nat) (f : Frame) : MapFrame :=
  ⟨offset, trimTop f.locals, f.stack.reverse⟩

/-- Frames that agree are described alike. -/
theorem MapFrame.describing_agrees {f g : Frame} (agrees : f.agrees g = true) (offset : Nat) :
    MapFrame.describing offset f = MapFrame.describing offset g := by
  obtain ⟨locals, stack⟩ := Frame.agrees_iff.mp agrees
  simp [MapFrame.describing, locals, stack]

/-- The bytes of a verification type, its class named through a Class entry of pool `P`. -/
def VType.WrittenIn (P : Pool) : VType → List UInt8 → Prop
  | .top, b => b = [0]
  | .int, b => b = [1]
  | .float, b => b = [2]
  | .double, b => b = [3]
  | .null, b => b = [5]
  | .object cls, b => ∃ i, b = [7] ++ u2 i ∧ P.className i = .ok cls

/-- The class an object type names. -/
def VType.objectClass? : VType → Option String
  | .object cls => some cls
  | _ => none

/-- The classes a frame names, the locals' first: those its bytes take Class entries for. -/
def MapFrame.classes (e : MapFrame) : List String :=
  (e.locals ++ e.stack).filterMap VType.objectClass?

/-- The bytes of a list of verification types: the count, then each type. -/
def TypesWrittenIn (P : Pool) (ts : List VType) (b : List UInt8) : Prop :=
  ∃ parts, List.Forall₂ (VType.WrittenIn P) ts parts ∧ b = u2 ts.length ++ parts.flatten

/-- The bytes of `full_frame`s, one after another, after a frame at offset `prev` (`-1` before
the first): each is the tag 255, the delta from the previous offset, the locals and the
stack. -/
inductive FramesWritten (P : Pool) : Int → List MapFrame → List UInt8 → Prop
  | nil (prev : Int) : FramesWritten P prev [] []
  | cons {prev : Int} {e : MapFrame} {es : List MapFrame} {locals stack rest : List UInt8} :
      TypesWrittenIn P e.locals locals → TypesWrittenIn P e.stack stack →
      FramesWritten P e.offset es rest →
      FramesWritten P prev (e :: es)
        ([255] ++ u2 ((e.offset : Int) - prev - 1).toNat ++ locals ++ stack ++ rest)

/-! ## Where a branch lands -/

/-- A branch lands at a laid-out node at offset `o`: at a label's own offset, or at the end of
a widened conditional branch, whose negated branch skips its `goto_w`. -/
def Node.LandsAt (n : Node) (o : Nat) : Prop :=
  (∃ l, n.instr = .label l ∧ o = n.offset) ∨
    ∃ op l, n.instr = .jump op l ∧ op ≠ .goto ∧ n.wide = true ∧ o = n.offset + n.size

theorem Node.landing?_eq_some {n : Node} {o : Nat} : n.landing? = some o ↔ n.LandsAt o := by
  unfold Node.landing? Node.LandsAt
  cases hi : n.instr
  case label l =>
    constructor
    · intro h
      exact .inl ⟨l, rfl, (Option.some.inj h).symm⟩
    · rintro (⟨l', -, rfl⟩ | ⟨op, l', h, -⟩)
      · rfl
      · cases h
  case jump op l =>
    constructor
    · intro h
      dsimp only at h
      split_ifs at h with conditional
      simp only [Bool.and_eq_true, bne_iff_ne, ne_eq] at conditional
      exact .inr ⟨op, l, rfl, conditional.2, conditional.1, (Option.some.inj h).symm⟩
    · rintro (⟨l', h, -⟩ | ⟨op', l', h, notGoto, wide, rfl⟩)
      · cases h
      · obtain ⟨rfl, rfl⟩ := Instr.jump.inj h
        simp [wide, notGoto]
  all_goals simp

/-- A node a branch lands on is a label or a conditional branch, and it lands within the
node. -/
theorem Node.landing?_within {n : Node} {o : Nat} (h : n.landing? = some o) :
    (n.instr.isLabel || n.instr.isConditional) = true ∧ n.offset ≤ o ∧ o ≤ n.offset + n.size ∧
      (n.instr.isLabel = false → n.offset < o ∨ n.size = 0) := by
  rcases Node.landing?_eq_some.mp h with ⟨l, hl, rfl⟩ | ⟨op, l, hl, notGoto, -, rfl⟩
  · simp [hl, Instr.isLabel]
  · simp [hl, Instr.isLabel, Instr.isConditional, notGoto]
    omega

/-- Whether execution never goes on from a laid-out node to the one after it: a `goto`, a
`return`, a switch, or a widened conditional branch, which ends in a `goto_w`. -/
def Node.EndsFlow (n : Node) : Prop :=
  n.instr.endsFlow = true ∨ (n.instr.isConditional = true ∧ n.wide = true)

/-! ## Nodes laid one after another -/

/-- Nodes laid one after another from offset `pc`, the last one ending at `stop`. -/
def Contiguous : Nat → List Node → Nat → Prop
  | pc, [], stop => pc = stop
  | pc, n :: ns, stop => n.offset = pc ∧ Contiguous (pc + n.size) ns stop

theorem Placed.contiguous {p p' : Pool} {pc stop : Nat} {ns placed : List Node}
    (h : Placed p pc ns p' placed stop) : Contiguous pc placed stop := by
  induction h with
  | nil => rfl
  | cons _ _ ih => exact ⟨rfl, ih⟩

/-- Only a label is placed with no bytes. -/
theorem placeNode_size_pos {p p₁ : Pool} {n : Node} {pc size cp : Nat}
    (h : placeNode p n pc = .ok (p₁, size, cp)) (notLabel : n.instr.isLabel = false) :
    0 < size := by
  unfold placeNode at h
  split at h
  · rename_i l hl
    simp [hl, Instr.isLabel] at notLabel
  all_goals
    repeat' split at h
    all_goals
      first
      | (simp only [Except.ok.injEq, Prod.mk.injEq] at h; omega)
      | cases h

theorem Placed.label_of_size {p p' : Pool} {pc stop : Nat} {ns placed : List Node}
    (h : Placed p pc ns p' placed stop) : ∀ m ∈ placed, m.size = 0 → m.instr.isLabel = true := by
  induction h with
  | nil => simp
  | cons here _ ih =>
    intro m hm empty
    rcases List.mem_cons.mp hm with rfl | later
    · by_contra notLabel
      have := placeNode_size_pos here (by simpa using notLabel)
      simp only at empty
      omega
    · exact ih m later empty

namespace Contiguous

theorem le_stop : ∀ {pc : Nat} {ns : List Node} {stop : Nat}, Contiguous pc ns stop → pc ≤ stop
  | _, [], _, h => Nat.le_of_eq h
  | _, _ :: _, _, h => by
    have := le_stop h.2
    omega

theorem bounds : ∀ {pc : Nat} {ns : List Node} {stop : Nat}, Contiguous pc ns stop →
    ∀ n ∈ ns, pc ≤ n.offset ∧ n.offset + n.size ≤ stop
  | _, [], _, _, n, hn => absurd hn List.not_mem_nil
  | _, m :: _, _, h, n, hn => by
    have start := h.1
    rcases List.mem_cons.mp hn with rfl | later
    · have := le_stop h.2
      omega
    · have := bounds h.2 n later
      omega

theorem pairwise : ∀ {pc : Nat} {ns : List Node} {stop : Nat}, Contiguous pc ns stop →
    ns.Pairwise fun x y => x.offset + x.size ≤ y.offset
  | _, [], _, _ => .nil
  | _, _ :: _, _, h => .cons (fun y hy => by
      have start := h.1
      have := (bounds h.2 y hy).1
      omega) (pairwise h.2)

theorem size_sum : ∀ {pc : Nat} {ns : List Node} {stop : Nat}, Contiguous pc ns stop →
    pc + (ns.map Node.size).sum = stop
  | _, [], _, h => by
    simp only [List.map_nil, List.sum_nil, Nat.add_zero]
    exact h
  | _, _ :: _, _, h => by
    have := size_sum h.2
    simp only [List.map_cons, List.sum_cons]
    omega

/-- Landing offsets never decrease along the nodes. -/
theorem landings_sorted {pc : Nat} {ns : List Node} {stop : Nat} (h : Contiguous pc ns stop) :
    (ns.filterMap Node.landing?).Pairwise (· ≤ ·) := by
  rw [List.pairwise_filterMap]
  refine h.pairwise.imp fun {x y} before o hx o' hy => ?_
  have xEnd := (Node.landing?_within hx).2.2.1
  have yStart := (Node.landing?_within hy).2.1
  omega

/-- A node that does not end the code is followed by a node at the offset after it, related
to it as all neighbours are. -/
theorem next {R : Node → Node → Prop} : ∀ {pc : Nat} {ns : List Node} {stop : Nat},
    Contiguous pc ns stop → ns.IsChain R → ∀ n ∈ ns, n.offset + n.size < stop →
      ∃ m ∈ ns, R n m ∧ m.offset = n.offset + n.size
  | _, [], _, _, _, n, hn, _ => absurd hn List.not_mem_nil
  | pc, x :: rest, stop, h, chain, n, hn, short => by
    rcases List.mem_cons.mp hn with rfl | later
    · cases rest with
      | nil =>
        have start := h.1
        have := h.2
        simp only [Contiguous] at this
        omega
      | cons m rest =>
        obtain ⟨related, -⟩ := List.isChain_cons_cons.mp chain
        exact ⟨m, by simp, related, by rw [h.2.1, h.1]⟩
    · obtain ⟨m, hm, related, offset⟩ := next h.2 chain.tail n later short
      exact ⟨m, List.mem_cons_of_mem x hm, related, offset⟩

/-- Two nodes landing at one offset, with frames that agree. -/
def SameLanding (x y : Node) : Prop :=
  ∀ o, x.landing? = some o → y.landing? = some o →
    ∃ f g, x.frame = some f ∧ y.frame = some g ∧ f.agrees g = true

theorem SameLanding.symm {x y : Node} (h : SameLanding x y) : SameLanding y x := by
  intro o hy hx
  obtain ⟨f, g, xFrame, yFrame, agrees⟩ := h o hx hy
  exact ⟨g, f, yFrame, xFrame, Frame.agrees_symm agrees⟩

/-- A node lands at the same offset as a later one only through a run of labels, each with no
bytes, after it: the frames agree along the run. -/
theorem landing_agree_after : ∀ {pc : Nat} {x : Node} {rest : List Node} {stop : Nat},
    Contiguous pc (x :: rest) stop → (x :: rest).IsChain (fun a b => Linked a.shape b.shape) →
      (∀ m ∈ x :: rest, m.size = 0 → m.instr.isLabel = true) → ∀ y ∈ rest, SameLanding x y
  | _, _, [], _, _, _, _, y, hy, _, _, _ => absurd hy List.not_mem_nil
  | pc, x, r :: rest, stop, h, chain, sizes, y, hy, o, hx, hyo => by
    obtain ⟨link, chain'⟩ := List.isChain_cons_cons.mp chain
    have xStart : x.offset = pc := h.1
    have rStart : r.offset = pc + x.size := h.2.1
    have rSizes : ∀ m ∈ r :: rest, m.size = 0 → m.instr.isLabel = true :=
      fun m hm => sizes m (List.mem_cons_of_mem x hm)
    obtain ⟨xKind, -, xEnd, -⟩ := Node.landing?_within hx
    -- the node after `x` is a label at `o`
    have rLabel : r.instr.isLabel = true ∧ r.offset = o := by
      rcases List.mem_cons.mp hy with rfl | later
      · obtain ⟨-, yStart, -, yPast⟩ := Node.landing?_within hyo
        cases isLabel : y.instr.isLabel
        · rcases yPast isLabel with past | empty
          · omega
          · rw [rSizes y List.mem_cons_self empty] at isLabel
            cases isLabel
        · obtain ⟨l, hl⟩ := Instr.isLabel_iff.mp isLabel
          obtain ⟨l', hl', same⟩ | ⟨op, l', hl', -⟩ := Node.landing?_eq_some.mp hyo
          · exact ⟨rfl, same.symm⟩
          · rw [hl] at hl'
            cases hl'
      · have yAfter := (bounds h.2.2 y later).1
        obtain ⟨-, yStart, -, -⟩ := Node.landing?_within hyo
        have empty : r.size = 0 := by omega
        exact ⟨rSizes r List.mem_cons_self empty, by omega⟩
    obtain ⟨f, g, xFrame, rFrame, agrees⟩ := link rLabel.1 xKind
    simp only [Node.shape] at xFrame rFrame
    rcases List.mem_cons.mp hy with rfl | later
    · exact ⟨f, g, xFrame, rFrame, agrees⟩
    · obtain ⟨l, hl⟩ := Instr.isLabel_iff.mp rLabel.1
      have rLands : r.landing? = some o := Node.landing?_eq_some.mpr (.inl ⟨l, hl, rLabel.2.symm⟩)
      obtain ⟨g', k, rFrame', yFrame, agrees'⟩ :=
        landing_agree_after h.2 chain' rSizes y later o rLands hyo
      rw [rFrame] at rFrame'
      obtain rfl := Option.some.inj rFrame'
      exact ⟨f, k, xFrame, yFrame, Frame.agrees_trans agrees agrees'⟩

/-- Nodes that land at one offset have frames that agree. -/
theorem landing_agree {pc : Nat} {ns : List Node} {stop : Nat} (h : Contiguous pc ns stop)
    (chain : ns.IsChain fun a b => Linked a.shape b.shape)
    (sizes : ∀ m ∈ ns, m.size = 0 → m.instr.isLabel = true) : ns.Pairwise SameLanding := by
  induction ns generalizing pc with
  | nil => exact .nil
  | cons x rest ih =>
    exact .cons (fun y hy => landing_agree_after h chain sizes y hy)
      (ih h.2 chain.tail fun m hm => sizes m (List.mem_cons_of_mem x hm))

end Contiguous

/-! ## The fold that writes the table -/

theorem vtypeBytes_written (P : Pool) (t : VType) {Q : Pool} (ext : (vtypeBytes P t).1.Extends Q)
    (small : Q.count ≤ 2 ^ 16) : VType.WrittenIn Q t (vtypeBytes P t).2 := by
  cases t
  case object cls => exact ⟨_, rfl, Pool.addClass_className ext small⟩
  all_goals rfl

/-- The types `vtypesBytes` writes are read back, with their classes, from every pool grown from
the one it leaves. -/
theorem vtypesBytes_written (P : Pool) (ts : List VType) :
    P.Grows (vtypesBytes P ts).1 ∧ ∃ parts, (vtypesBytes P ts).2 = u2 ts.length ++ parts.flatten ∧
      ∀ Q, (vtypesBytes P ts).1.Extends Q → Q.count ≤ 2 ^ 16 →
        List.Forall₂ (VType.WrittenIn Q) ts parts := by
  unfold vtypesBytes
  generalize u2 ts.length = acc
  induction ts generalizing P acc with
  | nil => exact ⟨.refl P, [], by simp, fun _ _ _ => .nil⟩
  | cons t ts ih =>
    rw [List.foldl_cons]
    rcases hv : vtypeBytes P t with ⟨P₁, b⟩
    have first := vtypeBytes_grows P t
    have written : ∀ Q, (vtypeBytes P t).1.Extends Q → Q.count ≤ 2 ^ 16 →
        VType.WrittenIn Q t (vtypeBytes P t).2 := fun Q => vtypeBytes_written P t
    rw [hv] at first written
    simp only [hv]
    obtain ⟨grows, parts, hb, rest⟩ := ih P₁ (acc ++ b)
    refine ⟨first.trans grows, b :: parts, by simp [hb], fun Q ext small => .cons ?_ (rest Q ext small)⟩
    exact written Q (grows.grown.trans ext) small

/-- The pool `vtypesBytes` leaves: the classes of the object types added in order. -/
theorem vtypesBytes_pool (P : Pool) (ts : List VType) :
    (vtypesBytes P ts).1 = (ts.filterMap VType.objectClass?).foldl (fun p c => (p.addClass c).1) P := by
  unfold vtypesBytes
  generalize u2 ts.length = acc
  induction ts generalizing P acc with
  | nil => rfl
  | cons t ts ih =>
    rw [List.foldl_cons]
    rcases hv : vtypeBytes P t with ⟨P₁, b⟩
    simp only [hv]
    rw [ih P₁ (acc ++ b)]
    cases t <;> simp only [vtypeBytes, Prod.mk.injEq] at hv <;>
      simp [List.filterMap_cons, VType.objectClass?, ← hv.1]

/-- The frames the table gets for nodes `ns` after a frame at offset `prev`: one at each landing
offset below `length` that differs from the offset before it, describing the frame of the node
that lands there. -/
def tableFrames (length : Nat) : Int → List Node → List MapFrame
  | _, [] => []
  | prev, n :: ns =>
    match n.landing? with
    | some o =>
      if (o : Int) = prev ∨ length ≤ o then tableFrames length prev ns
      else MapFrame.describing o (n.frame.getD default) :: tableFrames length o ns
    | none => tableFrames length prev ns

/-- The step lemma of the table: the fold writes the frames `tableFrames` picks out, as full
frames whose classes are found in every pool grown from the one it leaves, having added those
classes to the pool in order. -/
theorem foldl_stackMapStep (length : Nat) :
    ∀ (ns : List Node) {P P' : Pool} {count count' : Nat} {E E' : List UInt8} {prev prev' : Int},
      -1 ≤ prev → ns.foldl (stackMapStep length) (P, count, E, prev) = (P', count', E', prev') →
      count' = count + (tableFrames length prev ns).length ∧ P.Grows P' ∧
        P' = ((tableFrames length prev ns).flatMap MapFrame.classes).foldl
          (fun p c => (p.addClass c).1) P ∧
        ∃ bytes, E' = E ++ bytes ∧ ∀ Q, P'.Extends Q → Q.count ≤ 2 ^ 16 →
          FramesWritten Q prev (tableFrames length prev ns) bytes
  | [], P, P', count, count', E, E', prev, prev', _, h => by
    simp only [List.foldl_nil, Prod.mk.injEq] at h
    obtain ⟨rfl, rfl, rfl, rfl⟩ := h
    exact ⟨rfl, .refl P, rfl, [], by simp, fun _ _ _ => .nil prev⟩
  | n :: ns, P, P', count, count', E, E', prev, prev', low, h => by
    rw [List.foldl_cons] at h
    cases hl : n.landing? with
    | none =>
      simp only [stackMapStep, hl] at h
      simpa only [tableFrames, hl] using foldl_stackMapStep length ns low h
    | some o =>
      by_cases skip : (o : Int) = prev ∨ length ≤ o
      · have same : stackMapStep length (P, count, E, prev) n = (P, count, E, prev) := by
          simp only [stackMapStep, hl]
          rw [if_pos (by simpa [beq_iff_eq] using skip)]
        rw [same] at h
        simpa only [tableFrames, hl, if_pos skip] using foldl_stackMapStep length ns low h
      · -- a new frame at `o`: its delta, then the locals and the stack
        rcases hlocals : vtypesBytes P (trimTop (n.frame.getD default).locals) with ⟨P₁, lb⟩
        rcases hstack : vtypesBytes P₁ (n.frame.getD default).stack.reverse with ⟨P₂, sb⟩
        have step : stackMapStep length (P, count, E, prev) n =
            (P₂, count + 1, E ++ ([255] ++ u2 ((o : Int) - prev - 1).toNat ++ lb ++ sb), (o : Int)) := by
          simp only [stackMapStep, hl]
          rw [if_neg (by simpa [beq_iff_eq] using skip)]
          have delta : (if prev ≥ 0 then (o : Int) - prev - 1 else o) = (o : Int) - prev - 1 := by
            split <;> omega
          simp only [hlocals, hstack, delta, List.append_assoc]
        rw [step] at h
        obtain ⟨counted, grows, pool, bytes, hE, rest⟩ := foldl_stackMapStep length ns (by omega) h
        have pool₂ : P₂ = (MapFrame.describing o (n.frame.getD default)).classes.foldl
            (fun p c => (p.addClass c).1) P := by
          have localsPool := vtypesBytes_pool P (trimTop (n.frame.getD default).locals)
          have stackPool := vtypesBytes_pool P₁ (n.frame.getD default).stack.reverse
          simp only [hlocals, hstack] at localsPool stackPool
          simp only [MapFrame.classes, MapFrame.describing, List.filterMap_append,
            List.foldl_append, ← localsPool, ← stackPool]
        obtain ⟨grows₁, localParts, hlb, localsRead⟩ :=
          vtypesBytes_written P (trimTop (n.frame.getD default).locals)
        obtain ⟨grows₂, stackParts, hsb, stackRead⟩ :=
          vtypesBytes_written P₁ (n.frame.getD default).stack.reverse
        rw [hlocals] at grows₁ hlb localsRead
        rw [hstack] at grows₂ hsb stackRead
        simp only [tableFrames, hl, if_neg skip, List.length_cons]
        refine ⟨by omega, grows₁.trans (grows₂.trans grows),
          by rw [pool, pool₂, List.flatMap_cons, List.foldl_append],
          [255] ++ u2 ((o : Int) - prev - 1).toNat ++ lb ++ sb ++ bytes, by simp [hE], ?_⟩
        intro Q ext small
        exact .cons ⟨localParts, localsRead Q ((grows₂.trans grows).grown.trans ext) small, hlb⟩
          ⟨stackParts, stackRead Q (grows.grown.trans ext) small, hsb⟩ (rest Q ext small)

/-- Every frame of the table is at the landing offset of a node, below the length, and
describes that node's frame. -/
theorem mem_tableFrames {length : Nat} : ∀ {ns : List Node} {prev : Int} {e : MapFrame},
    e ∈ tableFrames length prev ns → ∃ n ∈ ns, n.landing? = some e.offset ∧
      e.offset < length ∧ e = MapFrame.describing e.offset (n.frame.getD default)
  | [], _, _, h => absurd h List.not_mem_nil
  | n :: ns, prev, e, h => by
    unfold tableFrames at h
    cases hl : n.landing? with
    | none =>
      rw [hl] at h
      obtain ⟨m, hm, rest⟩ := mem_tableFrames h
      exact ⟨m, List.mem_cons_of_mem n hm, rest⟩
    | some o =>
      rw [hl] at h
      dsimp only at h
      split_ifs at h with skip
      · obtain ⟨m, hm, rest⟩ := mem_tableFrames h
        exact ⟨m, List.mem_cons_of_mem n hm, rest⟩
      · rcases List.mem_cons.mp h with rfl | later
        · exact ⟨n, List.mem_cons_self, hl, by simp only [MapFrame.describing]; omega, rfl⟩
        · obtain ⟨m, hm, rest⟩ := mem_tableFrames later
          exact ⟨m, List.mem_cons_of_mem n hm, rest⟩

/-- Every landing offset below the length gets a frame, unless it is the offset before. -/
theorem landing_mem_tableFrames {length : Nat} : ∀ {ns : List Node} (prev : Int) {n : Node}
    {o : Nat}, n ∈ ns → n.landing? = some o → o < length →
      (o : Int) = prev ∨ o ∈ (tableFrames length prev ns).map MapFrame.offset
  | [], _, _, _, hn, _, _ => absurd hn List.not_mem_nil
  | m :: ns, prev, n, o, hn, hno, short => by
    unfold tableFrames
    cases hl : m.landing? with
    | none =>
      rcases List.mem_cons.mp hn with rfl | later
      · rw [hno] at hl
        cases hl
      · exact landing_mem_tableFrames prev later hno short
    | some o' =>
      dsimp only
      split_ifs with skip
      · rcases List.mem_cons.mp hn with rfl | later
        · rw [hno, Option.some.injEq] at hl
          subst hl
          exact .inl (skip.resolve_right (by omega))
        · exact landing_mem_tableFrames prev later hno short
      · simp only [List.map_cons, List.mem_cons]
        rcases List.mem_cons.mp hn with rfl | later
        · rw [hno, Option.some.injEq] at hl
          exact .inr (.inl hl)
        · rcases landing_mem_tableFrames o' later hno short with same | found
          · exact .inr (.inl (by exact_mod_cast same))
          · exact .inr (.inr found)

/-- Landing offsets that never decrease and start after `prev` give strictly increasing frame
offsets after `prev`. -/
theorem tableFrames_increasing {length : Nat} : ∀ {ns : List Node} (prev : Int),
    (∀ o ∈ ns.filterMap Node.landing?, prev ≤ o) → (ns.filterMap Node.landing?).Pairwise (· ≤ ·) →
      ((tableFrames length prev ns).map MapFrame.offset).Pairwise (· < ·) ∧
        ∀ e ∈ tableFrames length prev ns, prev < e.offset
  | [], _, _, _ => ⟨.nil, fun _ h => absurd h List.not_mem_nil⟩
  | n :: ns, prev, after, sorted => by
    unfold tableFrames
    cases hl : n.landing? with
    | none =>
      rw [List.filterMap_cons_none hl] at after sorted
      exact tableFrames_increasing prev after sorted
    | some o =>
      rw [List.filterMap_cons_some hl] at after sorted
      obtain ⟨later, sorted⟩ := List.pairwise_cons.mp sorted
      have first : prev ≤ o := after o List.mem_cons_self
      have rest : ∀ o' ∈ ns.filterMap Node.landing?, prev ≤ o' :=
        fun o' ho' => after o' (List.mem_cons_of_mem o ho')
      dsimp only
      split_ifs with skip
      · exact tableFrames_increasing prev rest sorted
      · obtain ⟨increasing, above⟩ := tableFrames_increasing o
          (fun o' ho' => by exact_mod_cast later o' ho') sorted
        have strict : prev < o := by omega
        refine ⟨List.Pairwise.cons (fun o' ho' => ?_) increasing, fun e he => ?_⟩
        · obtain ⟨e, he, rfl⟩ := List.mem_map.mp ho'
          exact_mod_cast above e he
        · rcases List.mem_cons.mp he with rfl | he
          · exact strict
          · have := above e he
            omega

/-- The table a fold over laid-out nodes ends in: no attribute when no frame was written,
otherwise one named `StackMapTable` whose data is the frame count and the frames. -/
theorem stackMapTable_written {P P' : Pool} {nodes : Array Node} {length : Nat}
    {attr : Option Attribute} (h : stackMapTable P nodes length = (P', attr)) :
    P.Grows P' ∧ (attr = none ↔ tableFrames length (-1) nodes.toList = []) ∧
      ∀ t, attr = some t → ∃ bytes, t.data = u2 (tableFrames length (-1) nodes.toList).length ++ bytes ∧
        ∀ Q, P'.Extends Q → Q.count ≤ 2 ^ 16 →
          Q.utf8 t.nameIndex = .ok "StackMapTable" ∧
            FramesWritten Q (-1) (tableFrames length (-1) nodes.toList) bytes := by
  unfold stackMapTable at h
  rw [← Array.foldl_toList] at h
  rcases hfold : nodes.toList.foldl (stackMapStep length) (P, 0, [], -1) with
    ⟨q, count, entries, prev⟩
  obtain ⟨counted, grows, -, bytes, hE, written⟩ :=
    foldl_stackMapStep length nodes.toList (by decide) hfold
  simp only [hfold] at h
  split at h
  · -- no frame was written
    rename_i none
    simp only [Prod.mk.injEq] at h
    obtain ⟨rfl, rfl⟩ := h
    simp only [beq_iff_eq] at none
    refine ⟨grows, ?_, fun t ht => absurd ht (by simp)⟩
    simp only [true_iff]
    rw [← List.length_eq_zero_iff]
    omega
  · rename_i some
    simp only [Prod.mk.injEq] at h
    obtain ⟨rfl, rfl⟩ := h
    simp only [beq_iff_eq] at some
    refine ⟨grows.trans (q.addUtf8_grows _), ?_, fun t ht => ?_⟩
    · simp only [reduceCtorEq, false_iff]
      rw [← List.length_eq_zero_iff]
      omega
    · obtain rfl := Option.some.inj ht
      refine ⟨bytes, by simp [counted, hE], fun Q ext small => ⟨?_, ?_⟩⟩
      · exact Pool.utf8_eq_ok.mpr (Pool.addUtf8_get ext small)
      · exact written Q ((q.addUtf8_grows _).grown.trans ext) small

/-- A table that is written adds the classes of its frames to the pool, and then its name. -/
theorem stackMapTable_named {P P' : Pool} {nodes : Array Node} {length : Nat} {t : Attribute}
    (h : stackMapTable P nodes length = (P', some t)) :
    (P', t.nameIndex) = (((tableFrames length (-1) nodes.toList).flatMap MapFrame.classes).foldl
      (fun p c => (p.addClass c).1) P).addUtf8 "StackMapTable" := by
  unfold stackMapTable at h
  rw [← Array.foldl_toList] at h
  rcases hfold : nodes.toList.foldl (stackMapStep length) (P, 0, [], -1) with
    ⟨q, count, entries, prev⟩
  obtain ⟨-, -, pool, -⟩ := foldl_stackMapStep length nodes.toList (by decide) hfold
  simp only [hfold] at h
  split at h
  · simp at h
  · simp only [Prod.mk.injEq, Option.some.injEq] at h
    obtain ⟨rfl, rfl⟩ := h
    rw [← pool]

/-- The body encoded from nodes laid from offset zero to `length` is `length` bytes long. -/
theorem encode_length {nodes : Array Node} {body : List UInt8} {length : Nat}
    (h : encode nodes = .ok body) (laid : Contiguous 0 nodes.toList length) :
    body.length = length := by
  obtain ⟨parts, written, rfl⟩ := encode_parts h
  have sized : List.Forall₂ (fun n b => b.length = n.size) nodes.toList parts :=
    written.imp fun _ _ hb => hb.2
  have total := laid.size_sum
  rw [Nat.zero_add] at total
  rw [← total]
  clear h written laid total
  generalize nodes.toList = ns at sized ⊢
  induction sized with
  | nil => rfl
  | cons hb _ ih => simp [hb, ih]

/-! ## The frames of laid-out nodes -/

section Frames

variable {ns : List Node} {length : Nat}

/-- The frames are at exactly the landing offsets below the length. -/
theorem tableFrames_offsets (o : Nat) :
    o ∈ (tableFrames length (-1) ns).map MapFrame.offset ↔ o < length ∧ ∃ n ∈ ns, n.LandsAt o := by
  constructor
  · intro ho
    obtain ⟨e, he, rfl⟩ := List.mem_map.mp ho
    obtain ⟨n, hn, lands, short, -⟩ := mem_tableFrames he
    exact ⟨short, n, hn, Node.landing?_eq_some.mp lands⟩
  · rintro ⟨short, n, hn, lands⟩
    rcases landing_mem_tableFrames (-1) hn (Node.landing?_eq_some.mpr lands) short with never | found
    · omega
    · exact found

variable (laid : Contiguous 0 ns length)
include laid

theorem tableFrames_sorted : ((tableFrames length (-1) ns).map MapFrame.offset).Pairwise (· < ·) :=
  (tableFrames_increasing (-1) (fun o _ => by omega) laid.landings_sorted).1

/-- The frame at a landing offset describes the frame of every node that lands there, when the
nodes that land at one offset have frames that agree. -/
theorem tableFrames_described (sizes : ∀ m ∈ ns, m.size = 0 → m.instr.isLabel = true)
    (chain : ns.IsChain fun a b => Linked a.shape b.shape)
    (framed : ∀ n ∈ ns, ∀ o, n.landing? = some o → ∃ f, n.frame = some f)
    {n : Node} (hn : n ∈ ns) {o : Nat} (lands : n.LandsAt o) (short : o < length) :
    ∃ f, n.frame = some f ∧ MapFrame.describing o f ∈ tableFrames length (-1) ns := by
  have hno := Node.landing?_eq_some.mpr lands
  obtain ⟨e, he, rfl⟩ : ∃ e ∈ tableFrames length (-1) ns, e.offset = o := by
    rcases landing_mem_tableFrames (-1) hn hno short with never | found
    · omega
    · exact List.mem_map.mp found
  obtain ⟨m, hm, hmo, -, describes⟩ := mem_tableFrames he
  -- `m` lands where `n` does, so their frames agree
  have agree : ∀ x ∈ ns, ∀ y ∈ ns, Contiguous.SameLanding x y := by
    refine List.Pairwise.forall_of_forall_of_flip (fun x hx o hxo _ => ?_)
      (laid.landing_agree chain sizes)
      ((laid.landing_agree chain sizes).imp fun h => h.symm)
    obtain ⟨f, hf⟩ := framed x hx o hxo
    exact ⟨f, f, hf, hf, Frame.agrees_refl f⟩
  obtain ⟨g, f, mFrame, nFrame, agrees⟩ := agree m hm n hn e.offset hmo hno
  refine ⟨f, nFrame, ?_⟩
  rw [mFrame, Option.getD_some] at describes
  rw [← MapFrame.describing_agrees agrees, ← describes]
  exact he

/-- The node after one that never goes on starts at a frame's offset, when a node that never
goes on is followed by a label. -/
theorem tableFrames_after (stops : ns.IsChain fun a b => StopsBefore a.shape b.shape)
    {n : Node} (hn : n ∈ ns) (ends : n.EndsFlow) (short : n.offset + n.size < length) :
    n.offset + n.size ∈ (tableFrames length (-1) ns).map MapFrame.offset := by
  rw [tableFrames_offsets]
  refine ⟨short, ?_⟩
  rcases ends with ends | ⟨conditional, wide⟩
  · -- the next node is a label
    obtain ⟨m, hm, stopped, start⟩ := laid.next stops n hn short
    obtain ⟨l, hl⟩ := Instr.isLabel_iff.mp (stopped ends)
    exact ⟨m, hm, .inl ⟨l, hl, start.symm⟩⟩
  · -- a widened conditional branch lands after itself
    unfold Instr.isConditional at conditional
    split at conditional
    · rename_i op l hl
      simp only [bne_iff_ne, ne_eq] at conditional
      exact ⟨n, hn, .inr ⟨op, l, hl, conditional, wide, rfl⟩⟩
    · cases conditional

end Frames

/-! ## The table of an assembled body -/

/-- What the StackMapTable of an assembled body says, against the simulation of its code and
the laid-out nodes its bytes were encoded from. -/
structure StackMapped (owner : String) (code : List Instr) (a : Assembled) where
  sim : Simulation
  simulated : simulate code ⟨[.object owner], []⟩ = .ok sim
  placed : Array Node
  /-- The laid-out nodes are the lowered code, with the frames lowering gave them. -/
  lowered : placed.toList.map Node.shape = (lower code sim).map Node.shape
  contiguous : Contiguous 0 placed.toList a.code.code.length
  encoded : encode placed = .ok a.code.code
  frames : List MapFrame
  /-- The table is there exactly when it has frames; it is named `StackMapTable` and holds
  their count and the frames. -/
  table : if frames = [] then a.code.attributes = [] else ∃ name bytes,
    a.code.attributes = [⟨name, u2 frames.length ++ bytes⟩] ∧
      a.pool.utf8 name = .ok "StackMapTable" ∧ FramesWritten a.pool (-1) frames bytes
  increasing : (frames.map MapFrame.offset).Pairwise (· < ·)
  /-- The frames are at exactly the offsets below the end of the code where a branch lands. -/
  offsets : ∀ o, o ∈ frames.map MapFrame.offset ↔
    o < a.code.code.length ∧ ∃ n ∈ placed.toList, n.LandsAt o
  /-- Every node a branch lands on has a frame, and the table's frame there describes it. -/
  described : ∀ n ∈ placed.toList, ∀ o, n.LandsAt o → o < a.code.code.length →
    ∃ f, n.frame = some f ∧ MapFrame.describing o f ∈ frames
  /-- Every label the simulation reached is kept, with the frame it was reached with. -/
  labels : ∀ j l f, code[j]? = some (.label l) → sim.frameAt j = some f →
    ∃ n ∈ placed.toList, n.instr = .label l ∧ n.frame = some f
  /-- The node after one that never goes on starts at the offset of a frame. -/
  afterEnd : ∀ n ∈ placed.toList, n.EndsFlow → n.offset + n.size < a.code.code.length →
    n.offset + n.size ∈ frames.map MapFrame.offset

/-- The StackMapTable of an assembled body, while the constant pool keeps within its 16-bit
count. -/
theorem assemble_stackMapTable {pool : Pool} {owner : String} {code : List Instr} {a : Assembled}
    (h : assemble pool owner true code = .ok a) (fits : a.pool.count ≤ 2 ^ 16) :
    Nonempty (StackMapped owner code a) := by
  obtain ⟨sim, placedPool, placed, length, simulated, laidOut, encoded, -, -, -, -, -, table⟩ :=
    assemble_ok h
  obtain ⟨q, nodes', -, shapes, laid, -⟩ := layout_placed _ laidOut
  have S := simulate_simulated simulated
  have lowered : placed.toList.map Node.shape = (lower code sim).map Node.shape := by
    rw [laid.shapes, shapes, List.toList_toArray]
  have bodyLength := encode_length encoded laid.contiguous
  have contiguous := laid.contiguous
  rw [← bodyLength] at contiguous
  -- what lowering gave the laid-out nodes
  have linked : placed.toList.IsChain fun a b => Linked a.shape b.shape := by
    have := lower_linked S
    rwa [← lowered, List.isChain_map] at this
  have stops : placed.toList.IsChain fun a b => StopsBefore a.shape b.shape := by
    have := lower_stops S
    rwa [← lowered, List.isChain_map] at this
  have framed : ∀ n ∈ placed.toList, ∀ o, n.landing? = some o → ∃ f, n.frame = some f := by
    intro n hn o lands
    have shaped : n.shape ∈ (lower code sim).map Node.shape :=
      lowered ▸ List.mem_map_of_mem hn
    obtain ⟨x, hx, same⟩ := List.mem_map.mp shaped
    simp only [Node.shape, Prod.mk.injEq] at same
    have kind := (Node.landing?_within lands).1
    rw [← same.1] at kind
    obtain ⟨f, hf⟩ := lower_frames S hx kind
    exact ⟨f, same.2 ▸ hf⟩
  -- the table the fold wrote
  simp only [↓reduceIte] at table
  rcases built : stackMapTable placedPool placed length with ⟨P', attr⟩
  obtain ⟨-, absent, present⟩ := stackMapTable_written built
  refine ⟨⟨sim, simulated, placed, lowered, contiguous, encoded, tableFrames length (-1) placed.toList,
    ?_, ?_, ?_, ?_, ?_, ?_⟩⟩
  · rw [built] at table
    cases attr with
    | none =>
      simp only [Prod.mk.injEq] at table
      rw [if_pos (absent.mp rfl), table.2]
    | some t =>
      simp only [Prod.mk.injEq] at table
      obtain ⟨rfl, hattrs⟩ := table
      have frames : tableFrames length (-1) placed.toList ≠ [] := fun none =>
        absurd (absent.mpr none) (by simp)
      obtain ⟨bytes, hdata, readBack⟩ := present t rfl
      obtain ⟨named, written⟩ := readBack a.pool (.refl _) fits
      rw [if_neg frames]
      exact ⟨t.nameIndex, bytes, by rw [hattrs, ← hdata], named, written⟩
  · exact tableFrames_sorted laid.contiguous
  · intro o
    rw [bodyLength]
    exact tableFrames_offsets o
  · intro n hn o lands short
    rw [bodyLength] at short
    exact tableFrames_described laid.contiguous laid.label_of_size linked framed hn lands short
  · intro j l f placedLabel reached
    have shaped := lower_label placedLabel reached
    rw [← lowered] at shaped
    obtain ⟨n, hn, same⟩ := List.mem_map.mp shaped
    simp only [Node.shape, Prod.mk.injEq] at same
    exact ⟨n, hn, same.1, same.2⟩
  · intro n hn ends short
    rw [bodyLength] at short
    exact tableFrames_after laid.contiguous stops hn ends short

/-- A `goto` over nothing to the label after it: the table has the one frame at the label. -/
theorem assemble_stackMapTable_forwardGoto :
    ∃ a, assemble Pool.empty "T" true [.jump .goto 1, .label 1, .plain .returnVoid] = .ok a ∧
      a.pool.count ≤ 2 ^ 16 ∧
      Nonempty (StackMapped "T" [.jump .goto 1, .label 1, .plain .returnVoid] a) := by
  have run : (match assemble Pool.empty "T" true [.jump .goto 1, .label 1, .plain .returnVoid] with
      | .ok a => decide (a.pool.count ≤ 2 ^ 16)
      | .error _ => false) = true := by
    decide +kernel
  split at run
  · rename_i a assembled
    have fits := of_decide_eq_true run
    exact ⟨a, assembled, fits, assemble_stackMapTable assembled fits⟩
  · exact absurd run Bool.false_ne_true

/-! ## Past the 16-bit count

The pools here are those of a body assembled after 65533 integer constants: the owner's class
takes the last two indexes, and the table's name wraps to index 0. -/

/-- In a pool of 65533 integers a class takes the last two indexes below `2 ^ 16`, and text
added next the index 65536, which wraps to 0: an index no entry can have. -/
theorem integerPool_wraps {P : Pool} {ints : List UInt32}
    (entries : P.entries.toList = .unusable :: ints.map .integer) (count : ints.length = 65533)
    {cls s : String} (differ : s ≠ cls) :
    ((P.addClass cls).1.addUtf8 s).2 = 0 ∧
      ∀ s', ((P.addClass cls).1.addUtf8 s).1.utf8 0 ≠ .ok s' := by
  have size : P.count = 65534 := by
    rw [Pool.count, ← Array.length_toList, entries, List.length_cons, List.length_map, count]
  rw [Pool.addClass_fresh (by rw [entries]; exact not_mem_integers (by simp) (by simp) ints)
    (fun n => by rw [entries]; exact not_mem_integers (by simp) (by simp) ints), size]
  have grown : ((P.push (.utf8 cls)).push (.classRef (65534 % 65536))).entries.toList =
      P.entries.toList ++ [.utf8 cls, .classRef (65534 % 65536)] := by
    simp [Pool.push_entries, Constant.slots, Constant.isWide]
  have fresh : Constant.utf8 s ∉ P.entries.toList ++ [.utf8 cls, .classRef (65534 % 65536)] := by
    rw [List.mem_append, entries]
    rintro (integer | later)
    · exact not_mem_integers (by simp) (by simp) ints integer
    · simp [differ] at later
  rw [Pool.addUtf8, Pool.add_fresh (grown ▸ fresh)]
  refine ⟨?_, fun s' found => ?_⟩
  · -- the count has reached 65536
    rw [Pool.count, ← Array.length_toList, grown, List.length_append, Array.length_toList]
    rw [Pool.count] at size
    rw [size, List.length_cons, List.length_cons, List.length_nil]
  · -- entry 0 stays unusable
    rw [Pool.utf8_eq_ok, Pool.get_eq_ok, ← Array.getElem?_toList, Pool.push_entries, grown,
      entries, List.cons_append, List.cons_append, List.getElem?_cons_zero, Option.some.injEq] at found
    cases found.1

/-- Past the 16-bit count the table loses its name.  In a pool of 65533 integers the owner's
class takes the last two indexes, and the name `StackMapTable` the index 65536, which wraps to
0. -/
theorem stackMapTable_name_wraps :
    ∃ a, assemble ((List.range 65533).foldl (fun p i => (p.addInteger (1000000 + i).toUInt32).1)
        Pool.empty) "T" true [.jump .goto 1, .label 1, .plain .returnVoid] = .ok a ∧
      ∃ t ∈ a.code.attributes, t.nameIndex = 0 ∧ a.pool.utf8 t.nameIndex ≠ .ok "StackMapTable" := by
  have entries := integerPool_entries 1000000 65533 (by decide)
  generalize (List.range 65533).foldl _ Pool.empty = P at entries ⊢
  generalize hcode : ([.jump .goto 1, .label 1, .plain .returnVoid] : List Instr) = code
  -- the stages that read no pool, run once in the empty pool
  have run : (match simulate code ⟨[.object "T"], []⟩ with
      | .ok sim =>
        (lower code sim).all (fun n => n.instr.takesNoConstant) &&
        match layout Pool.empty (lower code sim).toArray ((lower code sim).toArray.size + 1) with
        | .ok (_, placed, length) => (encode placed).isOk && decide (sim.maxLocals ≤ 65535) &&
            decide (sim.maxStack ≤ 65535) &&
            decide (tableFrames length (-1) placed.toList = [⟨3, [.object "T"], []⟩])
        | .error _ => false
      | .error _ => false) = true := by
    subst hcode
    decide +kernel
  split at run
  case h_2 => exact absurd run Bool.false_ne_true
  rename_i sim simulated
  simp only [Bool.and_eq_true, List.all_eq_true] at run
  obtain ⟨free, run⟩ := run
  split at run
  case h_2 => exact absurd run Bool.false_ne_true
  rename_i q placed length laidOut
  simp only [Bool.and_eq_true, decide_eq_true_eq] at run
  obtain ⟨⟨⟨encodes, localsFit⟩, stackFits⟩, frames⟩ := run
  obtain ⟨body, encoded⟩ : ∃ body, encode placed = .ok body := by
    cases h : encode placed with
    | error e => rw [h] at encodes; cases encodes
    | ok body => exact ⟨body, rfl⟩
  obtain ⟨a, assembled, table⟩ : ∃ a, assemble P "T" true code = .ok a ∧ _ :=
    assemble_takesNoConstant simulated free laidOut encoded localsFit stackFits
  refine ⟨a, assembled, ?_⟩
  rw [if_pos rfl] at table
  rcases written : stackMapTable P placed length with ⟨P', _ | t⟩
  · -- there is a frame, at the label
    have none := (stackMapTable_written written).2.1.mp rfl
    rw [frames] at none
    cases none
  rw [written, Prod.mk.injEq] at table
  obtain ⟨rfl, hattrs⟩ := table
  -- the table adds the owner's class for its frame, and then its name
  have named := stackMapTable_named written
  have classes : ([⟨3, [.object "T"], []⟩] : List MapFrame).flatMap MapFrame.classes = ["T"] := rfl
  rw [frames, classes, List.foldl_cons, List.foldl_nil] at named
  obtain ⟨wraps, unnamed⟩ := integerPool_wraps entries
    (by rw [List.length_map, List.length_range]) (show "StackMapTable" ≠ "T" by simp)
  rw [← named] at wraps unnamed
  change t.nameIndex = 0 at wraps
  change ∀ s, a.pool.utf8 0 ≠ .ok s at unnamed
  refine ⟨t, by rw [hattrs]; exact List.mem_singleton_self t, wraps, ?_⟩
  rw [wraps]
  exact unnamed _

end BasicJvm.Bytecode
