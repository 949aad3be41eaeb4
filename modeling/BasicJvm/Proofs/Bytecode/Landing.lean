import BasicJvm.Proofs.Bytecode.Provenance
import BasicJvm.Proofs.Bytecode.Layout

/-!
# Which lowered nodes a branch can land on

Lowering keeps the instructions the simulation reached, in order, with the frames a stack map
needs: a label keeps the frame it was reached with, a conditional branch the frame of the
instruction after it.  After a successful simulation (`Simulated`):

* `lower_frames`: every label node and every conditional branch node has a frame.
* `lower_linked`: a label right after a label or a conditional branch has a frame that agrees
  with the one before it, since the instruction before goes on to it.
* `lower_stops`: right after a `goto`, a `return` or a switch comes a label, since by
  `simulate_provenance` nothing else is reached there.
* `lower_label`: every reached label is kept with the frame it was reached with.

The proofs walk the code from an index on (`lowerFrom`): the nodes of one instruction, then
those of the rest, whose first node belongs to the next reached instruction
(`lowerFrom_head`).
-/

namespace BasicJvm.Bytecode

open BasicJvm

/-! ## Frames that agree -/

theorem Frame.agrees_iff {f g : Frame} :
    f.agrees g = true ↔ trimTop f.locals = trimTop g.locals ∧ f.stack = g.stack := by
  simp [Frame.agrees]

theorem Frame.agrees_refl (f : Frame) : f.agrees f = true :=
  Frame.agrees_iff.mpr ⟨rfl, rfl⟩

theorem Frame.agrees_symm {f g : Frame} (h : f.agrees g = true) : g.agrees f = true := by
  obtain ⟨locals, stack⟩ := Frame.agrees_iff.mp h
  exact Frame.agrees_iff.mpr ⟨locals.symm, stack.symm⟩

theorem Frame.agrees_trans {f g h : Frame} (h₁ : f.agrees g = true) (h₂ : g.agrees h = true) :
    f.agrees h = true := by
  obtain ⟨locals₁, stack₁⟩ := Frame.agrees_iff.mp h₁
  obtain ⟨locals₂, stack₂⟩ := Frame.agrees_iff.mp h₂
  exact Frame.agrees_iff.mpr ⟨locals₁.trans locals₂, stack₁.trans stack₂⟩

/-! ## Kinds of nodes -/

/-- Whether an instruction places a label. -/
def Instr.isLabel : Instr → Bool
  | .label _ => true
  | _ => false

/-- Whether an instruction is a conditional branch. -/
def Instr.isConditional : Instr → Bool
  | .jump op _ => op != .goto
  | _ => false

/-- Whether a lowered instruction never goes on to the next one: `goto`, `return` and the
switches. -/
def Instr.endsFlow : Instr → Bool
  | .jump .goto _ | .plain .returnVoid | .tableSwitch .. | .lookupSwitch .. => true
  | _ => false

@[simp] theorem pushInt_isLabel (v : Int) : (pushInt v).isLabel = false := by
  unfold pushInt
  split_ifs <;> rfl

@[simp] theorem pushInt_isConditional (v : Int) : (pushInt v).isConditional = false := by
  unfold pushInt
  split_ifs <;> rfl

@[simp] theorem pushInt_endsFlow (v : Int) : (pushInt v).endsFlow = false := by
  unfold pushInt
  split_ifs
  · generalize (v + 1).toNat = n
    rcases n with _ | _ | _ | _ | _ | _ | _ | n <;> rfl
  all_goals rfl

theorem Instr.isLabel_iff {instr : Instr} : instr.isLabel = true ↔ ∃ l, instr = .label l := by
  cases instr <;> simp [Instr.isLabel]

/-! ## How the branching instructions transfer -/

section Transfer

variable {f : Frame}

@[simp] theorem transfer_label (l : Label) : transfer (.label l) f = .ok ⟨f, [], true⟩ := rfl

theorem transfer_jump (op : Opcode) (target : Label) :
    transfer (.jump op target) f = if op == .goto then .ok ⟨f, [target], false⟩ else
      (popN .int (if op.code ≤ 0x9e then 1 else 2) f).bind fun f => .ok ⟨f, [target], true⟩ := rfl

@[simp] theorem transfer_gosub (key : Int) (target ret : Label) :
    transfer (.gosub key target ret) f = .ok ⟨f.push .int, [target], false⟩ := rfl

@[simp] theorem transfer_returnVoid : transfer (.plain .returnVoid) f = .ok ⟨f, [], false⟩ := rfl

@[simp] theorem transfer_dispatch (dflt : Label) :
    transfer (.dispatch dflt) f = .error (.unsupported .dispatch) := rfl

theorem transfer_tableSwitch (low : Int) (dflt : Label) (targets : List Label) :
    transfer (.tableSwitch low dflt targets) f =
      (popN .int 1 f).bind fun f => .ok ⟨f, dflt :: targets, false⟩ := rfl

theorem transfer_lookupSwitch (dflt : Label) (keys : List Int) (targets : List Label) :
    transfer (.lookupSwitch dflt keys targets) f = (popN .int 1 f).bind fun f =>
      if keys.length != targets.length then .error (.keysTargets keys.length targets.length)
      else .ok ⟨f, dflt :: targets, false⟩ := rfl

/-- A label and a conditional branch go on to the next instruction. -/
theorem transfer_next_of_kind {instr : Instr} {t : Transfer}
    (kind : (instr.isLabel || instr.isConditional) = true) (ht : transfer instr f = .ok t) :
    t.next = true := by
  cases instr
  case label l =>
    rw [transfer_label, Except.ok.injEq] at ht
    rw [← ht]
  case jump op target =>
    simp only [Instr.isLabel, Instr.isConditional, Bool.false_or, bne_iff_ne, ne_eq] at kind
    rw [transfer_jump, if_neg (by simpa using kind)] at ht
    obtain ⟨f', -, ht⟩ := Except.bind_eq_ok.mp ht
    rw [← Except.ok.inj ht]
  all_goals simp [Instr.isLabel, Instr.isConditional] at kind

end Transfer

/-- A node a branch may land on at the same offset as the node before it (a label after a
label or after a conditional branch) has a frame that agrees with that node's. -/
def Linked (x y : Instr × Option Frame) : Prop :=
  y.1.isLabel = true → (x.1.isLabel || x.1.isConditional) = true →
    ∃ f g, x.2 = some f ∧ y.2 = some g ∧ f.agrees g = true

/-- After a node that never goes on comes a label. -/
def StopsBefore (x y : Instr × Option Frame) : Prop :=
  x.1.endsFlow = true → y.1.isLabel = true

/-! ## A successful simulation -/

/-- What a successful simulation of `code` leaves: the invariant with nothing left to do, the
code and its labels, and where every frame came from. -/
structure Simulated (code : List Instr) (sim : Simulation) : Prop where
  inv : sim.Invariant
  done : sim.work = []
  instrs : sim.code = code.toArray
  labels : labelIndexes code = .ok sim.labels
  provenance : sim.Provenance

theorem simulate_simulated {code : List Instr} {entry : Frame} {sim : Simulation}
    (h : simulate code entry = .ok sim) : Simulated code sim := by
  obtain ⟨inv, done, hcode, labels, -⟩ := simulate_settled h
  exact ⟨inv, done, hcode, labels, simulate_provenance h⟩

namespace Simulated

variable {code : List Instr} {sim : Simulation} (S : Simulated code sim)
include S

/-- Only instructions of the code are reached. -/
theorem lt_length {j : Nat} {f : Frame} (reached : sim.frameAt j = some f) : j < code.length := by
  have sized : sim.incoming.size = code.length := by
    rw [S.inv.sized, S.instrs, List.size_toArray]
  by_contra outside
  have beyond : sim.incoming.size ≤ j := by omega
  simp only [Simulation.frameAt, Array.getD_eq_getD_getElem?, Array.getElem?_eq_none beyond,
    Option.getD_none] at reached
  cases reached

theorem instr_eq {j : Nat} (inside : j < code.length) : sim.code.getD j default = code[j] := by
  simp [S.instrs, Array.getD_eq_getD_getElem?, inside]

/-- A reached instruction that is not a `dispatch` has been stepped: it succeeded, and the
next instruction was reached with a frame that agrees, if it goes on. -/
theorem follows {j : Nat} (inside : j < code.length) {f : Frame} (reached : sim.frameAt j = some f)
    (notDispatch : ∀ d, code[j] ≠ .dispatch d) : sim.Follows j code[j] f := by
  have settled := S.inv.settled j f reached (by simp [S.done])
  unfold Simulation.Settled at settled
  rw [S.instr_eq inside] at settled
  split at settled
  · rename_i d hd
    exact absurd hd (notDispatch d)
  · exact settled

/-- A reached instruction that goes on reaches the next one, with a frame that agrees with
the frame after it. -/
theorem next_reached {j : Nat} (inside : j < code.length) {f : Frame}
    (reached : sim.frameAt j = some f) (notDispatch : ∀ d, code[j] ≠ .dispatch d)
    (goes : ∀ t, transfer code[j] f = .ok t → t.next = true) :
    ∃ t g, transfer code[j] f = .ok t ∧ j + 1 < code.length ∧
      sim.frameAt (j + 1) = some g ∧ g.agrees t.frame = true := by
  obtain ⟨⟨t, ht, -, next⟩, -⟩ := S.follows inside reached notDispatch
  obtain ⟨inside', g, hg, agrees⟩ := next (goes t ht)
  rw [S.instrs, List.size_toArray] at inside'
  exact ⟨t, g, ht, inside', hg, agrees⟩

end Simulated

/-! ## The nodes of one instruction -/

section LowerAt

variable {code : List Instr} {sim : Simulation} {instr : Instr} {k : Nat}

theorem lowerAt_unreached (h : sim.frameAt k = none) : lowerAt code sim instr k = [] := by
  unfold lowerAt
  rw [show sim.incoming.getD k none = sim.frameAt k from rfl, h]

theorem lowerAt_ne_nil {f : Frame} (h : sim.frameAt k = some f) : lowerAt code sim instr k ≠ [] := by
  unfold lowerAt
  rw [show sim.incoming.getD k none = sim.frameAt k from rfl, h]
  cases instr <;> simp only [ne_eq, reduceCtorEq, not_false_eq_true]
  case jump => split <;> simp

/-- A node lowered from instruction `k` comes from a reached instruction; a label node is the
label with the frame it was reached with, a conditional branch node is the branch with the
frame of the next instruction. -/
theorem mem_lowerAt {x : Node} (hx : x ∈ lowerAt code sim instr k) :
    (∃ f, sim.frameAt k = some f) ∧
    (x.instr.isLabel = true → x.instr = instr ∧ x.frame = sim.frameAt k) ∧
    (x.instr.isConditional = true → x.instr = instr ∧
      x.frame = if k + 1 < code.length then sim.frameAt (k + 1) else none) ∧
    (instr.isLabel = true → x.instr = instr) := by
  unfold lowerAt at hx
  rw [show sim.incoming.getD k none = sim.frameAt k from rfl] at hx
  cases reached : sim.frameAt k with
  | none => simp [reached] at hx
  | some f =>
    rw [reached] at hx
    refine ⟨⟨f, rfl⟩, ?_⟩
    cases instr
    all_goals dsimp only at hx
    case gosub key target ret =>
      simp only [List.mem_cons, List.not_mem_nil, or_false] at hx
      rcases hx with rfl | rfl
      · exact ⟨by simp [Node.ofInstr], by simp [Node.ofInstr], by simp [Instr.isLabel]⟩
      · simp [Node.ofInstr, Instr.isLabel, Instr.isConditional]
    case jump op target =>
      split at hx
      · rename_i conditional
        simp only [List.mem_cons, List.not_mem_nil, or_false] at hx
        subst hx
        simp only [Bool.and_eq_true, bne_iff_ne, ne_eq, decide_eq_true_eq] at conditional
        simp [Node.ofInstr, Instr.isLabel, conditional.2, Simulation.frameAt]
      · rename_i unconditional
        simp only [List.mem_cons, List.not_mem_nil, or_false] at hx
        subst hx
        simp only [Bool.and_eq_true, bne_iff_ne, ne_eq, decide_eq_true_eq, not_and] at unconditional
        simp only [Node.ofInstr, Instr.isLabel, Instr.isConditional, bne_iff_ne, ne_eq]
        refine ⟨by simp, fun conditional => ?_, by simp⟩
        simp [unconditional conditional]
    all_goals
      simp only [List.mem_cons, List.not_mem_nil, or_false] at hx
      subst hx
      simp [Node.ofInstr, Instr.isLabel, Instr.isConditional]

/-- The nodes of one instruction are linked, and a node that never goes on is never followed
by another of the same instruction. -/
theorem lowerAt_chains :
    ((lowerAt code sim instr k).map Node.shape).IsChain Linked ∧
      ((lowerAt code sim instr k).map Node.shape).IsChain StopsBefore := by
  unfold lowerAt
  split
  · exact ⟨.nil, .nil⟩
  cases instr
  all_goals dsimp only
  case gosub key target ret =>
    simp only [List.map_cons, List.map_nil, List.isChain_pair]
    refine ⟨fun labelled => ?_, fun ends => ?_⟩
    · simp [Node.shape, Node.ofInstr, Instr.isLabel] at labelled
    · simp [Node.shape, Node.ofInstr] at ends
  case jump => split <;> exact ⟨.singleton _, .singleton _⟩
  all_goals exact ⟨.singleton _, .singleton _⟩

/-- Every instruction but a `gosub` or a `dispatch` is lowered to itself. -/
theorem lowerAt_instr {x : Node} (hx : x ∈ lowerAt code sim instr k)
    (notGosub : ∀ key target ret, instr ≠ .gosub key target ret)
    (notDispatch : ∀ d, instr ≠ .dispatch d) : x.instr = instr := by
  unfold lowerAt at hx
  split at hx
  · simp at hx
  cases instr
  case gosub key target ret => exact absurd rfl (notGosub key target ret)
  case dispatch d => exact absurd rfl (notDispatch d)
  case jump =>
    dsimp only at hx
    split at hx <;> simp only [List.mem_cons, List.not_mem_nil, or_false] at hx <;> rw [hx] <;> rfl
  all_goals
    simp only [List.mem_cons, List.not_mem_nil, or_false] at hx
    rw [hx]
    rfl

theorem Instr.endsFlow_plain {op : Opcode} (h : (Instr.plain op).endsFlow = true) :
    op = .returnVoid := by
  unfold Instr.endsFlow at h
  split at h <;> simp_all

theorem Instr.endsFlow_jump {op : Opcode} {target : Label} (h : (Instr.jump op target).endsFlow = true) :
    op = .goto := by
  unfold Instr.endsFlow at h
  split at h <;> simp_all

/-- An instruction lowered to a node that never goes on does not go on itself. -/
theorem lowerAt_stops {x : Node} (hx : x ∈ lowerAt code sim instr k) (ends : x.instr.endsFlow)
    {f : Frame} {t : Transfer} (ht : transfer instr f = .ok t) : t.next = false := by
  cases instr
  case gosub key target ret =>
    rw [transfer_gosub, Except.ok.injEq] at ht
    rw [← ht]
  case dispatch dflt =>
    rw [transfer_dispatch] at ht
    cases ht
  case tableSwitch low dflt targets =>
    rw [transfer_tableSwitch] at ht
    obtain ⟨f', -, ht⟩ := Except.bind_eq_ok.mp ht
    rw [← Except.ok.inj ht]
  case lookupSwitch dflt keys targets =>
    rw [transfer_lookupSwitch] at ht
    obtain ⟨f', -, ht⟩ := Except.bind_eq_ok.mp ht
    split at ht
    · cases ht
    · rw [← Except.ok.inj ht]
  all_goals
    have same := lowerAt_instr hx (by simp) (by simp)
    rw [same] at ends
  case jump op target =>
    obtain rfl := Instr.endsFlow_jump ends
    rw [transfer_jump, if_pos (beq_self_eq_true _), Except.ok.injEq] at ht
    rw [← ht]
  case plain op =>
    obtain rfl := Instr.endsFlow_plain ends
    rw [transfer_returnVoid, Except.ok.injEq] at ht
    rw [← ht]
  all_goals simp [Instr.endsFlow] at ends

end LowerAt

/-! ## The nodes from an index on -/

/-- The nodes lowered from the instructions from index `k` on. -/
def lowerFrom (code : List Instr) (sim : Simulation) (k : Nat) : List Node :=
  ((code.drop k).zipIdx k).flatMap fun (instr, i) => lowerAt code sim instr i

section LowerFrom

variable {code : List Instr} {sim : Simulation}

theorem lowerFrom_of_lt {k : Nat} (inside : k < code.length) :
    lowerFrom code sim k = lowerAt code sim code[k] k ++ lowerFrom code sim (k + 1) := by
  unfold lowerFrom
  rw [List.drop_eq_getElem_cons inside, List.zipIdx_cons, List.flatMap_cons]

theorem lowerFrom_of_le {k : Nat} (outside : code.length ≤ k) : lowerFrom code sim k = [] := by
  simp [lowerFrom, List.drop_eq_nil_of_le outside]

/-- The first node from index `k` on is the first of the next reached instruction: every
instruction before it, from `k` on, was not reached. -/
theorem lowerFrom_head (k : Nat) {y : Node} (h : (lowerFrom code sim k).head? = some y) :
    ∃ m, ∃ inside : m < code.length, k ≤ m ∧ (∀ j, k ≤ j → j < m → sim.frameAt j = none) ∧
      y ∈ lowerAt code sim code[m] m := by
  by_cases inside : k < code.length
  · rw [lowerFrom_of_lt inside] at h
    cases here : lowerAt code sim code[k] k with
    | nil =>
      rw [here, List.nil_append] at h
      obtain ⟨m, hm, later, skipped, hy⟩ := lowerFrom_head (k + 1) h
      refine ⟨m, hm, by omega, fun j low high => ?_, hy⟩
      by_cases atK : j = k
      · subst atK
        cases reached : sim.frameAt j with
        | none => rfl
        | some f => exact absurd here (lowerAt_ne_nil reached)
      · exact skipped j (by omega) high
    | cons x xs =>
      rw [here, List.cons_append, List.head?_cons, Option.some.injEq] at h
      subst h
      exact ⟨k, inside, Nat.le_refl k, fun j low high => absurd high (by omega), by simp [here]⟩
  · rw [lowerFrom_of_le (by omega)] at h
    cases h
termination_by code.length - k

/-- A relation holds between all neighbouring nodes from index `k` on when it holds within the
nodes of each instruction, and from every node of an instruction to the first node after
them. -/
theorem lowerFrom_chain {R : Instr × Option Frame → Instr × Option Frame → Prop}
    (within : ∀ instr k, ((lowerAt code sim instr k).map Node.shape).IsChain R)
    (across : ∀ k (inside : k < code.length) {xn yn : Node}, xn ∈ lowerAt code sim code[k] k →
      (lowerFrom code sim (k + 1)).head? = some yn → R xn.shape yn.shape) :
    ∀ k, ((lowerFrom code sim k).map Node.shape).IsChain R := by
  intro k
  by_cases inside : k < code.length
  · rw [lowerFrom_of_lt inside, List.map_append, List.isChain_append]
    refine ⟨within _ k, lowerFrom_chain within across (k + 1), ?_⟩
    intro x hx y hy
    rw [List.getLast?_map] at hx
    rw [List.head?_map] at hy
    obtain ⟨xn, hxn, rfl⟩ := Option.map_eq_some_iff.mp hx
    obtain ⟨yn, hyn, rfl⟩ := Option.map_eq_some_iff.mp hy
    exact across k inside (List.mem_of_getLast? hxn) hyn
  · rw [lowerFrom_of_le (by omega)]
    simp
termination_by k => code.length - k

/-- Every reached label is kept, with the frame it was reached with. -/
theorem lower_label {j : Nat} {l : Label} {f : Frame} (placed : code[j]? = some (.label l))
    (reached : sim.frameAt j = some f) : (Instr.label l, some f) ∈ (lower code sim).map Node.shape := by
  refine List.mem_map.mpr ⟨.ofInstr (.label l) (some f), List.mem_flatMap.mpr
    ⟨(.label l, j), List.mem_zipIdx_iff_getElem?.mpr placed, ?_⟩, rfl⟩
  simp [lowerAt, show sim.incoming.getD j none = sim.frameAt j from rfl, reached]

variable (S : Simulated code sim)
include S

/-- The first node after a label or a conditional branch is a label only if it is the label
of the next instruction, which the branch goes on to with a frame that agrees. -/
theorem linked_across (k : Nat) (inside : k < code.length) {xn yn : Node}
    (hxn : xn ∈ lowerAt code sim code[k] k) (hyn : (lowerFrom code sim (k + 1)).head? = some yn) :
    Linked xn.shape yn.shape := by
  intro labelled before
  simp only [Node.shape, Bool.or_eq_true] at labelled before ⊢
  obtain ⟨⟨f, reached⟩, asLabel, asBranch, -⟩ := mem_lowerAt hxn
  have kind : (code[k].isLabel || code[k].isConditional) = true := by
    rcases before with isLabel | isConditional
    · simp [← (asLabel isLabel).1, isLabel]
    · simp [← (asBranch isConditional).1, isConditional]
  obtain ⟨t, g, ht, next, hg, agrees⟩ := S.next_reached inside reached
    (fun d hd => by simp [hd, Instr.isLabel, Instr.isConditional] at kind)
    (fun t ht => transfer_next_of_kind kind ht)
  -- the first node after instruction `k` is the label of `k + 1`
  obtain ⟨m, hm, later, skipped, hym⟩ := lowerFrom_head (k + 1) hyn
  have hmk : m = k + 1 := by
    by_contra apart
    rw [skipped (k + 1) (Nat.le_refl _) (by omega)] at hg
    cases hg
  subst hmk
  obtain ⟨-, yLabel, -, -⟩ := mem_lowerAt hym
  have yFrame := (yLabel labelled).2
  rw [hg] at yFrame
  rcases before with isLabel | isConditional
  · -- a label goes on with the frame it was reached with
    obtain ⟨same, xFrame⟩ := asLabel isLabel
    obtain ⟨l, hl⟩ := Instr.isLabel_iff.mp isLabel
    rw [← same, hl, transfer_label, Except.ok.injEq] at ht
    subst ht
    exact ⟨f, g, xFrame.trans reached, yFrame, Frame.agrees_symm agrees⟩
  · -- a conditional branch keeps the frame of the next instruction
    obtain ⟨-, xFrame⟩ := asBranch isConditional
    rw [if_pos next, hg] at xFrame
    exact ⟨g, g, xFrame, yFrame, Frame.agrees_refl g⟩

/-- The first node after a `goto`, a `return` or a switch is a label: the instruction it
belongs to was reached, and not from the one before, which does not go on. -/
theorem stops_across (k : Nat) (inside : k < code.length) {xn yn : Node}
    (hxn : xn ∈ lowerAt code sim code[k] k) (hyn : (lowerFrom code sim (k + 1)).head? = some yn) :
    StopsBefore xn.shape yn.shape := by
  intro ends
  simp only [Node.shape] at ends ⊢
  obtain ⟨m, hm, later, skipped, hym⟩ := lowerFrom_head (k + 1) hyn
  obtain ⟨⟨g, reachedM⟩, -, -, keeps⟩ := mem_lowerAt hym
  rcases S.provenance m g reachedM with zero | ⟨l, hl⟩ | ⟨i, f, rfl, reachedI, t, ht, next⟩
  · omega
  · -- a label is reached through its name
    have placed := labelIndexes_lookup S.labels hl
    rw [List.getElem?_eq_getElem hm, Option.some.injEq] at placed
    rw [keeps (by simp [placed, Instr.isLabel]), placed]
    rfl
  · -- the instruction before it is `k`, which does not go on
    have hik : i = k := by
      by_contra apart
      rw [skipped i (by omega) (by omega)] at reachedI
      cases reachedI
    subst hik
    rw [S.instr_eq inside] at ht
    rw [lowerAt_stops hxn ends ht] at next
    cases next

theorem lower_linked : ((lower code sim).map Node.shape).IsChain Linked :=
  lowerFrom_chain (fun _ _ => lowerAt_chains.1) (linked_across S) 0

theorem lower_stops : ((lower code sim).map Node.shape).IsChain StopsBefore :=
  lowerFrom_chain (fun _ _ => lowerAt_chains.2) (stops_across S) 0

/-- Every label node and every conditional branch node has a frame. -/
theorem lower_frames {x : Node} (hx : x ∈ lower code sim)
    (kind : (x.instr.isLabel || x.instr.isConditional) = true) : ∃ f, x.frame = some f := by
  obtain ⟨⟨instr, k⟩, hk, hxk⟩ := List.mem_flatMap.mp hx
  have inCode := List.mem_zipIdx_iff_getElem?.mp hk
  have inside : k < code.length := (List.getElem?_eq_some_iff.mp inCode).1
  rw [List.getElem?_eq_getElem inside, Option.some.injEq] at inCode
  subst inCode
  obtain ⟨⟨f, reached⟩, asLabel, asBranch, -⟩ := mem_lowerAt hxk
  simp only [Bool.or_eq_true] at kind
  rcases kind with isLabel | isConditional
  · exact ⟨f, (asLabel isLabel).2.trans reached⟩
  · obtain ⟨same, xFrame⟩ := asBranch isConditional
    have kind : (code[k].isLabel || code[k].isConditional) = true := by
      simp [← same, isConditional]
    obtain ⟨t, g, -, next, hg, -⟩ := S.next_reached inside reached
      (fun d hd => by simp [hd, Instr.isLabel, Instr.isConditional] at kind)
      (fun t ht => transfer_next_of_kind kind ht)
    rw [if_pos next, hg] at xFrame
    exact ⟨g, xFrame⟩

end LowerFrom

end BasicJvm.Bytecode
