import BasicJvm.Proofs.Bytecode.Certificate
import BasicJvm.Proofs.Bytecode.Dispatch

/-!
# Widening branches until layout settles

Layout repeats a pass: place every node, then widen every branch that cannot reach its target
with a 16-bit displacement.  A pass that widens makes at least one branch wide and none narrow
again, so the branches not yet wide (`narrowBranches`) measure the passes left:

* `layout_stable`: once the branches left to widen are at most the passes left, more passes
  change nothing;
* `layout_checked`: with more passes than that, the pass layout stops at widens nothing.

Lowered code has every branch and switch going to a label it keeps (`lower_targets`), and
encoding writes every placed node to exactly its size as long as its targets are placed and a
branch not made wide reaches (`encode_placed`).  `layout_settles_encodes` puts these together:
after at most as many passes as the code has branches, layout gives nodes that need no more
widening and that encode, node by node, to the sizes they were laid out with.
-/

namespace BasicJvm.Bytecode

open BasicJvm.ClassFile

/-! ## Branches left to widen -/

/-- Whether an instruction is a branch to one label. -/
def Instr.isJump : Instr → Bool
  | .jump .. => true
  | _ => false

/-- The branches of a list of nodes. -/
def branchCount (nodes : List Node) : Nat :=
  nodes.countP fun n => n.instr.isJump

/-- The branches of a list of nodes that are not wide yet. -/
def narrowBranches (nodes : List Node) : Nat :=
  nodes.countP fun n => n.instr.isJump && !n.wide

/-- What a widening pass does to one node: a branch not yet wide whose target is out of reach
of a 16-bit displacement is made wide, and the flag says that it was. -/
def widenNode (labels : List (Label × Nat)) (n : Node) : Except AsmError (Node × Bool) :=
  match n.instr with
  | .jump _ target =>
    if n.wide then pure (n, false) else do
      let dest ← offsetOf labels target
      if fitsShort ((dest : Int) - n.offset) then pure (n, false)
      else pure ({ n with wide := true }, true)
  | _ => pure (n, false)

theorem narrowBranches_eq_branchCount {nodes : List Node} (narrow : ∀ n ∈ nodes, n.wide = false) :
    narrowBranches nodes = branchCount nodes :=
  List.countP_congr fun n hn => by simp [narrow n hn]

/-- Placing keeps which nodes are branches not yet wide. -/
theorem Placed.narrowBranches_eq {p p' : Pool} {pc stop : Nat} {ns placed : List Node}
    (h : Placed p pc ns p' placed stop) : narrowBranches placed = narrowBranches ns := by
  induction h with
  | nil => rfl
  | cons _ _ ih =>
    simp only [narrowBranches, List.countP_cons] at ih ⊢
    rw [ih]

/-! ## One widening pass -/

section WidenNode

variable {labels : List (Label × Nat)} {n m : Node} {b : Bool}

/-- A node a pass leaves as it is, or a branch not yet wide that it makes wide. -/
theorem widenNode_cases (h : widenNode labels n = .ok (m, b)) :
    (m = n ∧ b = false) ∨
      (m = { n with wide := true } ∧ b = true ∧ n.instr.isJump = true ∧ n.wide = false) := by
  unfold widenNode at h
  split at h
  · rename_i op target isJump
    split at h
    · exact .inl (Prod.mk.inj (Except.ok.inj h).symm)
    · rename_i narrow
      obtain ⟨dest, -, h⟩ := Except.bind_eq_ok.mp h
      split at h
      · exact .inl (Prod.mk.inj (Except.ok.inj h).symm)
      · obtain ⟨rfl, rfl⟩ := Prod.mk.inj (Except.ok.inj h).symm
        exact .inr ⟨rfl, rfl, by simp [isJump, Instr.isJump], by simpa using narrow⟩
  · exact .inl (Prod.mk.inj (Except.ok.inj h).symm)

/-- A branch not yet wide that a pass leaves as it is reaches its target. -/
theorem widenNode_reaches (h : widenNode labels n = .ok (m, false)) {op : Opcode} {t : Label}
    (isJump : n.instr = .jump op t) (narrow : n.wide = false) :
    ∃ o, labels.lookup t = some o ∧ fitsShort ((o : Int) - n.offset) = true := by
  unfold widenNode at h
  rw [isJump] at h
  simp only [narrow, Bool.false_eq_true, if_false] at h
  obtain ⟨dest, found, h⟩ := Except.bind_eq_ok.mp h
  unfold offsetOf at found
  split at found
  · rename_i o lookedUp
    cases found
    split at h
    · exact ⟨dest, lookedUp, by assumption⟩
    · cases Prod.mk.inj (Except.ok.inj h)
      contradiction
  · cases found

/-- A pass leaves every node that is not a branch left to widen as it is. -/
theorem widenNode_of_not_narrow (free : (n.instr.isJump && !n.wide) = false) :
    widenNode labels n = .ok (n, false) := by
  unfold widenNode
  split
  · rename_i isJump
    simp only [isJump, Instr.isJump, Bool.true_and, Bool.not_eq_false'] at free
    rw [if_pos free]
    rfl
  · rfl

end WidenNode

/-- A fold that pushes what `g` gives for each node, and notes whether `g` flagged any, is `g`
mapped over the nodes. -/
theorem foldlM_push_eq_mapM {g : Node → Except AsmError (Node × Bool)}
    {f : Array Node × Bool → Node → Except AsmError (Array Node × Bool)}
    (step : ∀ acc b n, f (acc, b) n = (g n).map fun r => (acc.push r.1, b || r.2)) :
    ∀ (ns : List Node) (acc : Array Node) (b : Bool),
      ns.foldlM f (acc, b) =
        (ns.mapM g).map fun rs => (acc ++ (rs.map Prod.fst).toArray, b || rs.any Prod.snd)
  | [], acc, b => by simp [pure, Except.pure, Except.map]
  | n :: ns, acc, b => by
    rw [List.foldlM_cons, step, List.mapM_cons]
    cases g n with
    | error e => rfl
    | ok r =>
      simp only [Except.map, Except.ok_bind]
      rw [foldlM_push_eq_mapM step ns]
      cases ns.mapM g with
      | error e => rfl
      | ok rs => simp [Except.map, Bool.or_assoc]

/-- A widening pass is `widenNode` over the nodes, against the labels where they are. -/
theorem widen_eq (nodes : Array Node) :
    widen nodes = (nodes.toList.mapM (widenNode (labelOffsets nodes))).map
      fun rs => ((rs.map Prod.fst).toArray, rs.any Prod.snd) := by
  unfold widen
  rw [← Array.foldlM_toList, foldlM_push_eq_mapM (g := widenNode (labelOffsets nodes))]
  · simp
  · intro acc b n
    unfold widenNode
    dsimp only
    cases n.instr
    case jump op target =>
      dsimp only
      split
      · simp [Except.map]
      · cases offsetOf (labelOffsets nodes) target with
        | error e => rfl
        | ok dest =>
          simp only [Except.ok_bind]
          split <;> simp [Except.map]
    all_goals simp [Except.map]

/-- A widening pass that succeeded: one node for each node, by `widenNode`. -/
theorem widen_eq_ok {nodes widened : Array Node} {changed : Bool}
    (h : widen nodes = .ok (widened, changed)) :
    ∃ rs, List.Forall₂ (fun n r => widenNode (labelOffsets nodes) n = .ok r) nodes.toList rs ∧
      widened = (rs.map Prod.fst).toArray ∧ changed = rs.any Prod.snd := by
  rw [widen_eq] at h
  cases mapped : nodes.toList.mapM (widenNode (labelOffsets nodes)) with
  | error e => simp [mapped, Except.map] at h
  | ok rs =>
    simp only [mapped, Except.map, Except.ok.injEq, Prod.mk.injEq] at h
    exact ⟨rs, List.mapM_eq_ok.mp mapped, h.1.symm, h.2.symm⟩

/-- Each node a pass flags is a branch it made wide, so a pass that widens leaves fewer branches
to widen. -/
theorem narrowBranches_forall₂ {labels : List (Label × Nat)} {ns : List Node}
    {rs : List (Node × Bool)} (each : List.Forall₂ (fun n r => widenNode labels n = .ok r) ns rs) :
    narrowBranches (rs.map Prod.fst) + (if rs.any Prod.snd then 1 else 0) ≤ narrowBranches ns := by
  induction each with
  | nil => simp [narrowBranches]
  | @cons n r ns rs here _ ih =>
    obtain ⟨m, b⟩ := r
    simp only [narrowBranches, List.map_cons, List.countP_cons, List.any_cons] at ih ⊢
    rcases widenNode_cases here with ⟨rfl, rfl⟩ | ⟨rfl, rfl, isJump, narrow⟩
    · simp only [Bool.false_or]
      omega
    · -- the node was a branch to widen, and is one no more
      simp only [isJump, narrow, Bool.not_false, Bool.and_self, if_true, Bool.not_true,
        Bool.and_false, Bool.true_or, Bool.false_eq_true, if_false]
      omega

/-- The nodes of a pass that flagged none are the nodes it was given. -/
theorem unflagged_forall₂ {labels : List (Label × Nat)} {ns : List Node} {rs : List (Node × Bool)}
    (each : List.Forall₂ (fun n r => widenNode labels n = .ok r) ns rs)
    (unflagged : rs.any Prod.snd = false) : rs = ns.map fun n => (n, false) := by
  induction each with
  | nil => rfl
  | @cons n r ns rs here _ ih =>
    obtain ⟨m, b⟩ := r
    simp only [List.any_cons, Bool.or_eq_false_iff] at unflagged
    obtain ⟨flag, rest⟩ := unflagged
    rcases widenNode_cases here with ⟨rfl, -⟩ | ⟨-, rfl, -⟩
    · rw [List.map_cons, ih rest, show b = false from flag]
    · cases flag

/-- A pass that widens leaves fewer branches to widen, and none is narrowed again. -/
theorem narrowBranches_widen {nodes widened : Array Node} {changed : Bool}
    (h : widen nodes = .ok (widened, changed)) :
    narrowBranches widened.toList + (if changed then 1 else 0) ≤ narrowBranches nodes.toList := by
  obtain ⟨rs, each, rfl, rfl⟩ := widen_eq_ok h
  simpa using narrowBranches_forall₂ each

/-- A pass that widens nothing leaves the nodes as they are, and then every branch not wide
reaches its target with a 16-bit displacement. -/
theorem widen_unchanged {nodes widened : Array Node} (h : widen nodes = .ok (widened, false)) :
    widened = nodes ∧ ∀ n ∈ nodes.toList, ∀ op t, n.instr = .jump op t → n.wide = false →
      ∃ o, (labelOffsets nodes).lookup t = some o ∧ fitsShort ((o : Int) - n.offset) = true := by
  obtain ⟨rs, each, rfl, none⟩ := widen_eq_ok h
  have same := unflagged_forall₂ each none.symm
  subst same
  have kept := List.forall₂_same.mp (List.forall₂_map_right_iff.mp each)
  refine ⟨by simp [Function.comp_def], fun n hn op t isJump narrow => ?_⟩
  exact widenNode_reaches (kept n hn) isJump narrow

/-- A pass over nodes with no branch left to widen widens nothing. -/
theorem widen_of_narrowBranches_eq_zero {nodes : Array Node} (zero : narrowBranches nodes.toList = 0) :
    widen nodes = .ok (nodes, false) := by
  have free : ∀ n ∈ nodes.toList, (n.instr.isJump && !n.wide) = false := by
    intro n hn
    simpa using List.countP_eq_zero.mp zero n hn
  have mapped : nodes.toList.mapM (widenNode (labelOffsets nodes)) =
      .ok (nodes.toList.map fun n => (n, false)) := by
    refine List.mapM_eq_ok.mpr (List.forall₂_map_right_iff.mpr (List.forall₂_same.mpr ?_))
    intro n hn
    exact widenNode_of_not_narrow (free n hn)
  rw [widen_eq, mapped]
  simp [Except.map, Function.comp_def]

/-! ## The layout passes -/

/-- Once the branches left to widen are at most the passes left, more passes change nothing:
each pass that widens leaves one branch fewer, and a pass over no branch to widen keeps its
nodes. -/
theorem layout_stable : ∀ (fuel : Nat) {pool : Pool} {nodes : Array Node} {fuel' : Nat},
    narrowBranches nodes.toList ≤ fuel → fuel ≤ fuel' →
      layout pool nodes fuel' = layout pool nodes fuel
  | 0, _, _, 0, _, _ => rfl
  | 0, pool, nodes, fuel' + 1, few, _ => by
    unfold layout
    rcases placedOnce : place pool nodes with e | ⟨q, placed, length⟩
    · rfl
    have zero : narrowBranches placed.toList = 0 := by
      rw [(place_placed placedOnce).1.narrowBranches_eq]
      omega
    simp only [Except.ok_bind, widen_of_narrowBranches_eq_zero zero]
    rfl
  | fuel + 1, _, _, 0, _, more => absurd more (by omega)
  | fuel + 1, pool, nodes, fuel' + 1, few, more => by
    unfold layout
    rcases placedOnce : place pool nodes with e | ⟨q, placed, length⟩
    · rfl
    simp only [Except.ok_bind]
    rcases widenedOnce : widen placed with e | ⟨widened, changed⟩
    · rfl
    simp only [Except.ok_bind]
    split
    · -- the pass widened a branch, so one branch fewer is left for the passes after it
      rename_i widenedSome
      have fewer := narrowBranches_widen widenedOnce
      rw [if_pos widenedSome, (place_placed placedOnce).1.narrowBranches_eq] at fewer
      exact layout_stable fuel (by omega) (by omega)
    · rfl

/-- With more passes than branches left to widen, the pass layout stops at widens nothing. -/
theorem layout_checked : ∀ (fuel : Nat) {pool pool' : Pool} {nodes placed : Array Node}
    {length : Nat}, narrowBranches nodes.toList < fuel →
      layout pool nodes fuel = .ok (pool', placed, length) → widen placed = .ok (placed, false)
  | 0, _, _, _, _, _, few, _ => absurd few (by omega)
  | fuel + 1, pool, pool', nodes, placed, length, few, h => by
    unfold layout at h
    obtain ⟨⟨q, placed₁, length₁⟩, placedOnce, h⟩ := Except.bind_eq_ok.mp h
    obtain ⟨⟨widened, changed⟩, widenedOnce, h⟩ := Except.bind_eq_ok.mp h
    dsimp only at h
    split at h
    · rename_i widenedSome
      have fewer := narrowBranches_widen widenedOnce
      rw [if_pos widenedSome, (place_placed placedOnce).1.narrowBranches_eq] at fewer
      exact layout_checked fuel (by omega) h
    · rename_i widenedNone
      simp only [Bool.not_eq_true] at widenedNone
      subst widenedNone
      simp only [pure, Except.pure, Except.ok.injEq, Prod.mk.injEq] at h
      obtain ⟨-, rfl, -⟩ := h
      rw [widenedOnce, (widen_unchanged widenedOnce).1]

/-! ## Where lowered branches go -/

theorem Instr.labels_pushInt (v : Int) : (pushInt v).labels = [] := by
  unfold pushInt
  split_ifs <;> rfl

/-- The labels an instruction other than a `gosub` names are where its transfer goes. -/
theorem mem_targets_of_labels {instr : Instr} {f : Frame} {t : Transfer}
    (ht : transfer instr f = .ok t) (notGosub : ∀ key target ret, instr ≠ .gosub key target ret)
    {l : Label} (hl : l ∈ instr.labels) : l ∈ t.targets := by
  cases instr
  case jump op target =>
    rw [transfer_jump] at ht
    split at ht
    · cases ht
      exact hl
    · obtain ⟨f', -, ht⟩ := Except.bind_eq_ok.mp ht
      cases ht
      exact hl
  case tableSwitch low dflt targets =>
    rw [transfer_tableSwitch] at ht
    obtain ⟨f', -, ht⟩ := Except.bind_eq_ok.mp ht
    cases ht
    exact hl
  case lookupSwitch dflt keys targets =>
    rw [transfer_lookupSwitch] at ht
    obtain ⟨f', -, ht⟩ := Except.bind_eq_ok.mp ht
    split at ht
    · cases ht
    · cases ht
      exact hl
  case gosub key target ret => exact absurd rfl (notGosub key target ret)
  case dispatch dflt => simp at ht
  all_goals simp [Instr.labels] at hl

/-- A `lookupswitch` the simulation steps has as many keys as targets. -/
theorem transfer_lookupSwitch_keys {dflt : Label} {keys : List Int} {targets : List Label}
    {f : Frame} {t : Transfer} (ht : transfer (.lookupSwitch dflt keys targets) f = .ok t) :
    keys.length = targets.length := by
  rw [transfer_lookupSwitch] at ht
  obtain ⟨f', -, ht⟩ := Except.bind_eq_ok.mp ht
  split at ht
  · cases ht
  · rename_i same
    simpa using same

section Lowered

variable {code : List Instr} {sim : Simulation} (S : Simulated code sim)
include S

/-- A label the simulation brought a frame to is kept by lowering. -/
theorem Simulated.reaches_lowered {l : Label} {f : Frame} (h : sim.Reaches l f) :
    ∃ m ∈ lower code sim, m.instr = .label l := by
  obtain ⟨j, found, -, g, reached, -⟩ := h
  obtain ⟨m, hm, same⟩ := List.mem_map.mp (lower_label (labelIndexes_lookup S.labels found) reached)
  exact ⟨m, hm, congrArg Prod.fst same⟩

/-- Every lowered node branches only to labels the simulation brought a frame to, and a lowered
`lookupswitch` has as many keys as targets. -/
theorem lower_branches {x : Node} (hx : x ∈ lower code sim) :
    (∀ l ∈ x.instr.labels, ∃ g, sim.Reaches l g) ∧
      ∀ dflt keys targets, x.instr = .lookupSwitch dflt keys targets →
        keys.length = targets.length := by
  obtain ⟨⟨instr, k⟩, hk, hxk⟩ := List.mem_flatMap.mp hx
  have inCode := List.mem_zipIdx_iff_getElem?.mp hk
  have inside : k < code.length := (List.getElem?_eq_some_iff.mp inCode).1
  rw [List.getElem?_eq_getElem inside, Option.some.injEq] at inCode
  subst inCode
  obtain ⟨⟨f, reached⟩, -⟩ := mem_lowerAt hxk
  cases hi : code[k] with
  | gosub key target ret =>
    -- the push of the key, and a `goto` to where the `gosub`'s transfer goes
    rw [hi] at hxk
    simp only [lowerAt, show sim.incoming.getD k none = sim.frameAt k from rfl, reached,
      List.mem_cons, List.not_mem_nil, or_false] at hxk
    rcases hxk with rfl | rfl
    · refine ⟨fun l hl => by simp [Node.ofInstr, Instr.labels_pushInt] at hl, ?_⟩
      intro dflt keys targets isSwitch
      simp only [Node.ofInstr, pushInt] at isSwitch
      split_ifs at isSwitch
    · obtain ⟨⟨t, ht, targets, -⟩, -⟩ := S.follows inside reached (by simp [hi])
      rw [hi, transfer_gosub, Except.ok.injEq] at ht
      subst ht
      refine ⟨fun l hl => ⟨_, targets l (by simpa [Node.ofInstr, Instr.labels] using hl)⟩, ?_⟩
      intro dflt keys targets isSwitch
      cases isSwitch
  | dispatch dflt =>
    -- a `lookupswitch` over the sites the dispatch returns to, and its default
    obtain ⟨⟨g, -, matched, returned, toDefault⟩, -⟩ :=
      S.returns (by rw [List.getElem?_eq_getElem inside, hi]) reached
    rw [hi] at hxk
    simp only [lowerAt, show sim.incoming.getD k none = sim.frameAt k from rfl, reached, matched,
      Option.getD_some, List.mem_cons, List.not_mem_nil, or_false] at hxk
    subst hxk
    refine ⟨fun l hl => ?_, fun d keys targets isSwitch => ?_⟩
    · simp only [Node.ofInstr, Instr.labels, List.mem_cons, List.mem_map] at hl
      rcases hl with rfl | ⟨st, sorted, rfl⟩
      · exact ⟨g, toDefault⟩
      · have chosen := List.mem_filter.mp ((List.mem_mergeSort).mp sorted)
        exact ⟨g, returned st chosen.1 chosen.2⟩
    · simp only [Node.ofInstr, Instr.lookupSwitch.injEq] at isSwitch
      obtain ⟨-, rfl, rfl⟩ := isSwitch
      simp
  | _ =>
    -- the instruction itself, which the simulation stepped
    have same := lowerAt_instr hxk (by simp [hi]) (by simp [hi])
    rw [hi] at same
    obtain ⟨⟨t, ht, targets, -⟩, -⟩ := S.follows inside reached (by simp [hi])
    rw [hi] at ht
    refine ⟨fun l hl => ⟨_, targets l (mem_targets_of_labels ht (by simp) (same ▸ hl))⟩, ?_⟩
    intro dflt keys targets isSwitch
    rw [same] at isSwitch
    rw [isSwitch] at ht
    exact transfer_lookupSwitch_keys ht

/-- Every label a lowered node branches to is the label of a lowered node. -/
theorem lower_targets {x : Node} (hx : x ∈ lower code sim) :
    ∀ l ∈ x.instr.labels, ∃ m ∈ lower code sim, m.instr = .label l := by
  intro l hl
  obtain ⟨g, reaches⟩ := (lower_branches S hx).1 l hl
  exact S.reaches_lowered reaches

end Lowered

/-- Lowering makes no branch wide. -/
theorem lowerAt_notWide (code : List Instr) (sim : Simulation) (instr : Instr) (k : Nat) :
    ∀ x ∈ lowerAt code sim instr k, x.wide = false := by
  unfold lowerAt
  split
  · simp
  · split
    -- every node lowering makes is a fresh `Node.ofInstr`, not wide
    case h_4 => split <;> simp [Node.ofInstr]
    all_goals simp [Node.ofInstr]

/-- No lowered node is a wide branch. -/
theorem lower_notWide {code : List Instr} {sim : Simulation} {x : Node} (hx : x ∈ lower code sim) :
    x.wide = false := by
  obtain ⟨⟨instr, k⟩, -, hxk⟩ := List.mem_flatMap.mp hx
  exact lowerAt_notWide code sim instr k x hxk

/-! ## Encoding placed nodes -/

@[simp] theorem s2_length (v : Int) : (s2 v).length = 2 := rfl

@[simp] theorem s4_length (v : Int) : (s4 v).length = 4 := rfl

theorem offsetOf_eq_ok {labels : List (Label × Nat)} {l : Label} {o : Nat}
    (h : labels.lookup l = some o) : offsetOf labels l = .ok o := by
  simp [offsetOf, h]

/-- The displacements from `pc` of labels that are all placed: one for each. -/
theorem mapM_displacement_eq_ok (labels : List (Label × Nat)) (pc : Nat) :
    ∀ (ls : List Label), (∀ l ∈ ls, ∃ o, labels.lookup l = some o) →
      ∃ ts : List Int, ls.mapM (fun l => do
          let o ← offsetOf labels l
          pure ((o : Int) - (pc : Int))) = .ok ts ∧ ts.length = ls.length
  | [], _ => ⟨[], rfl, rfl⟩
  | l :: ls, placed => by
    obtain ⟨o, ho⟩ := placed l List.mem_cons_self
    obtain ⟨ts, hts, length⟩ :=
      mapM_displacement_eq_ok labels pc ls fun k hk => placed k (List.mem_cons_of_mem l hk)
    refine ⟨((o : Int) - (pc : Int)) :: ts, ?_, by simp [length]⟩
    rw [List.mapM_cons, hts, offsetOf_eq_ok ho]
    rfl

/-- A node placed at `pc` is written to exactly as many bytes as placing gave it, as long as the
labels it branches to are placed, a branch not made wide reaches its target, and a
`lookupswitch` has as many keys as targets: the size table of placing and the byte writer agree
on every form. -/
theorem encodeNode_placed {p p₁ : Pool} {n : Node} {pc size cp : Nat} {labels : List (Label × Nat)}
    (h : placeNode p n pc = .ok (p₁, size, cp))
    (targets : ∀ l ∈ n.instr.labels, ∃ o, labels.lookup l = some o)
    (short : ∀ op t o, n.instr = .jump op t → n.wide = false → labels.lookup t = some o →
      fitsShort ((o : Int) - pc) = true)
    (keys : ∀ dflt ks ts, n.instr = .lookupSwitch dflt ks ts → ks.length = ts.length) :
    ∃ b, encodeNode labels { n with offset := pc, size, cp } = .ok b ∧ b.length = size := by
  cases hi : n.instr
  case var op slot =>
    -- one byte for the slots 0 to 3, two up to 255, and `wide` with two more above
    simp only [placeNode, hi] at h
    split_ifs at h <;> simp only [Except.ok.injEq, Prod.mk.injEq] at h <;> obtain ⟨-, rfl, -⟩ := h
    all_goals
      simp only [encodeNode]
      exact ⟨_, rfl, rfl⟩
  case imm op v =>
    -- both tables single out `sipush`, with its two-byte operand
    simp only [placeNode, hi] at h
    simp only [encodeNode]
    by_cases sipush : op = .sipush
    · subst sipush
      simp only [Except.ok.injEq, Prod.mk.injEq] at h
      obtain ⟨-, rfl, -⟩ := h
      exact ⟨_, rfl, rfl⟩
    · have two : size = 2 := by split at h <;> simp_all
      split <;> simp_all
  case ldc v =>
    simp only [placeNode, hi, Except.ok.injEq, Prod.mk.injEq] at h
    obtain ⟨-, rfl, rfl⟩ := h
    simp only [encodeNode]
    -- `ldc` with a one-byte index, `ldc_w` with a two-byte one
    by_cases wideIndex : (v.addTo p).2 > 255
    · simp only [wideIndex, if_true]
      exact ⟨_, rfl, rfl⟩
    · simp only [wideIndex, if_false]
      exact ⟨_, rfl, rfl⟩
  case plain op =>
    -- placing refuses an `ldc` without a constant, and gives every other one byte
    have one : size = 1 := by
      simp only [placeNode, hi] at h
      split at h <;> simp_all
    simp only [encodeNode]
    exact ⟨_, rfl, one.symm ▸ rfl⟩
  case tableSwitch low dflt ls =>
    simp only [placeNode, hi, Except.ok.injEq, Prod.mk.injEq] at h
    obtain ⟨-, rfl, -⟩ := h
    obtain ⟨d, hd⟩ := targets dflt (by simp [hi, Instr.labels])
    obtain ⟨ts, hts, length⟩ := mapM_displacement_eq_ok labels pc ls fun l hl =>
      targets l (by simp [hi, Instr.labels, hl])
    simp only [encodeNode, hts]
    simp only [offsetOf_eq_ok hd, Except.ok_bind, Except.pure_eq_ok]
    refine ⟨_, rfl, ?_⟩
    simp [length]
    omega
  case lookupSwitch dflt ks ls =>
    simp only [placeNode, hi, Except.ok.injEq, Prod.mk.injEq] at h
    obtain ⟨-, rfl, -⟩ := h
    obtain ⟨d, hd⟩ := targets dflt (by simp [hi, Instr.labels])
    obtain ⟨ts, hts, length⟩ := mapM_displacement_eq_ok labels pc ls fun l hl =>
      targets l (by simp [hi, Instr.labels, hl])
    -- the pairs written are as many as the targets, since the keys are
    have same := keys dflt ks ls hi
    simp only [encodeNode, hts]
    simp only [offsetOf_eq_ok hd, Except.ok_bind, Except.pure_eq_ok]
    refine ⟨_, rfl, ?_⟩
    simp [List.length_flatMap, length, same]
    omega
  case jump op target =>
    obtain ⟨o, ho⟩ := targets target (by simp [hi, Instr.labels])
    simp only [placeNode, hi] at h
    simp only [encodeNode, offsetOf_eq_ok ho, Except.ok_bind, Except.pure_eq_ok]
    by_cases wide : n.wide = true
    · -- `goto_w`, or the negated branch over a `goto_w`
      simp only [wide, if_true, Except.ok.injEq, Prod.mk.injEq] at h ⊢
      obtain ⟨-, rfl, -⟩ := h
      split_ifs <;> exact ⟨_, rfl, rfl⟩
    · -- a branch not made wide reaches its target
      have fits := short op target o hi (by simpa using wide) ho
      simp only [wide, Bool.false_eq_true, if_false, Except.ok.injEq, Prod.mk.injEq, fits,
        Bool.not_true] at h ⊢
      obtain ⟨-, rfl, -⟩ := h
      exact ⟨_, rfl, rfl⟩
  -- the others have one size each: a label none, an instruction with a pool index its opcode
  -- and the index, any other its opcode alone
  all_goals
    simp only [placeNode, hi, Except.ok.injEq, Prod.mk.injEq] at h
    obtain ⟨-, rfl, -⟩ := h
    exact ⟨_, rfl, rfl⟩

/-- Nodes placed one after another are each encoded to exactly their size, when their branch
and switch targets are placed, a branch not made wide reaches its target, and a
`lookupswitch` has as many keys as targets. -/
theorem Placed.encodeNodes {p p' : Pool} {pc stop : Nat} {ns placed : List Node}
    (laid : Placed p pc ns p' placed stop) (labels : List (Label × Nat))
    (targets : ∀ n ∈ placed, ∀ l ∈ n.instr.labels, ∃ o, labels.lookup l = some o)
    (short : ∀ n ∈ placed, ∀ op t o, n.instr = .jump op t → n.wide = false →
      labels.lookup t = some o → fitsShort ((o : Int) - n.offset) = true)
    (keys : ∀ n ∈ placed, ∀ dflt ks ts, n.instr = .lookupSwitch dflt ks ts →
      ks.length = ts.length) :
    ∃ parts, List.Forall₂ (fun n b => encodeNode labels n = .ok b ∧ b.length = n.size)
      placed parts := by
  induction laid with
  | nil => exact ⟨[], .nil⟩
  | @cons p p₁ p' pc size cp stop n ns placed here _ ih =>
    -- what the hypotheses say of the node placed first
    have targetsHere := targets { n with offset := pc, size, cp } List.mem_cons_self
    have shortHere := short { n with offset := pc, size, cp } List.mem_cons_self
    have keysHere := keys { n with offset := pc, size, cp } List.mem_cons_self
    obtain ⟨parts, written⟩ := ih (fun m hm => targets m (List.mem_cons_of_mem _ hm))
      (fun m hm => short m (List.mem_cons_of_mem _ hm)) (fun m hm => keys m (List.mem_cons_of_mem _ hm))
    obtain ⟨b, hb, length⟩ :=
      encodeNode_placed here targetsHere shortHere keysHere
    exact ⟨b :: parts, .cons ⟨hb, length⟩ written⟩

/-- Encoding succeeds when every node is written to its size: the body is their bytes in
order. -/
theorem encode_eq_ok {nodes : Array Node} {parts : List (List UInt8)}
    (written : List.Forall₂ (fun n b => encodeNode (labelOffsets nodes) n = .ok b ∧
      b.length = n.size) nodes.toList parts) :
    encode nodes = .ok parts.flatten := by
  unfold encode
  dsimp only
  rw [List.mapM_eq_ok.mpr (written.imp fun {n b} ⟨hb, length⟩ => by simp [hb, length])]
  rfl

/-- A label some node places has an offset. -/
theorem lookup_labelOffsets {nodes : Array Node} {l : Label}
    (placed : ∃ m ∈ nodes.toList, m.instr = .label l) :
    ∃ o, (labelOffsets nodes).lookup l = some o := by
  unfold labelOffsets
  generalize nodes.toList = ns at placed ⊢
  induction ns with
  | nil => simp at placed
  | cons n ns ih =>
    rw [List.filterMap_cons]
    by_cases here : n.instr = .label l
    · exact ⟨n.offset, by simp [here]⟩
    · have later : ∃ m ∈ ns, m.instr = .label l := by
        obtain ⟨m, hm, isLabel⟩ := placed
        rcases List.mem_cons.mp hm with rfl | later
        · exact absurd isLabel here
        · exact ⟨m, later, isLabel⟩
      obtain ⟨o, ho⟩ := ih later
      refine ⟨o, ?_⟩
      -- another label is passed over, and a node that is no label adds none
      cases hi : n.instr
      case label l' =>
        have other : (l == l') = false := beq_eq_false_iff_ne.mpr fun same => here (by rw [hi, same])
        simp [List.lookup, other, ho]
      all_goals simpa using ho

/-- Nodes with the instructions of lowered code branch only to labels that they place. -/
theorem lowered_targets_placed {code : List Instr} {sim : Simulation} (S : Simulated code sim)
    {placed : Array Node} (instrs : placed.toList.map Node.instr = (lower code sim).map Node.instr) :
    ∀ n ∈ placed.toList, ∀ l ∈ n.instr.labels, ∃ o, (labelOffsets placed).lookup l = some o := by
  intro n hn l hl
  obtain ⟨x, hx, same⟩ := List.mem_map.mp (instrs ▸ List.mem_map_of_mem hn)
  obtain ⟨m, hm, isLabel⟩ := lower_targets S hx l (same ▸ hl)
  obtain ⟨m', hm', same'⟩ := List.mem_map.mp (instrs ▸ List.mem_map_of_mem (f := Node.instr) hm)
  exact lookup_labelOffsets ⟨m', hm', same'.trans isLabel⟩

/-! ## Layout of lowered code -/

/-- Laid-out nodes whose every branch and switch goes to a placed label, which a branch not made
wide reaches with a 16-bit displacement. -/
structure Reaching (nodes : Array Node) : Prop where
  placed : ∀ n ∈ nodes.toList, ∀ l ∈ n.instr.labels, ∃ o, (labelOffsets nodes).lookup l = some o
  short : ∀ n ∈ nodes.toList, ∀ op t o, n.instr = .jump op t → n.wide = false →
    (labelOffsets nodes).lookup t = some o → fitsShort ((o : Int) - n.offset) = true

/-- Layout of the code a simulation accepted settles within as many passes as the code has
branches: more passes change nothing, and the nodes it gives need no more widening, branch
only to placed labels, reach them with 16-bit displacements unless made wide, and encode, node
by node, to exactly the sizes they were laid out with. -/
theorem layout_settles_encodes {code : List Instr} {entry : Frame} {sim : Simulation}
    (simulated : simulate code entry = .ok sim) (pool : Pool) {fuel : Nat}
    (enough : branchCount (lower code sim) ≤ fuel) :
    layout pool (lower code sim).toArray fuel =
        layout pool (lower code sim).toArray (branchCount (lower code sim)) ∧
      ∀ pool' placed length,
        layout pool (lower code sim).toArray fuel = .ok (pool', placed, length) →
        widen placed = .ok (placed, false) ∧ Reaching placed ∧
          ∃ parts, encode placed = .ok parts.flatten ∧
            List.Forall₂ (fun n b => encodeNode (labelOffsets placed) n = .ok b ∧ b.length = n.size)
              placed.toList parts := by
  have S := simulate_simulated simulated
  -- lowering makes no branch wide, so every branch is one left to widen
  have few : narrowBranches (lower code sim).toArray.toList ≤ branchCount (lower code sim) := by
    rw [List.toList_toArray, narrowBranches_eq_branchCount fun x hx => lower_notWide hx]
  refine ⟨layout_stable _ few enough, fun pool' placed length laidOut => ?_⟩
  -- one pass more would check the last one, and give the same nodes
  have checked : widen placed = .ok (placed, false) :=
    layout_checked (fuel + 1) (by omega)
      ((layout_stable fuel (by omega) (Nat.le_succ fuel)).trans laidOut)
  -- the nodes laid out are the lowered ones, with their instructions
  obtain ⟨q, nodes', -, shapes, laid, -⟩ := layout_placed _ laidOut
  have instrs : placed.toList.map Node.instr = (lower code sim).map Node.instr := by
    have same := congrArg (List.map Prod.fst) (laid.shapes.trans shapes)
    simpa [List.map_map, Node.shape, Function.comp_def] using same
  have lowered : ∀ n ∈ placed.toList, ∃ x ∈ lower code sim, x.instr = n.instr := fun n hn =>
    List.mem_map.mp (instrs ▸ List.mem_map_of_mem hn)
  have targets := lowered_targets_placed S instrs
  have reaching : Reaching placed := by
    refine ⟨targets, fun n hn op t o isJump narrow found => ?_⟩
    obtain ⟨o', found', fits⟩ := (widen_unchanged checked).2 n hn op t isJump narrow
    rw [Option.some.inj (found.symm.trans found')]
    exact fits
  obtain ⟨parts, written⟩ := laid.encodeNodes (labelOffsets placed) targets reaching.short
    fun n hn dflt ks ts isSwitch => by
      obtain ⟨x, hx, same⟩ := lowered n hn
      exact (lower_branches S hx).2 dflt ks ts (same.trans isSwitch)
  exact ⟨checked, reaching, parts, encode_eq_ok written, written⟩

/-- A `goto` over nothing to the label after it: one branch, laid out in one pass. -/
theorem layout_settles_encodes_forwardGoto :
    ∃ sim, simulate [.jump .goto 1, .label 1, .plain .returnVoid] ⟨[.object "T"], []⟩ = .ok sim ∧
      branchCount (lower [.jump .goto 1, .label 1, .plain .returnVoid] sim) ≤ 1 ∧
      (layout Pool.empty (lower [.jump .goto 1, .label 1, .plain .returnVoid] sim).toArray 1 =
          layout Pool.empty (lower [.jump .goto 1, .label 1, .plain .returnVoid] sim).toArray
            (branchCount (lower [.jump .goto 1, .label 1, .plain .returnVoid] sim)) ∧
        ∀ pool' placed length,
          layout Pool.empty (lower [.jump .goto 1, .label 1, .plain .returnVoid] sim).toArray 1 =
            .ok (pool', placed, length) →
          widen placed = .ok (placed, false) ∧ Reaching placed ∧
            ∃ parts, encode placed = .ok parts.flatten ∧
              List.Forall₂ (fun n b => encodeNode (labelOffsets placed) n = .ok b ∧
                b.length = n.size) placed.toList parts) := by
  have run : (match simulate [.jump .goto 1, .label 1, .plain .returnVoid] ⟨[.object "T"], []⟩ with
      | .ok sim => decide (branchCount (lower [.jump .goto 1, .label 1, .plain .returnVoid] sim) ≤ 1)
      | .error _ => false) = true := by
    decide +kernel
  split at run
  · rename_i sim simulated
    have enough := of_decide_eq_true run
    exact ⟨sim, simulated, enough, layout_settles_encodes simulated Pool.empty enough⟩
  · exact absurd run Bool.false_ne_true

end BasicJvm.Bytecode
