import BasicJvm.Bytecode.Assemble
import BasicJvm.Proofs.ClassFile.Constants
import BasicJvm.Proofs.Except

/-!
# Laying out and encoding a body

Layout walks the nodes once per pass, giving each its offset, its size and its constant
pool entry; the pool grows as it goes (`Placed`).  Between passes only the `wide` flags of
branches change (`widen_instrs`), so whatever pass comes last places the same instructions
(`layout_placed`).  Encoding writes each node to exactly as many bytes as it was given
(`encode_parts`), so the body is the nodes' bytes one after another, each starting at its
node's offset.
-/

namespace BasicJvm.Bytecode

open BasicJvm.ClassFile

/-! ## Placing nodes -/

/-- Nodes placed one after another from offset `pc`, the pool growing as each takes its
constant: the placed nodes, the pool after the last, and the offset after it. -/
inductive Placed : Pool → Nat → List Node → Pool → List Node → Nat → Prop
  | nil (p : Pool) (pc : Nat) : Placed p pc [] p [] pc
  | cons {p p₁ p' : Pool} {pc size cp stop : Nat} {n : Node} {ns placed : List Node} :
      placeNode p n pc = .ok (p₁, size, cp) → Placed p₁ (pc + size) ns p' placed stop →
      Placed p pc (n :: ns) p' ({ n with offset := pc, size, cp } :: placed) stop

/-- What layout keeps of a node: its instruction and its frame. -/
def Node.shape (n : Node) : Instr × Option Frame := (n.instr, n.frame)

/-- A fold whose step places one node and pushes it places the whole list. -/
theorem foldlM_placed
    {f : Pool × Array Node × Nat → Node → Except AsmError (Pool × Array Node × Nat)}
    (step : ∀ p acc pc n r, f (p, acc, pc) n = .ok r ↔
      ∃ p₁ size cp, placeNode p n pc = .ok (p₁, size, cp) ∧
        r = (p₁, acc.push { n with offset := pc, size, cp }, pc + size)) :
    ∀ (ns : List Node) (p : Pool) (acc : Array Node) (pc : Nat) (r : Pool × Array Node × Nat),
      ns.foldlM f (p, acc, pc) = .ok r →
        ∃ placed, Placed p pc ns r.1 placed r.2.2 ∧ r.2.1.toList = acc.toList ++ placed
  | [], p, acc, pc, r, h => by
    simp only [List.foldlM_nil, pure, Except.pure, Except.ok.injEq] at h
    subst h
    exact ⟨[], .nil p pc, by simp⟩
  | n :: ns, p, acc, pc, r, h => by
    rw [List.foldlM_cons] at h
    obtain ⟨⟨p₁, acc₁, pc₁⟩, first, rest⟩ := Except.bind_eq_ok.mp h
    obtain ⟨q, size, cp, placedHere, hr⟩ := (step p acc pc n _).mp first
    simp only [Prod.mk.injEq] at hr
    obtain ⟨rfl, rfl, rfl⟩ := hr
    obtain ⟨placed, hplaced, hacc⟩ := foldlM_placed step ns p₁ _ _ r rest
    refine ⟨_, .cons placedHere hplaced, ?_⟩
    rw [hacc, Array.toList_push, List.append_assoc, List.singleton_append]

/-- One layout pass: the nodes placed from offset zero, within the 16-bit body length. -/
theorem place_placed {pool pool' : Pool} {nodes placed : Array Node} {length : Nat}
    (h : place pool nodes = .ok (pool', placed, length)) :
    Placed pool 0 nodes.toList pool' placed.toList length ∧ length ≤ 65535 := by
  unfold place at h
  obtain ⟨⟨p, acc, pc⟩, folded, rest⟩ := Except.bind_eq_ok.mp h
  dsimp only at rest
  split at rest
  · simp at rest
  rename_i short
  simp only [pure, Except.pure, Except.ok.injEq, Prod.mk.injEq] at rest
  obtain ⟨rfl, rfl, rfl⟩ := rest
  rw [← Array.foldlM_toList] at folded
  obtain ⟨placed, hplaced, hacc⟩ := foldlM_placed (fun p acc pc n r => by
      simp only [Except.bind_eq_ok, pure, Except.pure, Except.ok.injEq]
      constructor
      · rintro ⟨⟨p₁, size, cp⟩, hnode, rfl⟩
        exact ⟨p₁, size, cp, hnode, rfl⟩
      · rintro ⟨p₁, size, cp, hnode, rfl⟩
        exact ⟨(p₁, size, cp), hnode, rfl⟩) _ _ _ _ _ folded
  simp only [List.nil_append] at hacc
  rw [hacc]
  exact ⟨hplaced, by omega⟩

/-! ## What a placed node's constant is -/

/-- A placed node's pool index points at the constant or reference its instruction names. -/
def Node.Resolves (P : Pool) (n : Node) : Prop :=
  match n.instr with
  | .ldc (.int v) => P.get n.cp = .ok (.integer (v % 2 ^ 32).toNat.toUInt32)
  | .ldc (.float v) => P.get n.cp = .ok (.float v.bits)
  | .ldc (.string s) => ∃ k, P.get n.cp = .ok (.string k) ∧ P.get k = .ok (.utf8 s)
  | .member _ ref => P.memberRef n.cp = .ok (ref.owner, ref.name, ref.desc)
  | .typed _ cls | .multiArray cls _ => P.className n.cp = .ok cls
  | _ => True

section PlaceNode

variable {p p₁ : Pool} {n : Node} {pc size cp : Nat}

/-- The pool and index a node's placement gives: the constant or reference added for an
instruction that has one, the pool as it was for the others. -/
theorem placeNode_pool (h : placeNode p n pc = .ok (p₁, size, cp)) :
    match n.instr with
    | .ldc v => (p₁, cp) = v.addTo p
    | .member op ref => (p₁, cp) = if op == .getfield || op == .putfield then
        p.addFieldref ref.owner ref.name ref.desc else p.addMethodref ref.owner ref.name ref.desc
    | .typed _ cls | .multiArray cls _ => (p₁, cp) = p.addClass cls
    | _ => p₁ = p ∧ cp = 0 := by
  unfold placeNode at h
  split at h
  all_goals
    rename_i heq
    simp only [heq]
  -- the instructions with a constant or a reference: the pool is the one the adding gave
  case h_5 v =>
    rcases hv : v.addTo p with ⟨q, c⟩
    simp only [hv, Except.ok.injEq, Prod.mk.injEq] at h
    obtain ⟨rfl, -, rfl⟩ := h
    rfl
  case h_8 op ref =>
    rcases hr : (if op == Opcode.getfield || op == Opcode.putfield then
        p.addFieldref ref.owner ref.name ref.desc else p.addMethodref ref.owner ref.name ref.desc)
      with ⟨q, c⟩
    simp only [hr, Except.ok.injEq, Prod.mk.injEq] at h
    obtain ⟨rfl, -, rfl⟩ := h
    rfl
  case h_9 cls | h_10 cls _ =>
    rcases hr : p.addClass cls with ⟨q, c⟩
    simp only [hr, Except.ok.injEq, Prod.mk.injEq] at h
    obtain ⟨rfl, -, rfl⟩ := h
    rfl
  -- the others leave the pool as it was
  all_goals
    try split_ifs at h
    all_goals simp only [Except.ok.injEq, Prod.mk.injEq, reduceCtorEq] at h
    all_goals exact ⟨h.1.symm, h.2.2.symm⟩

theorem placeNode_grows (h : placeNode p n pc = .ok (p₁, size, cp)) : p.Grows p₁ := by
  have pool := placeNode_pool h
  cases hi : n.instr <;> simp only [hi] at pool
  case ldc v =>
    cases v <;> simp only [Literal.addTo] at pool <;> rw [(Prod.mk.inj pool).1]
    · exact p.addInteger_grows _
    · exact p.addFloat_grows _
    · exact p.addString_grows _
  case member op ref =>
    split at pool <;> rw [(Prod.mk.inj pool).1]
    · exact p.addFieldref_grows _ _ _
    · exact p.addMethodref_grows _ _ _
  case typed _ cls | multiArray cls _ =>
    rw [(Prod.mk.inj pool).1]
    exact p.addClass_grows cls
  all_goals
    rw [pool.1]
    exact .refl p

/-- The pool index a placement gives fits the two bytes an instruction has for it. -/
theorem placeNode_index_lt (h : placeNode p n pc = .ok (p₁, size, cp)) : cp < 2 ^ 16 := by
  have pool := placeNode_pool h
  cases hi : n.instr <;> simp only [hi] at pool
  case ldc v =>
    cases v <;> simp only [Literal.addTo] at pool <;> rw [(Prod.mk.inj pool).2]
    · exact p.add_index_lt _
    · exact p.add_index_lt _
    · exact p.addString_index_lt _
  case member op ref =>
    split at pool <;> rw [(Prod.mk.inj pool).2]
    · exact p.addFieldref_index_lt _ _ _
    · exact p.addMethodref_index_lt _ _ _
  case typed _ cls | multiArray cls _ =>
    rw [(Prod.mk.inj pool).2]
    exact p.addClass_index_lt cls
  all_goals
    rw [pool.2]
    decide

/-- A placed node's constant is found in every pool grown from the one its placement left,
as long as that pool keeps within the 16-bit count. -/
theorem placeNode_resolves (h : placeNode p n pc = .ok (p₁, size, cp)) {P : Pool}
    (ext : p₁.Extends P) (small : P.count ≤ 2 ^ 16) :
    ({ n with offset := pc, size, cp } : Node).Resolves P := by
  have pool := placeNode_pool h
  unfold Node.Resolves
  cases hi : n.instr <;> simp only [hi] at pool ⊢
  case ldc v =>
    cases v <;> simp only [Literal.addTo] at pool <;> obtain ⟨rfl, rfl⟩ := Prod.mk.inj pool
    · exact Pool.add_get (by simp) ext small
    · exact Pool.add_get (by simp) ext small
    · exact Pool.addString_get ext small
  case member op ref =>
    split at pool <;> obtain ⟨rfl, rfl⟩ := Prod.mk.inj pool
    · exact Pool.addFieldref_memberRef ext small
    · exact Pool.addMethodref_memberRef ext small
  case typed _ cls | multiArray cls _ =>
    obtain ⟨rfl, rfl⟩ := Prod.mk.inj pool
    exact Pool.addClass_className ext small

end PlaceNode

namespace Placed

variable {p p' : Pool} {pc stop : Nat} {ns placed : List Node}

theorem grows (h : Placed p pc ns p' placed stop) : p.Grows p' := by
  induction h with
  | nil p pc => exact .refl p
  | cons here _ rest => exact (placeNode_grows here).trans rest

/-- Every placed node's constant is found in a pool grown from the one placement left. -/
theorem resolves (h : Placed p pc ns p' placed stop) {P : Pool} (ext : p'.Extends P)
    (small : P.count ≤ 2 ^ 16) : ∀ m ∈ placed, m.Resolves P := by
  induction h with
  | nil => simp
  | cons here rest ih =>
    intro m hm
    rcases List.mem_cons.mp hm with rfl | later
    · exact placeNode_resolves here (rest.grows.grown.trans ext) small
    · exact ih ext m later

/-- Placing keeps the instructions and their frames, in order. -/
theorem shapes (h : Placed p pc ns p' placed stop) :
    placed.map Node.shape = ns.map Node.shape := by
  induction h with
  | nil => rfl
  | cons _ _ ih => simp [ih, Node.shape]

end Placed

/-! ## Widening and the layout passes -/

/-- A fold whose step pushes a node with the instruction and frame it was given keeps them. -/
theorem foldlM_push_shapes {f : Array Node × Bool → Node → Except AsmError (Array Node × Bool)}
    (step : ∀ acc b n r, f (acc, b) n = .ok r → ∃ m b', r = (acc.push m, b') ∧ m.shape = n.shape) :
    ∀ (ns : List Node) (acc : Array Node) (b : Bool) (r : Array Node × Bool),
      ns.foldlM f (acc, b) = .ok r →
        r.1.toList.map Node.shape = acc.toList.map Node.shape ++ ns.map Node.shape
  | [], acc, b, r, h => by
    simp only [List.foldlM_nil, pure, Except.pure, Except.ok.injEq] at h
    subst h
    simp
  | n :: ns, acc, b, r, h => by
    rw [List.foldlM_cons] at h
    obtain ⟨⟨acc₁, b₁⟩, first, rest⟩ := Except.bind_eq_ok.mp h
    obtain ⟨m, b', hr, same⟩ := step acc b n _ first
    simp only [Prod.mk.injEq] at hr
    obtain ⟨rfl, rfl⟩ := hr
    rw [foldlM_push_shapes step ns _ _ r rest]
    simp [same]

/-- Widening changes only the `wide` flags of branches. -/
theorem widen_shapes {nodes nodes' : Array Node} {changed : Bool}
    (h : widen nodes = .ok (nodes', changed)) :
    nodes'.toList.map Node.shape = nodes.toList.map Node.shape := by
  unfold widen at h
  rw [← Array.foldlM_toList] at h
  have kept := foldlM_push_shapes (fun acc b n r hstep => by
      dsimp only at hstep
      split at hstep
      · split at hstep
        · exact ⟨n, b, (Except.ok.inj hstep).symm, rfl⟩
        · obtain ⟨dest, -, hstep⟩ := Except.bind_eq_ok.mp hstep
          split at hstep
          · exact ⟨n, b, (Except.ok.inj hstep).symm, rfl⟩
          · exact ⟨{ n with wide := true }, true, (Except.ok.inj hstep).symm, rfl⟩
      · exact ⟨n, b, (Except.ok.inj hstep).symm, rfl⟩) _ _ _ _ h
  simpa using kept

/-- Whatever pass comes last places the nodes it was given, with only their `wide` flags
changed, from a pool grown from the first one. -/
theorem layout_placed :
    ∀ (fuel : Nat) {pool pool' : Pool} {nodes placed : Array Node} {length : Nat},
      layout pool nodes fuel = .ok (pool', placed, length) →
        ∃ (q : Pool) (nodes' : Array Node), pool.Grows q ∧
          nodes'.toList.map Node.shape = nodes.toList.map Node.shape ∧
          Placed q 0 nodes'.toList pool' placed.toList length ∧ length ≤ 65535
  | 0, pool, pool', nodes, placed, length, h => by
    unfold layout at h
    exact ⟨pool, nodes, .refl pool, rfl, place_placed h⟩
  | fuel + 1, pool, pool', nodes, placed, length, h => by
    unfold layout at h
    obtain ⟨⟨q, placed₁, length₁⟩, placedOnce, h⟩ := Except.bind_eq_ok.mp h
    obtain ⟨⟨widened, changed⟩, widenedOnce, h⟩ := Except.bind_eq_ok.mp h
    dsimp only at h
    split at h
    · -- another pass, from the pool the first one left
      obtain ⟨q', nodes', grows, same, hplaced, short⟩ := layout_placed fuel h
      have first := (place_placed placedOnce).1
      refine ⟨q', nodes', first.grows.trans grows, ?_, hplaced, short⟩
      rw [same, widen_shapes widenedOnce, first.shapes]
    · simp only [pure, Except.pure, Except.ok.injEq, Prod.mk.injEq] at h
      obtain ⟨rfl, rfl, rfl⟩ := h
      exact ⟨pool, nodes, .refl pool, rfl, place_placed placedOnce⟩

/-! ## Nodes without constants

Only the instructions that take a constant read the pool, so nodes without one are laid out
alike in every pool, and leave it as it is. -/

/-- Whether an instruction takes no constant, so that placing it leaves the pool as it is. -/
def Instr.takesNoConstant : Instr → Bool
  | .ldc _ | .member .. | .typed .. | .multiArray .. => false
  | _ => true

section NoConstant

variable (p q : Pool)

/-- A node without a constant is placed the same in every pool, and leaves it as it is. -/
theorem placeNode_takesNoConstant {n : Node} (pc : Nat) (h : n.instr.takesNoConstant = true) :
    placeNode p n pc = (placeNode q n pc).map fun r => (p, r.2) := by
  unfold placeNode
  split <;> rename_i instr_eq <;>
    (try simp only [instr_eq, Instr.takesNoConstant, Bool.false_eq_true] at h) <;>
    (try split_ifs) <;> rfl

/-- A fold whose step does not depend on the pool on nodes without constants does not either. -/
theorem foldlM_takesNoConstant {α : Type} {f : Pool × α → Node → Except AsmError (Pool × α)}
    (step : ∀ p q a n, n.instr.takesNoConstant = true →
      f (p, a) n = (f (q, a) n).map fun r => (p, r.2)) :
    ∀ (ns : List Node), (∀ n ∈ ns, n.instr.takesNoConstant = true) → ∀ (p q : Pool) (a : α),
      ns.foldlM f (p, a) = (ns.foldlM f (q, a)).map fun r => (p, r.2)
  | [], _, p, q, a => rfl
  | n :: ns, free, p, q, a => by
    simp only [List.foldlM_cons]
    rw [step p q a n (free n List.mem_cons_self)]
    cases f (q, a) n with
    | error e => rfl
    | ok r =>
      exact foldlM_takesNoConstant step ns (fun m hm => free m (List.mem_cons_of_mem n hm)) p r.1 r.2

theorem place_takesNoConstant {nodes : Array Node} (free : ∀ n ∈ nodes.toList, n.instr.takesNoConstant = true) :
    place p nodes = (place q nodes).map fun r => (p, r.2) := by
  unfold place
  rw [← Array.foldlM_toList, ← Array.foldlM_toList]
  rw [foldlM_takesNoConstant (fun p q a n h => ?_) _ free p q]
  · cases (nodes.toList.foldlM _ (q, #[], 0) : Except AsmError (Pool × Array Node × Nat)) with
    | error e => rfl
    | ok r => 
      simp only [Except.map, Except.ok_bind]
      split_ifs <;> rfl
  · obtain ⟨acc, pc⟩ := a
    dsimp only
    rw [placeNode_takesNoConstant p q pc h]
    cases placeNode q n pc <;> rfl

/-- Nodes with the instructions of nodes without constants have none either. -/
theorem takesNoConstant_of_shapes {xs ys : List Node} (same : xs.map Node.shape = ys.map Node.shape)
    (free : ∀ n ∈ ys, n.instr.takesNoConstant = true) : ∀ n ∈ xs, n.instr.takesNoConstant = true := by
  intro n hn
  have kept : n.shape ∈ ys.map Node.shape := same ▸ List.mem_map_of_mem hn
  obtain ⟨m, hm, hshape⟩ := List.mem_map.mp kept
  have instr : m.instr = n.instr := congrArg Prod.fst hshape
  exact instr ▸ free m hm

/-- Nodes without constants are laid out the same in every pool, which they leave as it is. -/
theorem layout_takesNoConstant : ∀ (fuel : Nat) {nodes : Array Node},
    (∀ n ∈ nodes.toList, n.instr.takesNoConstant = true) → ∀ p q : Pool,
      layout p nodes fuel = (layout q nodes fuel).map fun r => (p, r.2)
  | 0, _, free, p, q => place_takesNoConstant p q free
  | fuel + 1, nodes, free, p, q => by
    unfold layout
    rw [place_takesNoConstant p q free]
    rcases placedOnce : place q nodes with e | ⟨q', placed, length⟩
    · rfl
    simp only [Except.map, Except.ok_bind]
    rcases widenedOnce : widen placed with e | ⟨widened, changed⟩
    · rfl
    simp only [Except.ok_bind]
    split
    · -- the next pass places the widened nodes, which have the same instructions
      have free' := takesNoConstant_of_shapes
        ((widen_shapes widenedOnce).trans (place_placed placedOnce).1.shapes) free
      exact layout_takesNoConstant fuel free' p q'
    · rfl

end NoConstant

/-! ## Encoding -/

/-- The body is the nodes' bytes one after another, each node written to as many bytes as
its size. -/
theorem encode_parts {nodes : Array Node} {body : List UInt8} (h : encode nodes = .ok body) :
    ∃ parts : List (List UInt8),
      List.Forall₂ (fun n b => encodeNode (labelOffsets nodes) n = .ok b ∧ b.length = n.size)
        nodes.toList parts ∧ body = parts.flatten := by
  unfold encode at h
  obtain ⟨parts, written, h⟩ := Except.bind_eq_ok.mp h
  refine ⟨parts, ?_, (Except.ok.inj h).symm⟩
  refine (List.mapM_eq_ok.mp written).imp fun n b hb => ?_
  obtain ⟨bytes, hbytes, hb⟩ := Except.bind_eq_ok.mp hb
  split at hb
  · simp at hb
  · rename_i sized
    obtain rfl := Except.ok.inj hb
    exact ⟨hbytes, by simpa using sized⟩

/-! ## Stack maps -/

theorem vtypeBytes_grows (pool : Pool) (t : VType) : pool.Grows (vtypeBytes pool t).1 := by
  cases t
  case object cls => exact pool.addClass_grows cls
  all_goals exact .refl pool

theorem vtypesBytes_grows (pool : Pool) (ts : List VType) :
    pool.Grows (vtypesBytes pool ts).1 := by
  unfold vtypesBytes
  generalize u2 ts.length = acc
  induction ts generalizing pool acc with
  | nil => exact .refl pool
  | cons t ts ih =>
    rw [List.foldl_cons]
    rcases h : vtypeBytes pool t with ⟨q, b⟩
    have first := vtypeBytes_grows pool t
    rw [h] at first
    simp only [h]
    exact first.trans (ih q (acc ++ b))

/-- A fold over nodes whose every step grows the pool grows it. -/
theorem foldl_grows {β : Type} {f : Pool × β → Node → Pool × β}
    (step : ∀ (x : Pool × β) (n : Node), x.1.Grows (f x n).1) :
    ∀ (ns : List Node) (x : Pool × β), x.1.Grows (ns.foldl f x).1
  | [], x => .refl x.1
  | n :: ns, x => (step x n).trans (foldl_grows step ns (f x n))

theorem stackMapStep_grows (length : Nat) (acc : Pool × Nat × List UInt8 × Int) (n : Node) :
    acc.1.Grows (stackMapStep length acc n).1 := by
  unfold stackMapStep
  dsimp only
  split
  · exact .refl _
  · split
    · exact .refl _
    · rcases hl : vtypesBytes acc.1 (trimTop (n.frame.getD default).locals) with ⟨q, localBytes⟩
      have first := vtypesBytes_grows acc.1 (trimTop (n.frame.getD default).locals)
      have second := vtypesBytes_grows q (n.frame.getD default).stack.reverse
      rw [hl] at first
      exact first.trans second

/-- The stack map table only adds to the pool, and names itself with a 16-bit index. -/
theorem stackMapTable_grows {pool pool' : Pool} {nodes : Array Node} {length : Nat}
    {attr : Option Attribute} (h : stackMapTable pool nodes length = (pool', attr)) :
    pool.Grows pool' ∧ ∀ a, attr = some a → a.Fits := by
  unfold stackMapTable at h
  rw [← Array.foldl_toList] at h
  rcases hfold : nodes.toList.foldl (stackMapStep length) (pool, 0, [], -1)
    with ⟨q, count, entries, prev⟩
  have grown : pool.Grows q := by
    have := foldl_grows (stackMapStep_grows length) nodes.toList (pool, 0, [], -1)
    rwa [hfold] at this
  simp only [hfold] at h
  split at h
  · obtain ⟨rfl, rfl⟩ := Prod.mk.inj h
    exact ⟨grown, by simp⟩
  · obtain ⟨rfl, rfl⟩ := Prod.mk.inj h
    exact ⟨grown.trans (q.addUtf8_grows _), fun a ha => by
      rw [← Option.some.inj ha]
      exact Pool.add_index_lt _ _⟩

/-! ## A whole assembly -/

/-- The stages an assembly that succeeded went through: the simulation, the lowered nodes
laid out by the last pass from a pool grown from the given one, the body encoded from them,
and the limits it checked. -/
structure AssemblyRun (pool : Pool) (owner : String) (code : List Instr) (a : Assembled) where
  sim : Simulation
  simulated : simulate code ⟨[.object owner], []⟩ = .ok sim
  start : Pool
  startGrows : pool.Grows start
  nodes : Array Node
  lowered : nodes.toList.map Node.instr = (lower code sim).map Node.instr
  placedPool : Pool
  placed : Array Node
  length : Nat
  laid : Placed start 0 nodes.toList placedPool placed.toList length
  short : length ≤ 65535
  encoded : encode placed = .ok a.code.code
  finalGrows : placedPool.Grows a.pool
  maxStack : a.code.maxStack = sim.maxStack
  maxLocals : a.code.maxLocals = sim.maxLocals
  stackFits : sim.maxStack ≤ 65535
  localsFits : sim.maxLocals ≤ 65535
  exceptions : a.code.exceptions = []
  attributes : ∀ attr ∈ a.code.attributes, attr.Fits
  attributeCount : a.code.attributes.length ≤ 1

/-- The stages of an assembly that succeeded: the simulation, the last layout pass over the
lowered nodes, the encoding and the limits it checked, and the stack map table when it was
asked for. -/
theorem assemble_ok {pool : Pool} {owner : String} {stackMaps : Bool} {code : List Instr}
    {a : Assembled} (h : assemble pool owner stackMaps code = .ok a) :
    ∃ sim placedPool placed length,
      simulate code ⟨[.object owner], []⟩ = .ok sim ∧
      layout pool (lower code sim).toArray ((lower code sim).toArray.size + 1) =
        .ok (placedPool, placed, length) ∧
      encode placed = .ok a.code.code ∧ sim.maxLocals ≤ 65535 ∧ sim.maxStack ≤ 65535 ∧
      a.code.maxStack = sim.maxStack ∧ a.code.maxLocals = sim.maxLocals ∧
      a.code.exceptions = [] ∧
      (a.pool, a.code.attributes) = if stackMaps then
          match stackMapTable placedPool placed length with
          | (pool, some table) => (pool, [table])
          | (pool, none) => (pool, [])
        else (placedPool, []) := by
  unfold assemble at h
  obtain ⟨sim, simulated, h⟩ := Except.bind_eq_ok.mp h
  obtain ⟨⟨placedPool, placed, length⟩, laidOut, h⟩ := Except.bind_eq_ok.mp h
  obtain ⟨body, encoded, h⟩ := Except.bind_eq_ok.mp h
  dsimp only at h
  split at h
  · simp at h
  rename_i small
  simp only [Bool.or_eq_true, decide_eq_true_eq, not_or] at small
  obtain ⟨localsSmall, stackSmall⟩ := small
  refine ⟨sim, placedPool, placed, length, Except.mapError_eq_ok.mp simulated, laidOut, ?_⟩
  generalize (if stackMaps then
      match stackMapTable placedPool placed length with
      | (pool, some table) => (pool, [table])
      | (pool, none) => (pool, [])
    else (placedPool, [])) = table at h ⊢
  obtain ⟨pool', attrs⟩ := table
  simp only [pure, Except.pure, Except.ok.injEq] at h
  subst h
  exact ⟨encoded, by omega, by omega, rfl, rfl, rfl, rfl⟩

/-- An assembly succeeds when its stages do. -/
theorem assemble_of_stages {pool placedPool : Pool} {owner : String} {stackMaps : Bool}
    {code : List Instr} {sim : Simulation} {placed : Array Node} {length : Nat}
    {body : List UInt8} (simulated : simulate code ⟨[.object owner], []⟩ = .ok sim)
    (laidOut : layout pool (lower code sim).toArray ((lower code sim).toArray.size + 1) =
      .ok (placedPool, placed, length))
    (encoded : encode placed = .ok body) (localsFit : sim.maxLocals ≤ 65535)
    (stackFits : sim.maxStack ≤ 65535) :
    ∃ a, assemble pool owner stackMaps code = .ok a := by
  unfold assemble
  simp only [simulated, Except.mapError, Except.ok_bind, laidOut, encoded]
  rw [if_neg (by simp only [Bool.or_eq_true, decide_eq_true_eq]; omega)]
  exact ⟨_, rfl⟩

/-- Code whose instructions take no constant assembles in every pool as its stages run in the
empty one: only the stack map table reads the pool. -/
theorem assemble_takesNoConstant {pool q : Pool} {owner : String} {stackMaps : Bool}
    {code : List Instr} {sim : Simulation} {placed : Array Node} {length : Nat} {body : List UInt8}
    (simulated : simulate code ⟨[.object owner], []⟩ = .ok sim)
    (free : ∀ n ∈ lower code sim, n.instr.takesNoConstant = true)
    (laidOut : layout Pool.empty (lower code sim).toArray ((lower code sim).toArray.size + 1) =
      .ok (q, placed, length))
    (encoded : encode placed = .ok body) (localsFit : sim.maxLocals ≤ 65535)
    (stackFits : sim.maxStack ≤ 65535) :
    ∃ a, assemble pool owner stackMaps code = .ok a ∧
      (a.pool, a.code.attributes) = if stackMaps then
          match stackMapTable pool placed length with
          | (pool, some table) => (pool, [table])
          | (pool, none) => (pool, [])
        else (pool, []) := by
  have laidOut' : layout pool (lower code sim).toArray ((lower code sim).toArray.size + 1) =
      .ok (pool, placed, length) := by
    rw [layout_takesNoConstant _ (by simpa using free) pool Pool.empty, laidOut]
    rfl
  obtain ⟨a, assembled⟩ : ∃ a, assemble pool owner stackMaps code = .ok a :=
    assemble_of_stages simulated laidOut' encoded localsFit stackFits
  obtain ⟨sim', placedPool, placed', length', simulated', laidOut'', -, -, -, -, -, -, table⟩ :=
    assemble_ok assembled
  rw [simulated, Except.ok.injEq] at simulated'
  subst simulated'
  rw [laidOut', Except.ok.injEq, Prod.mk.injEq, Prod.mk.injEq] at laidOut''
  obtain ⟨rfl, rfl, rfl⟩ := laidOut''
  exact ⟨a, assembled, table⟩

theorem assemble_run {pool : Pool} {owner : String} {stackMaps : Bool} {code : List Instr}
    {a : Assembled} (h : assemble pool owner stackMaps code = .ok a) :
    Nonempty (AssemblyRun pool owner code a) := by
  obtain ⟨sim, placedPool, placed, length, simulated, laidOut, encoded, localsSmall, stackSmall,
    hStack, hLocals, hExceptions, table⟩ := assemble_ok h
  obtain ⟨q, nodes', grows, lowered, hplaced, short⟩ := layout_placed _ laidOut
  -- the stack map table, when asked for, is the only attribute
  have attrs : placedPool.Grows a.pool ∧ (∀ attr ∈ a.code.attributes, Attribute.Fits attr) ∧
      a.code.attributes.length ≤ 1 := by
    split at table
    · split at table
      all_goals
        rename_i built
        obtain ⟨grown, fits⟩ := stackMapTable_grows built
        simp only [Prod.mk.injEq] at table
        rw [table.1, table.2]
      · exact ⟨grown, by simpa using fits _ rfl, by simp⟩
      · exact ⟨grown, by simp, by simp⟩
    · simp only [Prod.mk.injEq] at table
      rw [table.1, table.2]
      exact ⟨.refl _, by simp, by simp⟩
  have instrs : nodes'.toList.map Node.instr = (lower code sim).map Node.instr := by
    have := congrArg (List.map Prod.fst) lowered
    rwa [List.map_map, List.map_map] at this
  exact ⟨⟨sim, simulated, q, grows, nodes', instrs, placedPool, placed, length, hplaced, short,
    encoded, attrs.1, hStack, hLocals, stackSmall, localsSmall, hExceptions, attrs.2.1, attrs.2.2⟩⟩

namespace AssemblyRun

variable {pool : Pool} {owner : String} {code : List Instr} {a : Assembled}

theorem grows (r : AssemblyRun pool owner code a) : pool.Grows a.pool :=
  r.startGrows.trans (r.laid.grows.trans r.finalGrows)

/-- The Code attribute of an assembled body can be written and read back. -/
theorem codeFits (r : AssemblyRun pool owner code a) : a.code.Fits where
  maxStack := by rw [r.maxStack]; have := r.stackFits; omega
  maxLocals := by rw [r.maxLocals]; have := r.localsFits; omega
  exceptionCount := by simp [r.exceptions]
  exceptions := by simp [r.exceptions]
  attributeCount := by have := r.attributeCount; omega
  attributes := r.attributes

end AssemblyRun

end BasicJvm.Bytecode
