import BasicJvm.Bytecode.Simulate
import BasicJvm.Proofs.Except

/-!
# What the simulation has checked when it settles

`simulate` follows every path through the code from the entry frame.  When it succeeds,
every instruction it reached has been checked against the frame it was reached with, and
everything that instruction asks of its successors holds (`Simulation.Settled`):

* for an instruction other than a dispatch (`Simulation.Follows`), its `transfer` succeeds,
  every label it may jump to is placed at an instruction reached with an agreeing frame, the
  next instruction is reached with an agreeing frame when it may go on, and a `gosub` has its
  return site registered;
* for a dispatch (`Simulation.Returns`), the key is an integer on top of the stack, the
  dispatch is recorded, and its matches are exactly the registered sites whose frame agrees
  with the frame after the pop, each of whose return labels is reached with that frame, as is
  its default label.

Every registered site was registered by a reached `gosub` of its key and return label, with
that `gosub`'s frame.  This is `simulate_settled`.

The proof is an invariant of the work list (`Simulation.Invariant`): every reached
instruction that is not waiting to be stepped is settled.  Bringing a frame somewhere only
adds frames, and every instruction reached for the first time waits in the work list
(`Simulation.Extends`, `Simulation.Grows`), so what was settled stays settled.  The one thing
a step can unsettle is a dispatch, by registering a new site, and then every dispatch stepped
so far is put back on the work list (`Simulation.Stepped`).  `stepAt_stepped` and
`stepAt_settled` are the step lemma, `settle_invariant` the run lemma.
-/

namespace BasicJvm.Bytecode

open BasicJvm

/-! ## Reached instructions -/

/-- The frame an instruction was first reached with, if the simulation reached it. -/
def Simulation.frameAt (s : Simulation) (i : Nat) : Option Frame := s.incoming.getD i none

/-- Instruction `j` exists and the simulation reached it with a frame that agrees with
`f`. -/
def Simulation.FlowsTo (s : Simulation) (j : Nat) (f : Frame) : Prop :=
  j < s.code.size ∧ ∃ g, s.frameAt j = some g ∧ g.agrees f = true

/-- Label `l` is placed, at an instruction the simulation reached with a frame that agrees
with `f`. -/
def Simulation.Reaches (s : Simulation) (l : Label) (f : Frame) : Prop :=
  ∃ j, s.labels.lookup l = some j ∧ s.FlowsTo j f

/-- An entry set in an array of optional entries, read back with `none` for a missing one. -/
theorem getD_set_option {α : Type} {a : Array (Option α)} {i : Nat} (inside : i < a.size)
    (v : Option α) (j : Nat) : (a.set! i v).getD j none = if j = i then v else a.getD j none := by
  by_cases hj : j = i
  · subst hj
    simp [Array.set!, Array.getD_eq_getD_getElem?, inside]
  · have ne : i ≠ j := fun h => hj h.symm
    simp [Array.set!, Array.getD_eq_getD_getElem?, hj, ne]

/-- An array of missing entries has none at any place. -/
theorem getD_replicate_none {α : Type} (n j : Nat) :
    (Array.replicate n (none : Option α)).getD j none = none := by
  simp only [Array.getD_eq_getD_getElem?, Array.getElem?_replicate]
  split <;> rfl

/-- The frames after reaching `target` for the first time. -/
theorem Simulation.frameAt_set {s : Simulation} {target : Nat} {f : Frame} {work : List Nat}
    (inside : target < s.incoming.size) (j : Nat) :
    ({ s with incoming := s.incoming.set! target (some f), work := work } : Simulation).frameAt j =
      if j = target then some f else s.frameAt j :=
  getD_set_option inside (some f) j

/-! ## Growing the simulation -/

/-- `s'` grew from `s` by bringing frames to instructions: the code and the labels are as
they were, no frame changed, every instruction reached for the first time waits in the work
list, and so does all the work that was waiting. -/
structure Simulation.Extends (s s' : Simulation) : Prop where
  code : s'.code = s.code
  labels : s'.labels = s.labels
  size : s'.incoming.size = s.incoming.size
  frames : ∀ j f, s.frameAt j = some f → s'.frameAt j = some f
  fresh : ∀ j, s.frameAt j = none → (s'.frameAt j).isSome → j ∈ s'.work
  work : ∀ j ∈ s.work, j ∈ s'.work

namespace Simulation.Extends

variable {s s' s'' : Simulation}

theorem refl (s : Simulation) : s.Extends s :=
  ⟨rfl, rfl, rfl, fun _ _ h => h, fun _ h h' => by simp [h] at h', fun _ h => h⟩

theorem trans (h₁ : s.Extends s') (h₂ : s'.Extends s'') : s.Extends s'' where
  code := h₂.code.trans h₁.code
  labels := h₂.labels.trans h₁.labels
  size := h₂.size.trans h₁.size
  frames j f h := h₂.frames j f (h₁.frames j f h)
  fresh j h h'' := by
    cases h' : s'.frameAt j with
    | none => exact h₂.fresh j h' h''
    | some g => exact h₂.work j (h₁.fresh j h (by simp [h']))
  work j h := h₂.work j (h₁.work j h)

/-- A change that keeps the frames and only adds work. -/
theorem of_incoming (code : s'.code = s.code) (labels : s'.labels = s.labels)
    (incoming : s'.incoming = s.incoming) (work : ∀ j ∈ s.work, j ∈ s'.work) : s.Extends s' where
  code := code
  labels := labels
  size := by rw [incoming]
  frames j f h := by simpa [Simulation.frameAt, incoming] using h
  fresh j h h' := by
    simp only [Simulation.frameAt, incoming] at h h'
    simp [h] at h'
  work := work

theorem flowsTo (h : s.Extends s') {j : Nat} {f : Frame} (flows : s.FlowsTo j f) :
    s'.FlowsTo j f := by
  obtain ⟨inside, g, hg, agree⟩ := flows
  exact ⟨h.code ▸ inside, g, h.frames j g hg, agree⟩

theorem reaches (h : s.Extends s') {l : Label} {f : Frame} (reach : s.Reaches l f) :
    s'.Reaches l f := by
  obtain ⟨j, hj, flows⟩ := reach
  exact ⟨j, h.labels ▸ hj, h.flowsTo flows⟩

end Simulation.Extends

/-- `s'` extends `s` and kept its sites, dispatches and matches: what bringing frames to
instructions and recording limits do. -/
structure Simulation.Grows (s s' : Simulation) : Prop extends Simulation.Extends s s' where
  sites : s'.sites = s.sites
  dispatches : s'.dispatches = s.dispatches
  matched : s'.matched = s.matched

namespace Simulation.Grows

variable {s s' s'' : Simulation}

theorem refl (s : Simulation) : s.Grows s := ⟨.refl s, rfl, rfl, rfl⟩

theorem trans (h₁ : s.Grows s') (h₂ : s'.Grows s'') : s.Grows s'' :=
  ⟨h₁.toExtends.trans h₂.toExtends, h₂.sites.trans h₁.sites,
    h₂.dispatches.trans h₁.dispatches, h₂.matched.trans h₁.matched⟩

/-- A change of the limits alone. -/
theorem of_limits (code : s'.code = s.code) (labels : s'.labels = s.labels)
    (incoming : s'.incoming = s.incoming) (work : s'.work = s.work) (sites : s'.sites = s.sites)
    (dispatches : s'.dispatches = s.dispatches) (matched : s'.matched = s.matched) :
    s.Grows s' :=
  ⟨.of_incoming code labels incoming fun _ h => work ▸ h, sites, dispatches, matched⟩

theorem sized (h : s.Grows s') (sized : s.incoming.size = s.code.size) :
    s'.incoming.size = s'.code.size := by
  rw [h.size, h.code, sized]

end Simulation.Grows

/-! ## Bringing a frame to an instruction or a label -/

/-- A successful `flow` either found the target reached with an agreeing frame, or reached it
now and put it on the work list. -/
theorem flow_run_ok {target : Nat} {f : Frame} {s s' : Simulation}
    (h : (flow target f).run s = .ok ((), s')) :
    target < s.code.size ∧
      ((∃ g, s.frameAt target = some g ∧ g.agrees f = true ∧ s' = s) ∨
       (s.frameAt target = none ∧
         s' = { s with incoming := s.incoming.set! target (some f), work := target :: s.work })) := by
  simp only [flow, StateT.run_bind, StateT.run_get, pure_bind] at h
  split at h
  · simp [fail] at h
  rename_i inside
  refine ⟨by omega, ?_⟩
  split at h
  · rename_i g hg
    split at h
    · simp at h
    · rename_i agree
      simp only [StateT.run_pure, Except.pure_eq_ok, Except.ok.injEq, Prod.mk.injEq] at h
      exact .inl ⟨g, hg, by simpa using agree, h.2.symm⟩
  · rename_i hnone
    simp only [StateT.run_set, Except.pure_eq_ok, Except.ok.injEq, Prod.mk.injEq] at h
    exact .inr ⟨hnone, h.2.symm⟩

section Flows

variable {f : Frame} {s s' : Simulation}

/-- After a successful `flow` the target is reached with an agreeing frame. -/
theorem flow_grows {target : Nat} (sized : s.incoming.size = s.code.size)
    (h : (flow target f).run s = .ok ((), s')) : s.Grows s' ∧ s'.FlowsTo target f := by
  obtain ⟨inside, ⟨g, hg, agree, rfl⟩ | ⟨hnone, rfl⟩⟩ := flow_run_ok h
  · exact ⟨.refl _, inside, g, hg, agree⟩
  have inside' : target < s.incoming.size := sized ▸ inside
  have frames : ∀ j,
      ({ s with incoming := s.incoming.set! target (some f), work := target :: s.work } :
        Simulation).frameAt j = if j = target then some f else s.frameAt j :=
    Simulation.frameAt_set inside'
  refine ⟨⟨⟨rfl, rfl, by simp [Array.set!], ?_, ?_, ?_⟩, rfl, rfl, rfl⟩, inside, f, ?_, ?_⟩
  · intro j g hg
    rw [frames j]
    have ne : j ≠ target := by
      rintro rfl
      simp [hnone] at hg
    simp [ne, hg]
  · intro j hj reached
    by_cases ne : j = target
    · rw [ne]
      exact List.mem_cons_self
    · rw [frames j, if_neg ne, hj] at reached
      simp at reached
  · intro j hj
    exact List.mem_cons_of_mem target hj
  · rw [frames target, if_pos rfl]
  · simp [Frame.agrees]

/-- After a successful `jump` the label is reached with an agreeing frame. -/
theorem jump_grows {l : Label} (sized : s.incoming.size = s.code.size)
    (h : (jump l f).run s = .ok ((), s')) : s.Grows s' ∧ s'.Reaches l f := by
  simp only [jump, StateT.run_bind, StateT.run_get, pure_bind] at h
  split at h
  · rename_i j hj
    obtain ⟨grows, flows⟩ := flow_grows sized h
    exact ⟨grows, j, grows.labels ▸ hj, flows⟩
  · simp [fail] at h

/-- After jumps to a list of labels, each of them is reached with an agreeing frame. -/
theorem forM_jump_grows {α : Type} (label : α → Label) :
    ∀ (xs : List α) {s s' : Simulation}, s.incoming.size = s.code.size →
      (xs.forM fun x => jump (label x) f).run s = .ok ((), s') →
      s.Grows s' ∧ ∀ x ∈ xs, s'.Reaches (label x) f
  | [], s, s', _, h => by
    simp only [List.forM, StateT.run_pure, Except.pure_eq_ok, Except.ok.injEq,
      Prod.mk.injEq, true_and] at h
    subst h
    exact ⟨.refl s, by simp⟩
  | x :: xs, s, s', sized, h => by
    obtain ⟨_, s₁, first, rest⟩ := StateT.run_bind_eq_ok.mp h
    obtain ⟨grows₁, reach⟩ := jump_grows sized first
    obtain ⟨grows₂, reaches⟩ := forM_jump_grows label xs (grows₁.sized sized) rest
    refine ⟨grows₁.trans grows₂, ?_⟩
    intro y hy
    rcases List.mem_cons.mp hy with rfl | hy
    · exact grows₂.reaches reach
    · exact reaches y hy

end Flows

/-! ## The bookkeeping of a step -/

@[simp] theorem noteDepth_run (f : Frame) (s : Simulation) :
    (noteDepth f).run s = .ok ((), { s with maxStack := max s.maxStack f.depth }) := rfl

theorem noteDepth_grows {f : Frame} {s s' : Simulation}
    (h : (noteDepth f).run s = .ok ((), s')) : s.Grows s' := by
  simp only [noteDepth_run, Except.ok.injEq, Prod.mk.injEq, true_and] at h
  subst h
  exact .of_limits rfl rfl rfl rfl rfl rfl rfl

theorem noteStore_grows {instr : Instr} {s s' : Simulation}
    (h : (noteStore instr).run s = .ok ((), s')) : s.Grows s' := by
  unfold noteStore at h
  split at h
  · simp only [StateT.run_modify, Except.pure_eq_ok, Except.ok.injEq, Prod.mk.injEq,
      true_and] at h
    subst h
    exact .of_limits rfl rfl rfl rfl rfl rfl rfl
  · simp only [StateT.run_pure, Except.pure_eq_ok, Except.ok.injEq, Prod.mk.injEq,
      true_and] at h
    subst h
    exact .refl s

/-- A lifted frame computation succeeded exactly when it gave a value, and it leaves the
simulation alone. -/
theorem lift_run_ok {α : Type} {x : Except StepProblem α} {a : α} {s s' : Simulation}
    (h : (lift x).run s = .ok (a, s')) : x = .ok a ∧ s' = s := by
  cases x with
  | error p => simp [lift, fail] at h
  | ok b =>
    simp only [lift, StateT.run_pure, Except.pure_eq_ok, Except.ok.injEq, Prod.mk.injEq] at h
    exact ⟨by rw [h.1], h.2.symm⟩

/-- A successful `addSite` found the key registered with the same return label, or
registered it now and put every dispatch stepped so far back on the work list. -/
theorem addSite_run_ok {key : Int} {ret : Label} {f : Frame} {s s' : Simulation}
    (h : (addSite key ret f).run s = .ok ((), s')) :
    (∃ st ∈ s.sites, st.key = key ∧ st.ret = ret ∧ s' = s) ∨
      s' = { s with sites := s.sites ++ [⟨key, ret, f⟩], work := s.dispatches.reverse ++ s.work } := by
  simp only [addSite, StateT.run_bind, StateT.run_get, pure_bind] at h
  split at h
  · rename_i st found
    split at h
    · simp [fail] at h
    · rename_i same
      simp only [StateT.run_pure, Except.pure_eq_ok, Except.ok.injEq, Prod.mk.injEq,
        true_and] at h
      have hkey := List.find?_some found
      simp only [beq_iff_eq] at hkey
      simp only [bne_iff_ne, ne_eq, Decidable.not_not] at same
      exact .inl ⟨st, List.mem_of_find?_eq_some found, hkey, same, h.symm⟩
  · simp only [StateT.run_set, Except.pure_eq_ok, Except.ok.injEq, Prod.mk.injEq,
      true_and] at h
    exact .inr h.symm

/-! ## One step -/

/-- What stepping instruction `i`, reached with frame `f0`, may do to the simulation besides
bringing frames: register the return site of the instruction, which puts every dispatch
stepped so far back on the work list, and record the instruction as a dispatch with its
matches. -/
structure Simulation.Stepped (i : Nat) (instr : Instr) (f0 : Frame) (s s' : Simulation) : Prop
    extends Simulation.Extends s s' where
  sites : ∀ st ∈ s.sites, st ∈ s'.sites
  requeued : s'.sites = s.sites ∨ ∀ j ∈ s.dispatches, j ∈ s'.work
  registered : ∀ st ∈ s'.sites, st ∉ s.sites →
    ∃ target, instr = .gosub st.key target st.ret ∧ st.frame = f0
  dispatches : ∀ j ∈ s.dispatches, j ∈ s'.dispatches
  matched : ∀ j, j ≠ i → s'.matched.getD j none = s.matched.getD j none
  matchedSize : s'.matched.size = s.matched.size

namespace Simulation.Stepped

variable {i : Nat} {instr : Instr} {f0 : Frame} {s s' s'' : Simulation}

theorem trans (h₁ : s.Stepped i instr f0 s') (h₂ : s'.Stepped i instr f0 s'') :
    s.Stepped i instr f0 s'' where
  toExtends := h₁.toExtends.trans h₂.toExtends
  sites st h := h₂.sites st (h₁.sites st h)
  requeued := by
    rcases h₁.requeued with same₁ | queued₁
    · rcases h₂.requeued with same₂ | queued₂
      · exact .inl (same₂.trans same₁)
      · exact .inr fun j hj => queued₂ j (h₁.dispatches j hj)
    · exact .inr fun j hj => h₂.work j (queued₁ j hj)
  registered st h₂' fresh := by
    by_cases old : st ∈ s'.sites
    · exact h₁.registered st old fresh
    · exact h₂.registered st h₂' old
  dispatches j h := h₂.dispatches j (h₁.dispatches j h)
  matched j ne := (h₂.matched j ne).trans (h₁.matched j ne)
  matchedSize := h₂.matchedSize.trans h₁.matchedSize

theorem of_grows (h : s.Grows s') : s.Stepped i instr f0 s' where
  toExtends := h.toExtends
  sites st hs := h.sites ▸ hs
  requeued := .inl h.sites
  registered st hs fresh := absurd (h.sites ▸ hs) fresh
  dispatches j hj := h.dispatches ▸ hj
  matched j _ := by rw [h.matched]
  matchedSize := by rw [h.matched]

theorem grows (h₁ : s.Stepped i instr f0 s') (h₂ : s'.Grows s'') : s.Stepped i instr f0 s'' :=
  h₁.trans (of_grows h₂)

end Simulation.Stepped

/-- What stepping instruction `i` with frame `f`, which is not a dispatch, establishes. -/
structure Simulation.Follows (s : Simulation) (i : Nat) (instr : Instr) (f : Frame) : Prop where
  transfer : ∃ t, transfer instr f = .ok t ∧ (∀ l ∈ t.targets, s.Reaches l t.frame) ∧
    (t.next = true → s.FlowsTo (i + 1) t.frame)
  site : ∀ key target ret, instr = .gosub key target ret →
    ∃ st ∈ s.sites, st.key = key ∧ st.ret = ret

/-- What stepping the dispatch at `i` with default `dflt` and frame `f0` establishes: the key
popped from `f0` leaves `f`, and the dispatch returns to exactly the sites whose frame agrees
with `f`, each reached with `f`, and otherwise to `dflt`, reached with `f` too. -/
structure Simulation.Returns (s : Simulation) (i : Nat) (dflt : Label) (f0 : Frame) : Prop where
  popped : ∃ f, popN .int 1 f0 = .ok f ∧
    s.matched.getD i none = some (s.sites.filter (·.frame.agrees f)) ∧
    (∀ st ∈ s.sites, st.frame.agrees f = true → s.Reaches st.ret f) ∧ s.Reaches dflt f
  recorded : i ∈ s.dispatches

/-- Instruction `i`, reached with frame `f`, has been stepped, and what it asks of its
successors holds. -/
def Simulation.Settled (s : Simulation) (i : Nat) (f : Frame) : Prop :=
  match s.code.getD i default with
  | .dispatch dflt => s.Returns i dflt f
  | instr => s.Follows i instr f

theorem Simulation.Follows.mono {s s' : Simulation} {i : Nat} {instr : Instr} {f : Frame}
    (h : s.Follows i instr f) (ext : s.Extends s') (sites : ∀ st ∈ s.sites, st ∈ s'.sites) :
    s'.Follows i instr f := by
  obtain ⟨⟨t, ht, targets, next⟩, site⟩ := h
  refine ⟨⟨t, ht, fun l hl => ext.reaches (targets l hl), fun hn => ext.flowsTo (next hn)⟩, ?_⟩
  intro key target ret hinstr
  obtain ⟨st, hst, hkey, hret⟩ := site key target ret hinstr
  exact ⟨st, sites st hst, hkey, hret⟩

theorem Simulation.Returns.mono {s s' : Simulation} {i : Nat} {dflt : Label} {f0 : Frame}
    (h : s.Returns i dflt f0) (ext : s.Extends s') (sites : s'.sites = s.sites)
    (matched : s'.matched.getD i none = s.matched.getD i none)
    (dispatches : ∀ j ∈ s.dispatches, j ∈ s'.dispatches) : s'.Returns i dflt f0 := by
  obtain ⟨⟨f, hf, hmatched, back, hdflt⟩, recorded⟩ := h
  refine ⟨⟨f, hf, by rw [matched, hmatched, sites], ?_, ext.reaches hdflt⟩,
    dispatches i recorded⟩
  intro st hst agree
  exact ext.reaches (back st (sites ▸ hst) agree)

/-! ## Stepping one instruction -/

section Step

variable {i : Nat} {f0 : Frame} {s s' : Simulation}

/-- What registering the return site of an instruction does. -/
theorem siteOf_stepped {instr : Instr} (h : (siteOf instr f0).run s = .ok ((), s')) :
    s.Stepped i instr f0 s' ∧ s'.dispatches = s.dispatches ∧ s'.matched = s.matched ∧
      ∀ key target ret, instr = .gosub key target ret → ∃ st ∈ s'.sites, st.key = key ∧ st.ret = ret := by
  cases instr
  case gosub key target ret =>
    rcases addSite_run_ok h with ⟨st, hst, hkey, hret, rfl⟩ | rfl
    · refine ⟨.of_grows (.refl _), rfl, rfl, ?_⟩
      rintro key' target' ret' ⟨rfl, rfl, rfl⟩
      exact ⟨st, hst, hkey, hret⟩
    · refine ⟨⟨.of_incoming rfl rfl rfl fun j hj => List.mem_append_right _ hj,
        ?_, ?_, ?_, fun _ hj => hj, fun _ _ => rfl, rfl⟩, rfl, rfl, ?_⟩
      · intro st hst
        exact List.mem_append_left _ hst
      · exact .inr fun j hj => List.mem_append_left _ (List.mem_reverse.mpr hj)
      · intro st hst fresh
        simp only [List.mem_append, List.mem_singleton] at hst
        rcases hst with old | rfl
        · exact absurd old fresh
        · exact ⟨target, rfl, rfl⟩
      · rintro key' target' ret' ⟨rfl, rfl, rfl⟩
        exact ⟨⟨key, ret, f0⟩, by simp, rfl, rfl⟩
  all_goals
    simp only [siteOf, StateT.run_pure, Except.pure_eq_ok, Except.ok.injEq, Prod.mk.injEq,
      true_and] at h
    subst h
    exact ⟨.of_grows (.refl s), rfl, rfl, by simp⟩

/-- Following a transfer brings its frame to all its targets and, when it goes on, to the
next instruction. -/
theorem follow_grows {t : Transfer} (sized : s.incoming.size = s.code.size)
    (h : (follow i t).run s = .ok ((), s')) :
    s.Grows s' ∧ (∀ l ∈ t.targets, s'.Reaches l t.frame) ∧
      (t.next = true → s'.FlowsTo (i + 1) t.frame) := by
  simp only [follow] at h
  obtain ⟨_, s₁, jumps, rest⟩ := StateT.run_bind_eq_ok.mp h
  obtain ⟨grows₁, targets⟩ := forM_jump_grows id t.targets sized jumps
  obtain ⟨_, s₂, depth, last⟩ := StateT.run_bind_eq_ok.mp rest
  have grows₂ := noteDepth_grows depth
  have sized₂ := grows₂.sized (grows₁.sized sized)
  cases next : t.next with
  | false =>
    simp only [next, Bool.false_eq_true, ↓reduceIte, StateT.run_pure, Except.pure_eq_ok,
      Except.ok.injEq, Prod.mk.injEq, true_and] at last
    subst last
    exact ⟨grows₁.trans grows₂, fun l hl => grows₂.reaches (targets l hl), by simp⟩
  | true =>
    simp only [next, ↓reduceIte] at last
    obtain ⟨grows₃, flows⟩ := flow_grows sized₂ last
    refine ⟨grows₁.trans (grows₂.trans grows₃), ?_, fun _ => flows⟩
    intro l hl
    exact grows₃.reaches (grows₂.reaches (targets l hl))

/-- A dispatch that runs to the end, stage by stage: its key is popped to `f`; it joins the
dispatches unless it has matches already; it jumps to the return label of every site whose
frame agrees with `f`; it sets its matches to those sites; it jumps to its default label; and
it notes the depth of `f`. -/
theorem dispatchAt_run_ok {dflt : Label} (h : (dispatchAt i dflt f0).run s = .ok ((), s')) :
    ∃ f s₅ s₇, popN .int 1 f0 = .ok f ∧
      ((s.sites.filter (·.frame.agrees f)).forM fun st => jump st.ret f).run { s with
          dispatches := s.dispatches ++ if (s.matched.getD i none).isNone then [i] else [] } =
        .ok ((), s₅) ∧
      (jump dflt f).run { s₅ with
        matched := s₅.matched.set! i (some (s.sites.filter (·.frame.agrees f))) } = .ok ((), s₇) ∧
      (noteDepth f).run s₇ = .ok ((), s') := by
  simp only [dispatchAt] at h
  split at h
  · simp [StateT.run_bind] at h
  obtain ⟨f, s₁, pop, rest₁⟩ := StateT.run_bind_eq_ok.mp h
  obtain ⟨_, s₂, record, rest₂⟩ := StateT.run_bind_eq_ok.mp rest₁
  obtain ⟨s₃, s₄, read, rest₃⟩ := StateT.run_bind_eq_ok.mp rest₂
  obtain ⟨_, s₅, jumps, rest₄⟩ := StateT.run_bind_eq_ok.mp rest₃
  obtain ⟨_, s₆, setMatched, rest₅⟩ := StateT.run_bind_eq_ok.mp rest₄
  obtain ⟨_, s₇, back, depth⟩ := StateT.run_bind_eq_ok.mp rest₅
  obtain ⟨popped, same⟩ := lift_run_ok pop
  subst s₁
  simp only [StateT.run_modify, StateT.run_get, Except.pure_eq_ok, Except.ok.injEq,
    Prod.mk.injEq, true_and] at record read setMatched
  obtain ⟨rfl, rfl⟩ := read
  -- the model records the dispatch by a choice of states; it is one update of the dispatches
  have recorded : s₂ = { s with
      dispatches := s.dispatches ++ if (s.matched.getD i none).isNone then [i] else [] } := by
    subst record
    split <;> simp_all
  subst recorded setMatched
  exact ⟨f, s₅, s₇, popped, jumps, back, depth⟩

/-- Every dispatch with matches has been recorded. -/
def Simulation.Recorded (s : Simulation) : Prop :=
  ∀ j, (s.matched.getD j none).isSome → j ∈ s.dispatches

/-- Stepping a dispatch: the key is popped, the dispatch recorded, and the frame after the pop
brought to the return label of every site it matches and to its default label. -/
theorem dispatchAt_stepped {dflt : Label} (sized : s.incoming.size = s.code.size)
    (matchedSize : s.matched.size = s.code.size) (recorded : s.Recorded) (inside : i < s.code.size)
    (h : (dispatchAt i dflt f0).run s = .ok ((), s')) :
    s.Stepped i (.dispatch dflt) f0 s' ∧ s'.Returns i dflt f0 ∧ s'.Recorded := by
  obtain ⟨f, s₅, s₇, popped, jumps, back, depth⟩ := dispatchAt_run_ok h
  generalize record : { s with
    dispatches := s.dispatches ++ if (s.matched.getD i none).isNone then [i] else [] } = s₂ at jumps
  generalize setMatched : { s₅ with
    matched := s₅.matched.set! i (some (s.sites.filter (·.frame.agrees f))) } = s₆ at back
  -- recording the dispatch changes nothing else
  have here : i ∈ s₂.dispatches := by
    subst record
    cases hm : s.matched.getD i none with
    | none => simp
    | some ms => simpa [hm] using recorded i (by simp [hm])
  have step₁ : s.Stepped i (.dispatch dflt) f0 s₂ := by
    subst record
    exact ⟨.of_incoming rfl rfl rfl fun _ hj => hj, fun _ hst => hst, .inl rfl,
      fun _ hst fresh => absurd hst fresh, fun _ hj => List.mem_append_left _ hj,
      fun _ _ => rfl, rfl⟩
  have sized₃ : s₂.incoming.size = s₂.code.size := by
    rw [step₁.size, step₁.code, sized]
  obtain ⟨grows₅, returns⟩ := forM_jump_grows Site.ret _ sized₃ jumps
  -- setting the matches of this dispatch changes nothing else
  have matchedSize₅ : i < s₅.matched.size := by
    rw [grows₅.matched, step₁.matchedSize, matchedSize]
    exact inside
  have step₆ : s₅.Stepped i (.dispatch dflt) f0 s₆ := by
    subst setMatched
    refine ⟨.of_incoming rfl rfl rfl fun _ hj => hj, fun _ hst => hst, .inl rfl,
      fun _ hst fresh => absurd hst fresh, fun _ hj => hj, ?_, by simp [Array.set!]⟩
    intro j ne
    rw [getD_set_option matchedSize₅, if_neg ne]
  have sized₆ : s₆.incoming.size = s₆.code.size := by
    rw [step₆.size, step₆.code, grows₅.sized sized₃]
  obtain ⟨grows₇, reachDflt⟩ := jump_grows sized₆ back
  have last := noteDepth_grows depth
  have grows' := grows₇.trans last
  have later : s₂.Stepped i (.dispatch dflt) f0 s' :=
    (Simulation.Stepped.of_grows grows₅).trans (step₆.grows grows')
  have stepped := step₁.trans later
  have sites : s'.sites = s.sites := by
    subst setMatched
    rw [grows'.sites, grows₅.sites, ← record]
  have matchedHere : s'.matched.getD i none = some (s.sites.filter (·.frame.agrees f)) := by
    subst setMatched
    rw [grows'.matched, getD_set_option matchedSize₅, if_pos rfl]
  refine ⟨stepped, ⟨⟨f, popped, by rw [matchedHere, sites], ?_, last.reaches reachDflt⟩,
    later.dispatches i here⟩, ?_⟩
  · intro st hst agree
    have chosen : st ∈ s.sites.filter (·.frame.agrees f) := by
      rw [← sites]
      exact List.mem_filter.mpr ⟨hst, agree⟩
    exact (step₆.toExtends.trans grows'.toExtends).reaches (returns st chosen)
  · intro j hj
    by_cases ne : j = i
    · rw [ne]
      exact later.dispatches i here
    · rw [stepped.matched j ne] at hj
      exact stepped.dispatches j (recorded j hj)

/-- The step lemma: stepping the instruction at `i` with the frame it was reached with settles
it, and does nothing else than `Simulation.Stepped` allows. -/
theorem stepAt_stepped (sized : s.incoming.size = s.code.size)
    (matchedSize : s.matched.size = s.code.size) (recorded : s.Recorded) (inside : i < s.code.size)
    (h : (stepAt i f0).run s = .ok ((), s')) :
    s.Stepped i (s.code.getD i default) f0 s' ∧ s'.Settled i f0 ∧ s'.Recorded := by
  simp only [stepAt] at h
  obtain ⟨s₀, s₀', read, rest₀⟩ := StateT.run_bind_eq_ok.mp h
  simp only [StateT.run_get, Except.pure_eq_ok, Except.ok.injEq, Prod.mk.injEq] at read
  obtain ⟨same₀, same₀'⟩ := read
  subst s₀ s₀'
  obtain ⟨_, s₁, depth, rest⟩ := StateT.run_bind_eq_ok.mp rest₀
  have grows₁ := noteDepth_grows depth
  have sized₁ := grows₁.sized sized
  split at rest
  · rename_i dflt hdispatch
    have recorded₁ : s₁.Recorded := by
      intro j hj
      rw [grows₁.matched] at hj
      exact grows₁.dispatches ▸ recorded j hj
    obtain ⟨stepped, returns, recorded'⟩ := dispatchAt_stepped sized₁
      (by rw [grows₁.matched, grows₁.code, matchedSize]) recorded₁ (grows₁.code ▸ inside) rest
    refine ⟨hdispatch ▸ (Simulation.Stepped.of_grows grows₁).trans stepped, ?_, recorded'⟩
    unfold Simulation.Settled
    rw [stepped.code, grows₁.code, hdispatch]
    exact returns
  · rename_i other
    obtain ⟨_, s₂, site, rest₂⟩ := StateT.run_bind_eq_ok.mp rest
    obtain ⟨t, s₃, lifted, rest₃⟩ := StateT.run_bind_eq_ok.mp rest₂
    obtain ⟨_, s₄, store, rest₄⟩ := StateT.run_bind_eq_ok.mp rest₃
    obtain ⟨ht, same₃⟩ := lift_run_ok lifted
    subst s₃
    obtain ⟨stepped₂, dispatches₂, matched₂, registered⟩ := siteOf_stepped (i := i) site
    have grows₄ := noteStore_grows store
    have sized₄ : s₄.incoming.size = s₄.code.size := by
      rw [grows₄.size, grows₄.code, stepped₂.size, stepped₂.code, sized₁]
    obtain ⟨grows', targets, next⟩ := follow_grows sized₄ rest₄
    have stepped : s₁.Stepped i (s.code.getD i default) f0 s' :=
      stepped₂.grows (grows₄.trans grows')
    refine ⟨(Simulation.Stepped.of_grows grows₁).trans stepped, ?_, ?_⟩
    · unfold Simulation.Settled
      rw [stepped.code, grows₁.code]
      split
      · rename_i dflt hdispatch
        exact absurd hdispatch (other dflt)
      · refine ⟨⟨t, ht, targets, next⟩, ?_⟩
        intro key target ret hgosub
        obtain ⟨st, hst, hkey, hret⟩ := registered key target ret hgosub
        exact ⟨st, (grows₄.trans grows').sites ▸ hst, hkey, hret⟩
    · have grows := grows₄.trans grows'
      intro j hj
      rw [grows.matched, matched₂, grows₁.matched] at hj
      rw [grows.dispatches, dispatches₂, grows₁.dispatches]
      exact recorded j hj

/-- A settled instruction other than the one stepped stays settled unless the step put it
back on the work list. -/
theorem Simulation.Settled.mono {j : Nat} {instr : Instr} {f : Frame} (h : s.Settled j f)
    (stepped : s.Stepped i instr f0 s') (ne : j ≠ i) (waiting : j ∉ s'.work) :
    s'.Settled j f := by
  unfold Simulation.Settled at h ⊢
  rw [stepped.code]
  split at h
  · rename_i dflt _
    -- a new site would have put this dispatch back on the work list
    have sites : s'.sites = s.sites := by
      rcases stepped.requeued with same | queued
      · exact same
      · exact absurd (queued j h.recorded) waiting
    exact h.mono stepped.toExtends sites (stepped.matched j ne) stepped.dispatches
  · exact h.mono stepped.toExtends stepped.sites

end Step

/-! ## Settling -/

@[simp] theorem Simulation.frameAt_work (s : Simulation) (work : List Nat) (j : Nat) :
    ({ s with work := work } : Simulation).frameAt j = s.frameAt j := rfl

/-- Whether an instruction is settled does not depend on the work list. -/
theorem Simulation.Settled.work {s : Simulation} {j : Nat} {f : Frame} (h : s.Settled j f)
    (work : List Nat) : ({ s with work := work } : Simulation).Settled j f := by
  unfold Simulation.Settled at h ⊢
  dsimp only
  split at h
  · exact ⟨h.popped, h.recorded⟩
  · exact ⟨h.transfer, h.site⟩

/-- The invariant of the work list: every reached instruction that is not waiting is settled,
and every site was registered by a reached `gosub` with its frame. -/
structure Simulation.Invariant (s : Simulation) : Prop where
  sized : s.incoming.size = s.code.size
  matchedSize : s.matched.size = s.code.size
  recorded : s.Recorded
  sites : ∀ st ∈ s.sites, ∃ j target,
    s.code.getD j default = .gosub st.key target st.ret ∧ s.frameAt j = some st.frame
  settled : ∀ j f, s.frameAt j = some f → j ∉ s.work → s.Settled j f

/-- Taking an instruction off the work list, when it was not reached, keeps the invariant. -/
theorem Simulation.Invariant.skip {s : Simulation} {i : Nat} {rest : List Nat}
    (inv : s.Invariant) (work : s.work = i :: rest) (unreached : s.frameAt i = none) :
    ({ s with work := rest } : Simulation).Invariant where
  sized := inv.sized
  matchedSize := inv.matchedSize
  recorded := inv.recorded
  sites := inv.sites
  settled j f hj waiting := by
    have ne : j ≠ i := by
      rintro rfl
      simp [unreached] at hj
    exact (inv.settled j f (by simpa using hj) (by simp [work, ne, waiting])).work rest

/-- Stepping the instruction taken off the work list keeps the invariant. -/
theorem Simulation.Invariant.step {s s' : Simulation} {i : Nat} {rest : List Nat} {f : Frame}
    (inv : s.Invariant) (work : s.work = i :: rest) (reached : s.frameAt i = some f)
    (h : (stepAt i f).run { s with work := rest } = .ok ((), s')) :
    s'.Invariant ∧ s'.code = s.code ∧ s'.labels = s.labels ∧
      ∀ j g, s.frameAt j = some g → s'.frameAt j = some g := by
  have inside : i < s.code.size := by
    rw [← inv.sized]
    by_contra outside
    simp [Simulation.frameAt, Array.getD_eq_getD_getElem?, Nat.le_of_not_lt outside] at reached
  obtain ⟨stepped, settledHere, recorded⟩ :=
    stepAt_stepped (s := { s with work := rest }) inv.sized inv.matchedSize inv.recorded inside h
  refine ⟨⟨?_, ?_, recorded, ?_, ?_⟩, stepped.code, stepped.labels, stepped.frames⟩
  · rw [stepped.size, stepped.code]
    exact inv.sized
  · rw [stepped.matchedSize, stepped.code]
    exact inv.matchedSize
  · intro st hst
    by_cases old : st ∈ s.sites
    · obtain ⟨j, target, hcode, hframe⟩ := inv.sites st old
      exact ⟨j, target, by rw [stepped.code]; exact hcode, stepped.frames j _ hframe⟩
    · -- a site registered by this step comes from the instruction stepped, with its frame
      obtain ⟨target, hcode, hframe⟩ := stepped.registered st hst old
      refine ⟨i, target, by rw [stepped.code]; exact hcode, ?_⟩
      rw [hframe]
      exact stepped.frames i f reached
  · intro j g hj waiting
    by_cases here : j = i
    · subst here
      have same : g = f := by
        rw [stepped.frames j f reached] at hj
        exact (Option.some.inj hj).symm
      rw [same]
      exact settledHere
    cases before : s.frameAt j with
    | none =>
      exact absurd (stepped.fresh j before (by simp [hj])) waiting
    | some g' =>
      have same : g' = g := by
        rw [stepped.frames j g' before] at hj
        exact Option.some.inj hj
      subst same
      have notWaiting : j ∉ s.work := by
        rw [work]
        intro mem
        rcases List.mem_cons.mp mem with rfl | later
        · exact here rfl
        · exact waiting (stepped.work j later)
      exact ((inv.settled j g' before notWaiting).work rest).mono stepped here waiting

/-- The run lemma: settling keeps the invariant and, when it succeeds, leaves no work; the
code, the labels and every frame already reached are kept. -/
theorem settle_invariant :
    ∀ (fuel : Nat) {s s' : Simulation}, s.Invariant → settle fuel s = .ok s' →
      s'.Invariant ∧ s'.work = [] ∧ s'.code = s.code ∧ s'.labels = s.labels ∧
        ∀ j f, s.frameAt j = some f → s'.frameAt j = some f
  | 0, _, _, _, h => by simp [settle] at h
  | fuel + 1, s, s', inv, h => by
    unfold settle at h
    split at h
    · rename_i empty
      obtain rfl := (Except.ok.inj h).symm
      exact ⟨inv, empty, rfl, rfl, fun _ _ hj => hj⟩
    rename_i i rest work
    dsimp only at h
    split at h
    · rename_i unreached
      obtain ⟨inv', done, code, labels, frames⟩ := settle_invariant fuel (inv.skip work unreached) h
      exact ⟨inv', done, code, labels, frames⟩
    rename_i f reached
    split at h
    · rename_i s₁ stepped
      obtain ⟨inv₁, code₁, labels₁, frames₁⟩ := inv.step work reached stepped
      obtain ⟨inv', done, code, labels, frames⟩ := settle_invariant fuel inv₁ h
      exact ⟨inv', done, code.trans code₁, labels.trans labels₁,
        fun j g hj => frames j g (frames₁ j g hj)⟩
    all_goals simp at h

/-- Where `simulate` settles from, for code that is not empty and whose labels are found: the
code and its labels, the entry frame at the first instruction and nowhere else, and the
invariant of the work list. -/
theorem simulate_eq_settle {code : List Instr} (entry : Frame) {labels : List (Label × Nat)}
    (nonempty : code ≠ []) (hlabels : labelIndexes code = .ok labels) :
    ∃ s₀ fuel, simulate code entry = settle fuel s₀ ∧ s₀.Invariant ∧ s₀.code = code.toArray ∧
      s₀.labels = labels ∧ ∀ j, s₀.frameAt j = if j = 0 then some entry else none := by
  have inside : 0 < code.length := List.length_pos_iff.mpr nonempty
  let s₀ : Simulation := ⟨code.toArray, labels, Array.replicate code.length none, [], [],
    Array.replicate code.length none, 0, entry.locals.length, []⟩
  have frames : ∀ j, ({ s₀ with incoming := s₀.incoming.set! 0 (some entry), work := [0] } :
      Simulation).frameAt j = if j = 0 then some entry else none := by
    intro j
    rw [Simulation.frameAt_set (by simpa [s₀] using inside)]
    split
    · rfl
    · exact getD_replicate_none _ _
  have inv : ({ s₀ with incoming := s₀.incoming.set! 0 (some entry), work := [0] } :
      Simulation).Invariant := by
    refine ⟨by simp [s₀, Array.set!], by simp [s₀], ?_, by simp [s₀], ?_⟩
    · intro j hj
      dsimp only [s₀] at hj
      rw [getD_replicate_none] at hj
      simp at hj
    · intro j f hj waiting
      rw [frames j] at hj
      by_cases zero : j = 0
      · simp [zero] at waiting
      · simp [zero] at hj
  refine ⟨_, (code.length + 1) * (code.length + 1) + 1, ?_, inv, rfl, rfl, frames⟩
  unfold simulate
  rw [if_neg (by simpa using nonempty), hlabels]
  rfl

/-- Where a successful `simulate` settled from: the code and its labels, the entry frame at the
first instruction and nowhere else, and the invariant of the work list. -/
theorem simulate_start {code : List Instr} {entry : Frame} {s : Simulation}
    (h : simulate code entry = .ok s) :
    ∃ s₀ fuel, settle fuel s₀ = .ok s ∧ s₀.Invariant ∧ s₀.code = code.toArray ∧
      labelIndexes code = .ok s₀.labels ∧ ∀ j, s₀.frameAt j = if j = 0 then some entry else none := by
  have nonempty : code ≠ [] := by
    rintro rfl
    simp [simulate] at h
  cases hlabels : labelIndexes code with
  | error e =>
    unfold simulate at h
    rw [if_neg (by simpa using nonempty), hlabels] at h
    cases h
  | ok labels =>
    obtain ⟨s₀, fuel, settles, inv, hcode, same, frames⟩ := simulate_eq_settle entry nonempty hlabels
    exact ⟨s₀, fuel, settles ▸ h, inv, hcode, same ▸ rfl, frames⟩

/-- What a successful simulation has checked: the code and its labels are the ones given, the
entry frame is the frame of the first instruction, every reached instruction is settled, and
every site was registered by a reached `gosub`. -/
theorem simulate_settled {code : List Instr} {entry : Frame} {s : Simulation}
    (h : simulate code entry = .ok s) :
    s.Invariant ∧ s.work = [] ∧ s.code = code.toArray ∧ labelIndexes code = .ok s.labels ∧
      s.frameAt 0 = some entry := by
  obtain ⟨s₀, fuel, settled, inv, hcode, hlabels, frames⟩ := simulate_start h
  obtain ⟨inv', done, hcode', hlabels', hframes⟩ := settle_invariant fuel inv settled
  refine ⟨inv', done, hcode'.trans hcode, by rw [hlabels', hlabels], hframes 0 entry ?_⟩
  rw [frames 0, if_pos rfl]

end BasicJvm.Bytecode
