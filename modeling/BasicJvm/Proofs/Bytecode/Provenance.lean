import BasicJvm.Proofs.Bytecode.Simulation

/-!
# Where the simulation's frames come from

The simulation reaches an instruction only by bringing a frame to it with `flow`: the entry
frame to the first instruction, the frame after an instruction to the next one when it goes
on, and the frame after a branch, switch, `gosub` or `dispatch` to a label it names.

* `Simulation.Adds s s' Q` says that every instruction `s'` has reached and `s` had not was
  reached with a frame that `Q` allows.  `stepAt_adds` is the step lemma: one step brings
  what `StepBrings` says, the frame after the instruction to its labels and to the next
  instruction when it goes on, and for a `dispatch` the frame after the key is popped to a
  label.
* `settle_preserves` is the run lemma for any property that stepping and skipping keep.
* `Simulation.Provenance`: every reached instruction is the first one, a label, or the next
  one after a reached instruction that goes on (`simulate_provenance`).  So an instruction
  right after one that never goes on (a `goto`, a switch, `return`, `gosub` or `dispatch`)
  is reached only when it is a label.
-/

namespace BasicJvm.Bytecode

open BasicJvm

/-! ## Frames brought by a computation -/

/-- `s'` kept every frame of `s`, and every instruction it reached that `s` had not was
reached with a frame that `Q` allows. -/
structure Simulation.Adds (s s' : Simulation) (Q : Nat → Frame → Prop) : Prop where
  keeps : ∀ j g, s.frameAt j = some g → s'.frameAt j = some g
  brings : ∀ j g, s.frameAt j = none → s'.frameAt j = some g → Q j g

namespace Simulation.Adds

variable {s s₁ s' : Simulation} {Q Q' : Nat → Frame → Prop}

/-- A change that leaves the frames alone brings nothing. -/
theorem of_incoming (same : s'.incoming = s.incoming) : s.Adds s' Q where
  keeps j g h := by simpa only [Simulation.frameAt, same] using h
  brings j g hnone hsome := by
    simp only [Simulation.frameAt, same] at hsome hnone
    rw [hnone] at hsome
    cases hsome

theorem mono (h : s.Adds s' Q) (imp : ∀ j g, Q j g → Q' j g) : s.Adds s' Q' :=
  ⟨h.keeps, fun j g hnone hsome => imp j g (h.brings j g hnone hsome)⟩

theorem trans (h₁ : s.Adds s₁ Q) (h₂ : s₁.Adds s' Q) : s.Adds s' Q where
  keeps j g h := h₂.keeps j g (h₁.keeps j g h)
  brings j g hnone hsome := by
    cases h : s₁.frameAt j with
    | none => exact h₂.brings j g h hsome
    | some g₁ =>
      rw [h₂.keeps j g₁ h] at hsome
      obtain rfl := Option.some.inj hsome
      exact h₁.brings j g₁ hnone h

end Simulation.Adds

section Brings

variable {f : Frame} {s s' : Simulation}

theorem noteDepth_incoming (h : (noteDepth f).run s = .ok ((), s')) : s'.incoming = s.incoming := by
  simp only [noteDepth_run, Except.ok.injEq, Prod.mk.injEq, true_and] at h
  rw [← h]

theorem siteOf_incoming {instr : Instr} (h : (siteOf instr f).run s = .ok ((), s')) :
    s'.incoming = s.incoming := by
  cases instr
  case gosub key target ret =>
    rcases addSite_run_ok h with ⟨-, -, -, -, rfl⟩ | rfl <;> rfl
  all_goals
    simp only [siteOf, StateT.run_pure, Except.pure_eq_ok, Except.ok.injEq, Prod.mk.injEq,
      true_and] at h
    rw [h]

theorem noteStore_incoming {instr : Instr} (h : (noteStore instr).run s = .ok ((), s')) :
    s'.incoming = s.incoming := by
  unfold noteStore at h
  split at h
  · simp only [StateT.run_modify, Except.pure_eq_ok, Except.ok.injEq, Prod.mk.injEq,
      true_and] at h
    rw [← h]
  · simp only [StateT.run_pure, Except.pure_eq_ok, Except.ok.injEq, Prod.mk.injEq,
      true_and] at h
    rw [← h]

theorem flow_adds {target : Nat} (sized : s.incoming.size = s.code.size)
    (h : (flow target f).run s = .ok ((), s')) : s.Adds s' fun j g => j = target ∧ g = f := by
  refine ⟨(flow_grows sized h).1.frames, ?_⟩
  obtain ⟨inside, ⟨g, -, -, rfl⟩ | ⟨-, rfl⟩⟩ := flow_run_ok h
  · exact (Simulation.Adds.of_incoming rfl).brings
  intro j g hnone hsome
  rw [Simulation.frameAt_set (sized ▸ inside)] at hsome
  split at hsome
  · exact ⟨‹_›, (Option.some.inj hsome).symm⟩
  · rw [hnone] at hsome
    cases hsome

theorem jump_adds {l : Label} (sized : s.incoming.size = s.code.size)
    (h : (jump l f).run s = .ok ((), s')) :
    s.Adds s' fun j g => s.labels.lookup l = some j ∧ g = f := by
  simp only [jump, StateT.run_bind, StateT.run_get, pure_bind] at h
  split at h
  · rename_i j hj
    exact (flow_adds sized h).mono fun _ _ flows => ⟨flows.1 ▸ hj, flows.2⟩
  · simp [fail] at h

theorem forM_jump_adds {α : Type} (label : α → Label) :
    ∀ (xs : List α) {s s' : Simulation}, s.incoming.size = s.code.size →
      (xs.forM fun x => jump (label x) f).run s = .ok ((), s') →
      s.Adds s' fun j g => (∃ x ∈ xs, s.labels.lookup (label x) = some j) ∧ g = f
  | [], s, s', _, h => by
    simp only [List.forM, StateT.run_pure, Except.pure_eq_ok, Except.ok.injEq,
      Prod.mk.injEq, true_and] at h
    subst h
    exact .of_incoming rfl
  | x :: xs, s, s', sized, h => by
    obtain ⟨_, s₁, first, rest⟩ := StateT.run_bind_eq_ok.mp h
    obtain ⟨grows₁, -⟩ := jump_grows sized first
    refine ((jump_adds sized first).mono ?_).trans
      ((forM_jump_adds label xs (grows₁.sized sized) rest).mono ?_)
    · rintro j g ⟨hj, rfl⟩
      exact ⟨⟨x, List.mem_cons_self, hj⟩, rfl⟩
    · rintro j g ⟨⟨y, hy, hj⟩, rfl⟩
      rw [grows₁.labels] at hj
      exact ⟨⟨y, List.mem_cons_of_mem x hy, hj⟩, rfl⟩

theorem follow_adds {i : Nat} {t : Transfer} (sized : s.incoming.size = s.code.size)
    (h : (follow i t).run s = .ok ((), s')) :
    s.Adds s' fun j g => g = t.frame ∧
      ((∃ l ∈ t.targets, s.labels.lookup l = some j) ∨ (t.next = true ∧ j = i + 1)) := by
  simp only [follow] at h
  obtain ⟨_, s₁, jumps, rest⟩ := StateT.run_bind_eq_ok.mp h
  obtain ⟨grows₁, -⟩ := forM_jump_grows id t.targets sized jumps
  obtain ⟨_, s₂, depth, last⟩ := StateT.run_bind_eq_ok.mp rest
  have grows₂ := noteDepth_grows depth
  -- the labels first, then nothing while the depth is noted
  have labelled : s.Adds s₂ fun j g => g = t.frame ∧
      ((∃ l ∈ t.targets, s.labels.lookup l = some j) ∨ (t.next = true ∧ j = i + 1)) :=
    ((forM_jump_adds id t.targets sized jumps).mono fun _ _ hj => ⟨hj.2, .inl hj.1⟩).trans
      (.of_incoming (noteDepth_incoming depth))
  by_cases next : t.next = true
  · simp only [next, ↓reduceIte] at last
    have sized₂ := grows₂.sized (grows₁.sized sized)
    exact labelled.trans ((flow_adds sized₂ last).mono fun _ _ hj => ⟨hj.2, .inr ⟨next, hj.1⟩⟩)
  · simp only [next, Bool.false_eq_true, ↓reduceIte, StateT.run_pure, Except.pure_eq_ok,
      Except.ok.injEq, Prod.mk.injEq, true_and] at last
    subst last
    exact labelled

theorem dispatchAt_adds {i : Nat} {dflt : Label} {f0 : Frame}
    (sized : s.incoming.size = s.code.size) (h : (dispatchAt i dflt f0).run s = .ok ((), s')) :
    s.Adds s' fun j g => popN .int 1 f0 = .ok g ∧
      (s.labels.lookup dflt = some j ∨ ∃ st ∈ s.sites, s.labels.lookup st.ret = some j) := by
  obtain ⟨f, s₅, s₇, popped, jumps, back, depth⟩ := dispatchAt_run_ok h
  -- the state the jumps start from is `s` with the dispatch recorded: same frames and code
  have grows₅ := (forM_jump_grows Site.ret _ (by exact sized) jumps).1
  have toSites : Simulation.Adds _ s₅ fun j g =>
      (s.labels.lookup dflt = some j ∨ ∃ st ∈ s.sites, s.labels.lookup st.ret = some j) ∧ g = f :=
    (forM_jump_adds Site.ret _ (by exact sized) jumps).mono <| by
      rintro _ _ ⟨⟨st, hst, hj⟩, hg⟩
      exact ⟨.inr ⟨st, (List.mem_filter.mp hst).1, hj⟩, hg⟩
  have toDefault : Simulation.Adds _ s₇ fun j g =>
      (s.labels.lookup dflt = some j ∨ ∃ st ∈ s.sites, s.labels.lookup st.ret = some j) ∧ g = f :=
    (jump_adds (by exact grows₅.sized sized) back).mono <| by
      rintro _ _ ⟨hj, hg⟩
      rw [grows₅.labels] at hj
      exact ⟨.inl hj, hg⟩
  -- recording the dispatch and setting its matches leave the frames alone
  refine ((((Simulation.Adds.of_incoming (by exact rfl)).trans toSites).trans
    ((Simulation.Adds.of_incoming (by exact rfl)).trans toDefault)).trans
      (.of_incoming (noteDepth_incoming depth))).mono ?_
  rintro j g ⟨hj, rfl⟩
  exact ⟨popped, hj⟩

end Brings

/-! ## One step -/

/-- What stepping instruction `i`, reached with frame `f0`, may bring to an instruction `j`
it reaches: the frame after the instruction, at a label it names or at the next instruction
when it goes on; for a `dispatch`, the frame after the key is popped, at its default label or
at the return label of a registered site. -/
def StepBrings (labels : List (Label × Nat)) (sites : List Site) (instr : Instr) (i : Nat)
    (f0 : Frame) (j : Nat) (g : Frame) : Prop :=
  match instr with
  | .dispatch dflt => popN .int 1 f0 = .ok g ∧
    (labels.lookup dflt = some j ∨ ∃ st ∈ sites, labels.lookup st.ret = some j)
  | _ => ∃ t, transfer instr f0 = .ok t ∧ g = t.frame ∧
      ((∃ l ∈ t.targets, labels.lookup l = some j) ∨ (t.next = true ∧ j = i + 1))

/-- The step lemma for frames: a step keeps the frames there were and brings only what
`StepBrings` allows. -/
theorem stepAt_adds {i : Nat} {f0 : Frame} {s s' : Simulation}
    (sized : s.incoming.size = s.code.size) (h : (stepAt i f0).run s = .ok ((), s')) :
    s.Adds s' (StepBrings s.labels s.sites (s.code.getD i default) i f0) := by
  simp only [stepAt] at h
  obtain ⟨s₀, s₀', read, rest₀⟩ := StateT.run_bind_eq_ok.mp h
  simp only [StateT.run_get, Except.pure_eq_ok, Except.ok.injEq, Prod.mk.injEq] at read
  obtain ⟨rfl, rfl⟩ := read
  obtain ⟨_, s₁, depth, rest⟩ := StateT.run_bind_eq_ok.mp rest₀
  have grows₁ := noteDepth_grows depth
  have first : s.Adds s₁ (StepBrings s.labels s.sites (s.code.getD i default) i f0) :=
    .of_incoming (noteDepth_incoming depth)
  split at rest
  · rename_i dflt hdispatch
    refine first.trans ((dispatchAt_adds (grows₁.sized sized) rest).mono ?_)
    intro j g brings
    rw [hdispatch]
    rw [grows₁.labels, grows₁.sites] at brings
    exact brings
  · rename_i other
    obtain ⟨_, s₂, site, rest₂⟩ := StateT.run_bind_eq_ok.mp rest
    obtain ⟨t, s₃, lifted, rest₃⟩ := StateT.run_bind_eq_ok.mp rest₂
    obtain ⟨_, s₄, store, rest₄⟩ := StateT.run_bind_eq_ok.mp rest₃
    obtain ⟨ht, same⟩ := lift_run_ok lifted
    subst s₃
    obtain ⟨stepped₂, -⟩ := siteOf_stepped (i := i) site
    have grows₄ := noteStore_grows store
    have sized₄ : s₄.incoming.size = s₄.code.size := by
      rw [grows₄.size, grows₄.code, stepped₂.size, stepped₂.code, grows₁.sized sized]
    -- registering a site and noting a store leave the frames alone
    have same₄ : s₄.incoming = s₁.incoming := by
      rw [noteStore_incoming store, siteOf_incoming site]
    refine (first.trans (.of_incoming same₄)).trans ((follow_adds sized₄ rest₄).mono ?_)
    rintro j g ⟨hg, reach⟩
    have labels₄ : s₄.labels = s.labels := by
      rw [grows₄.labels, stepped₂.labels, grows₁.labels]
    rw [labels₄] at reach
    unfold StepBrings
    split
    · rename_i dflt hdispatch
      exact absurd hdispatch (other dflt)
    · exact ⟨t, ht, hg, reach⟩

/-! ## The run -/

/-- The run lemma for any property that both taking an unreached instruction off the work
list and stepping a reached one keep. -/
theorem settle_preserves (P : Simulation → Prop)
    (skip : ∀ s i rest, s.work = i :: rest → s.frameAt i = none → P s → P { s with work := rest })
    (step : ∀ s s' i rest f, s.work = i :: rest → s.frameAt i = some f → P s →
      (stepAt i f).run { s with work := rest } = .ok ((), s') → P s') :
    ∀ (fuel : Nat) {s s' : Simulation}, P s → settle fuel s = .ok s' → P s'
  | 0, _, _, _, h => by simp [settle] at h
  | fuel + 1, s, s', hp, h => by
    unfold settle at h
    split at h
    · obtain rfl := (Except.ok.inj h).symm
      exact hp
    rename_i i rest work
    dsimp only at h
    split at h
    · rename_i unreached
      exact settle_preserves P skip step fuel (skip s i rest work unreached hp) h
    rename_i f reached
    split at h
    · rename_i s₁ stepped
      exact settle_preserves P skip step fuel (step s s₁ i rest f work reached hp stepped) h
    all_goals simp at h

/-! ## How an instruction comes to be reached -/

/-- The instruction, reached with frame `f`, may go on to the next one. -/
def GoesOn (instr : Instr) (f : Frame) : Prop :=
  ∃ t, transfer instr f = .ok t ∧ t.next = true

/-- Every reached instruction is the first one, a label, or the next one after a reached
instruction that goes on to it. -/
def Simulation.Provenance (s : Simulation) : Prop :=
  ∀ j g, s.frameAt j = some g → j = 0 ∨ (∃ l, s.labels.lookup l = some j) ∨
    ∃ i f, j = i + 1 ∧ s.frameAt i = some f ∧ GoesOn (s.code.getD i default) f

/-- Stepping keeps the provenance of every reached instruction. -/
theorem Simulation.Provenance.step {s s' : Simulation} {i : Nat} {rest : List Nat} {f : Frame}
    (inv : s.Invariant) (prov : s.Provenance) (work : s.work = i :: rest)
    (reached : s.frameAt i = some f) (h : (stepAt i f).run { s with work := rest } = .ok ((), s')) :
    s'.Provenance := by
  obtain ⟨-, code, labels, frames⟩ := inv.step work reached h
  have adds := stepAt_adds (s := { s with work := rest }) inv.sized h
  intro j g hj
  cases old : s.frameAt j with
  | some g₀ =>
    rcases prov j g₀ old with zero | ⟨l, hl⟩ | ⟨i', f', rfl, hi', goes⟩
    · exact .inl zero
    · exact .inr (.inl ⟨l, labels ▸ hl⟩)
    · exact .inr (.inr ⟨i', f', rfl, frames i' f' hi', code ▸ goes⟩)
  | none =>
    have brought := adds.brings j g old hj
    unfold StepBrings at brought
    split at brought
    · obtain ⟨-, hl | ⟨st, -, hl⟩⟩ := brought
      · exact .inr (.inl ⟨_, labels ▸ hl⟩)
      · exact .inr (.inl ⟨_, labels ▸ hl⟩)
    · rename_i instr other
      obtain ⟨t, ht, -, ⟨l, -, hl⟩ | ⟨next, rfl⟩⟩ := brought
      · exact .inr (.inl ⟨l, labels ▸ hl⟩)
      · refine .inr (.inr ⟨i, f, rfl, frames i f reached, ?_⟩)
        rw [code]
        exact ⟨t, ht, next⟩

/-- A successful simulation reached every instruction from the first one, through labels and
through instructions that go on. -/
theorem simulate_provenance {code : List Instr} {entry : Frame} {s : Simulation}
    (h : simulate code entry = .ok s) : s.Provenance := by
  obtain ⟨s₀, fuel, settled, inv, -, -, frames⟩ := simulate_start h
  have start : s₀.Provenance := by
    intro j g hj
    rw [frames j] at hj
    by_cases zero : j = 0
    · exact .inl zero
    · simp [zero] at hj
  have run := settle_preserves (fun s => s.Invariant ∧ s.Provenance)
    (fun s i rest work unreached ⟨inv, prov⟩ => ⟨inv.skip work unreached, prov⟩)
    (fun s s' i rest f work reached ⟨inv, prov⟩ stepped =>
      ⟨(inv.step work reached stepped).1, prov.step inv work reached stepped⟩)
    fuel ⟨inv, start⟩ settled
  exact run.2

/-- What every step of a fold in `Except` keeps holds of the fold's result. -/
theorem foldlM_except_keeps {ε α β : Type} (P : β → Prop) (f : β → α → Except ε β) :
    ∀ (xs : List α), (∀ b a b', a ∈ xs → P b → f b a = .ok b' → P b') →
      ∀ (b b' : β), P b → xs.foldlM f b = .ok b' → P b'
  | [], _, b, b', hb, h => by
    simp only [List.foldlM_nil, pure, Except.pure, Except.ok.injEq] at h
    exact h ▸ hb
  | a :: xs, step, b, b', hb, h => by
    rw [List.foldlM_cons] at h
    obtain ⟨b₁, first, rest⟩ := Except.bind_eq_ok.mp h
    exact foldlM_except_keeps P f xs (fun c x c' hx => step c x c' (List.mem_cons_of_mem a hx))
      b₁ b' (step b a b₁ List.mem_cons_self hb first) rest

/-- Every label of the code sits at the index `labelIndexes` gives for it. -/
theorem labelIndexes_lookup {code : List Instr} {labels : List (Label × Nat)}
    (h : labelIndexes code = .ok labels) {l : Label} {j : Nat} (found : labels.lookup l = some j) :
    code[j]? = some (.label l) := by
  unfold labelIndexes at h
  -- every pair the fold appends is a label of the code with its index
  refine foldlM_except_keeps (fun acc => ∀ l j, List.lookup l acc = some j →
    code[j]? = some (.label l)) _ _ ?_ [] labels (by simp) h l j found
  rintro acc ⟨instr, i⟩ acc' mem keeps step l' j' hl'
  cases instr
  case label l₀ =>
    dsimp only at step
    split at step
    · cases step
    obtain rfl := Except.ok.inj step
    rw [List.lookup_append] at hl'
    cases hacc : acc.lookup l' with
    | some j₀ =>
      rw [hacc, Option.some_or] at hl'
      obtain rfl := Option.some.inj hl'
      exact keeps l' j₀ hacc
    | none =>
      rw [hacc, Option.none_or] at hl'
      by_cases same : l' = l₀
      · subst same
        simp only [List.lookup, BEq.rfl, Option.some.injEq] at hl'
        subst hl'
        exact List.mem_zipIdx_iff_getElem?.mp mem
      · simp [List.lookup, beq_eq_false_iff_ne.mpr same] at hl'
  all_goals
    obtain rfl := Except.ok.inj step
    exact keeps l' j' hl'

end BasicJvm.Bytecode
