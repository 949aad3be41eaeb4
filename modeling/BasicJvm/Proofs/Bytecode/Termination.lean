import BasicJvm.Proofs.Bytecode.Simulation

/-!
# The simulation always settles

`simulate` takes at most `(n + 1) * (n + 1) + 1` instructions off its work list for code of
`n` instructions, and fails with `unsettled` when the list is not empty by then.  That never
happens: every turn of `settle` lowers a measure that starts below the bound
(`simulate_ne_unsettled`).

The measure (`Simulation.measure`) counts the instructions waiting on the work list, the
instructions not reached yet, and `n` more for every return site still to be registered.
Taking an instruction off the list lowers it by one, and stepping the instruction cannot raise
it again:

* bringing a frame to an instruction not reached before puts it on the work list: one more
  waiting, one fewer unreached (`Simulation.Brings`);
* registering a new return site puts every dispatch stepped so far back on the list, at most
  `n` of them, and leaves one site fewer to come.

Sites have different keys, each the key of a `gosub` of the code, and the dispatches recorded
are different instructions, so there are at most `n` of each (`Simulation.Bounded`).
-/

namespace BasicJvm.Bytecode

open BasicJvm

/-- The key of a `gosub`. -/
def Instr.gosubKey? : Instr → Option Int
  | .gosub key _ _ => some key
  | _ => none

/-- The instructions not reached yet. -/
def Simulation.unreached (s : Simulation) : Nat :=
  ((Finset.range s.code.size).filter fun j => s.frameAt j = none).card

/-- What is left to do: the instructions waiting, those not reached yet, and a round of every
dispatch for each return site still to come. -/
def Simulation.measure (s : Simulation) : Nat :=
  s.work.length + s.unreached + (s.code.size - s.sites.length) * s.code.size

/-- What bounds the sites and the dispatches by the length of the code: sites have different
keys, each the key of a `gosub`, and a recorded dispatch is recorded once, with its matches. -/
structure Simulation.Bounded (s : Simulation) : Prop where
  sized : s.incoming.size = s.code.size
  matchedSize : s.matched.size = s.code.size
  keys : (s.sites.map Site.key).Nodup
  keyed : ∀ st ∈ s.sites, st.key ∈ s.code.toList.filterMap Instr.gosubKey?
  dispatches : s.dispatches.Nodup
  dispatched : ∀ j ∈ s.dispatches, j < s.code.size ∧ (s.matched.getD j none).isSome

namespace Simulation

variable {s s' s'' : Simulation}

theorem Bounded.sites_le (h : s.Bounded) : s.sites.length ≤ s.code.size := by
  have sub : (s.sites.map Site.key).Subperm (s.code.toList.filterMap Instr.gosubKey?) :=
    h.keys.subperm fun k hk => by
      obtain ⟨st, hst, rfl⟩ := List.mem_map.mp hk
      exact h.keyed st hst
  calc s.sites.length = (s.sites.map Site.key).length := (List.length_map _).symm
    _ ≤ (s.code.toList.filterMap Instr.gosubKey?).length := sub.length_le
    _ ≤ s.code.toList.length := List.length_filterMap_le _ _
    _ = s.code.size := Array.length_toList

theorem Bounded.dispatches_le (h : s.Bounded) : s.dispatches.length ≤ s.code.size := by
  have sub : s.dispatches.Subperm (List.range s.code.size) :=
    h.dispatches.subperm fun j hj => List.mem_range.mpr (h.dispatched j hj).1
  simpa using sub.length_le

theorem unreached_le (s : Simulation) : s.unreached ≤ s.code.size :=
  (Finset.card_filter_le _ _).trans (Finset.card_range _).le

/-- The unreached instructions depend on the code and the frames only. -/
theorem unreached_congr (code : s'.code = s.code) (incoming : s'.incoming = s.incoming) :
    s'.unreached = s.unreached := by
  unfold unreached frameAt
  rw [code, incoming]

/-- With at most one instruction waiting, the measure is below `1 + n + n * n`. -/
theorem measure_le (s : Simulation) (waiting : s.work.length ≤ 1) :
    s.measure ≤ 1 + s.code.size + s.code.size * s.code.size := by
  have unreached := s.unreached_le
  have sites : (s.code.size - s.sites.length) * s.code.size ≤ s.code.size * s.code.size :=
    Nat.mul_le_mul_right _ (Nat.sub_le _ _)
  unfold measure
  omega

/-- Reaching an instruction for the first time leaves one fewer unreached. -/
theorem unreached_set {target : Nat} {f : Frame} {work : List Nat}
    (inside : target < s.code.size) (sized : s.incoming.size = s.code.size)
    (fresh : s.frameAt target = none) :
    ({ s with incoming := s.incoming.set! target (some f), work := work } : Simulation).unreached
      + 1 = s.unreached := by
  have frames : ∀ j, ({ s with incoming := s.incoming.set! target (some f), work := work } :
      Simulation).frameAt j = if j = target then some f else s.frameAt j :=
    frameAt_set (sized ▸ inside)
  have erased : ((Finset.range s.code.size).filter fun j =>
      ({ s with incoming := s.incoming.set! target (some f), work := work } : Simulation).frameAt j
        = none) = ((Finset.range s.code.size).filter fun j => s.frameAt j = none).erase target := by
    ext j
    simp only [Finset.mem_filter, Finset.mem_erase, frames j]
    by_cases hj : j = target <;> simp [hj]
  unfold unreached
  rw [erased]
  exact Finset.card_erase_add_one (by simp [inside, fresh])

/-! ## Bringing frames -/

/-- `s'` differs from `s` only by frames brought to instructions not reached before, each of
them put on the work list, and by the limits. -/
structure Brings (s s' : Simulation) : Prop where
  code : s'.code = s.code
  size : s'.incoming.size = s.incoming.size
  sites : s'.sites = s.sites
  dispatches : s'.dispatches = s.dispatches
  matched : s'.matched = s.matched
  pending : s'.work.length + s'.unreached = s.work.length + s.unreached

namespace Brings

theorem refl (s : Simulation) : s.Brings s := ⟨rfl, rfl, rfl, rfl, rfl, rfl⟩

theorem trans (h₁ : s.Brings s') (h₂ : s'.Brings s'') : s.Brings s'' where
  code := h₂.code.trans h₁.code
  size := h₂.size.trans h₁.size
  sites := h₂.sites.trans h₁.sites
  dispatches := h₂.dispatches.trans h₁.dispatches
  matched := h₂.matched.trans h₁.matched
  pending := h₂.pending.trans h₁.pending

theorem bounded (h : s.Brings s') (bounded : s.Bounded) : s'.Bounded where
  sized := by rw [h.size, h.code, bounded.sized]
  matchedSize := by rw [h.matched, h.code, bounded.matchedSize]
  keys := h.sites ▸ bounded.keys
  keyed st hst := h.code ▸ bounded.keyed st (h.sites ▸ hst)
  dispatches := h.dispatches ▸ bounded.dispatches
  dispatched j hj := by
    rw [h.code, h.matched]
    exact bounded.dispatched j (h.dispatches ▸ hj)

theorem measure_eq (h : s.Brings s') : s'.measure = s.measure := by
  unfold Simulation.measure
  rw [h.code, h.sites]
  have := h.pending
  omega

end Brings

theorem noteDepth_brings {f : Frame} (h : (noteDepth f).run s = .ok ((), s')) : s.Brings s' := by
  simp only [noteDepth_run, Except.ok.injEq, Prod.mk.injEq, true_and] at h
  subst h
  exact ⟨rfl, rfl, rfl, rfl, rfl, rfl⟩

theorem noteStore_brings {instr : Instr} (h : (noteStore instr).run s = .ok ((), s')) :
    s.Brings s' := by
  have grows := noteStore_grows h
  refine ⟨grows.code, grows.size, grows.sites, grows.dispatches, grows.matched, ?_⟩
  unfold noteStore at h
  split at h
  · simp only [StateT.run_modify, Except.pure_eq_ok, Except.ok.injEq, Prod.mk.injEq,
      true_and] at h
    subst h
    rfl
  · simp only [StateT.run_pure, Except.pure_eq_ok, Except.ok.injEq, Prod.mk.injEq,
      true_and] at h
    subst h
    rfl

theorem flow_brings {target : Nat} {f : Frame} (sized : s.incoming.size = s.code.size)
    (h : (flow target f).run s = .ok ((), s')) : s.Brings s' := by
  obtain ⟨inside, ⟨g, -, -, rfl⟩ | ⟨fresh, rfl⟩⟩ := flow_run_ok h
  · exact .refl _
  refine ⟨rfl, by simp [Array.set!], rfl, rfl, rfl, ?_⟩
  have fewer : ({ s with incoming := s.incoming.set! target (some f), work := target :: s.work } :
      Simulation).unreached + 1 = s.unreached := unreached_set inside sized fresh
  simp only [List.length_cons]
  omega

theorem jump_brings {l : Label} {f : Frame} (sized : s.incoming.size = s.code.size)
    (h : (jump l f).run s = .ok ((), s')) : s.Brings s' := by
  simp only [jump, StateT.run_bind, StateT.run_get, pure_bind] at h
  split at h
  · exact flow_brings sized h
  · simp [fail] at h

theorem forM_jump_brings {α : Type} (label : α → Label) {f : Frame} :
    ∀ (xs : List α) {s s' : Simulation}, s.incoming.size = s.code.size →
      (xs.forM fun x => jump (label x) f).run s = .ok ((), s') → s.Brings s'
  | [], s, s', _, h => by
    simp only [List.forM, StateT.run_pure, Except.pure_eq_ok, Except.ok.injEq,
      Prod.mk.injEq, true_and] at h
    subst h
    exact .refl s
  | x :: xs, s, s', sized, h => by
    obtain ⟨_, s₁, first, rest⟩ := StateT.run_bind_eq_ok.mp h
    have brings₁ := jump_brings sized first
    have sized₁ : s₁.incoming.size = s₁.code.size := by rw [brings₁.size, brings₁.code, sized]
    exact brings₁.trans (forM_jump_brings label xs sized₁ rest)

theorem follow_brings {i : Nat} {t : Transfer} (sized : s.incoming.size = s.code.size)
    (h : (follow i t).run s = .ok ((), s')) : s.Brings s' := by
  simp only [follow] at h
  obtain ⟨_, s₁, jumps, rest⟩ := StateT.run_bind_eq_ok.mp h
  have brings₁ := forM_jump_brings id t.targets sized jumps
  obtain ⟨_, s₂, depth, last⟩ := StateT.run_bind_eq_ok.mp rest
  have brings₂ := brings₁.trans (noteDepth_brings depth)
  have sized₂ : s₂.incoming.size = s₂.code.size := by rw [brings₂.size, brings₂.code, sized]
  cases next : t.next with
  | false =>
    simp only [next, Bool.false_eq_true, ↓reduceIte, StateT.run_pure, Except.pure_eq_ok,
      Except.ok.injEq, Prod.mk.injEq, true_and] at last
    subst last
    exact brings₂
  | true =>
    simp only [next, ↓reduceIte] at last
    exact brings₂.trans (flow_brings sized₂ last)

/-! ## One step -/

/-- `s'` came from `s` by steps that keep the bounds and do not raise the measure. -/
structure NoFarther (s s' : Simulation) : Prop where
  code : s'.code = s.code
  bounded : s'.Bounded
  measure : s'.measure ≤ s.measure

theorem NoFarther.trans (h₁ : s.NoFarther s') (h₂ : s'.NoFarther s'') : s.NoFarther s'' :=
  ⟨h₂.code.trans h₁.code, h₂.bounded, h₂.measure.trans h₁.measure⟩

theorem Brings.noFarther (h : s.Brings s') (bounded : s.Bounded) : s.NoFarther s' :=
  ⟨h.code, h.bounded bounded, h.measure_eq.le⟩

/-- Registering a return site of a key of the code: a new site puts back at most `n`
dispatches and leaves one site fewer to come. -/
theorem addSite_noFarther {key : Int} {ret : Label} {f : Frame} (bounded : s.Bounded)
    (keyed : key ∈ s.code.toList.filterMap Instr.gosubKey?)
    (h : (addSite key ret f).run s = .ok ((), s')) : s.NoFarther s' := by
  rcases addSite_run_ok h with ⟨-, -, -, -, rfl⟩ | registered
  · exact (Brings.refl _).noFarther bounded
  have fresh : key ∉ s.sites.map Site.key := by
    intro mem
    obtain ⟨st, hst, rfl⟩ := List.mem_map.mp mem
    simp only [addSite, StateT.run_bind, StateT.run_get, pure_bind] at h
    split at h
    · rename_i st' found
      split at h
      · simp [fail] at h
      · simp only [StateT.run_pure, Except.pure_eq_ok, Except.ok.injEq, Prod.mk.injEq,
          true_and] at h
        have := congrArg Simulation.sites (h.trans registered)
        simp at this
    · rename_i none
      exact (List.find?_eq_none.mp none st hst) (by simp)
  have bounded' : s'.Bounded := by
    rw [registered]
    refine ⟨bounded.sized, bounded.matchedSize, ?_, ?_, bounded.dispatches, bounded.dispatched⟩
    · rw [List.map_append, List.nodup_append]
      exact ⟨bounded.keys, by simp, by simpa using fresh⟩
    · intro st hst
      rcases List.mem_append.mp hst with old | new
      · exact bounded.keyed st old
      · rw [List.mem_singleton.mp new]
        exact keyed
  have code' : s'.code = s.code := by rw [registered]
  refine ⟨code', bounded', ?_⟩
  have same : s'.unreached = s.unreached := unreached_congr code' (by rw [registered])
  have sites' : s'.sites.length = s.sites.length + 1 := by rw [registered]; simp
  have work' : s'.work.length = s.dispatches.length + s.work.length := by rw [registered]; simp
  have fewer := bounded'.sites_le
  have waiting := bounded.dispatches_le
  rw [sites', code'] at fewer
  unfold Simulation.measure
  rw [same, sites', work', code']
  -- one site fewer to come pays for the dispatches put back
  have pays : (s.code.size - s.sites.length) * s.code.size =
      (s.code.size - (s.sites.length + 1)) * s.code.size + s.code.size := by
    rw [← Nat.succ_mul]
    congr 1
    omega
  omega

/-- The return site of the instruction at `i`, if it has one. -/
theorem siteOf_noFarther {i : Nat} {f : Frame} (bounded : s.Bounded) (inside : i < s.code.size)
    (h : (siteOf (s.code.getD i default) f).run s = .ok ((), s')) : s.NoFarther s' := by
  cases here : s.code.getD i default
  case gosub key target ret =>
    rw [here] at h
    refine addSite_noFarther bounded ?_ h
    rw [List.mem_filterMap]
    refine ⟨.gosub key target ret, ?_, rfl⟩
    rw [← here, Array.getD_eq_getD_getElem?, Array.getElem?_eq_getElem inside, Option.getD_some]
    exact Array.getElem_mem_toList inside
  all_goals
    rw [here] at h
    simp only [siteOf, StateT.run_pure, Except.pure_eq_ok, Except.ok.injEq, Prod.mk.injEq,
      true_and] at h
    subst h
    exact (Brings.refl s).noFarther bounded

/-- A dispatch records itself once and brings frames. -/
theorem dispatchAt_noFarther {i : Nat} {dflt : Label} {f0 : Frame} (bounded : s.Bounded)
    (inside : i < s.code.size) (h : (dispatchAt i dflt f0).run s = .ok ((), s')) :
    s.NoFarther s' := by
  obtain ⟨f, s₅, s₇, -, jumps, back, depth⟩ := dispatchAt_run_ok h
  generalize record : { s with
    dispatches := s.dispatches ++ if (s.matched.getD i none).isNone then [i] else [] } = s₂ at jumps
  generalize setMatched : { s₅ with
    matched := s₅.matched.set! i (some (s.sites.filter (·.frame.agrees f))) } = s₆ at back
  -- recording the dispatch touches the dispatches only
  have recorded : s₂.code = s.code ∧ s₂.incoming = s.incoming ∧ s₂.work = s.work ∧
      s₂.sites = s.sites ∧ s₂.matched = s.matched ∧
      s₂.dispatches = s.dispatches ++ if (s.matched.getD i none).isNone then [i] else [] := by
    subst record
    exact ⟨rfl, rfl, rfl, rfl, rfl, rfl⟩
  obtain ⟨code₂, incoming₂, work₂, sites₂, matched₂, dispatches₂⟩ := recorded
  have sized₂ : s₂.incoming.size = s₂.code.size := by rw [incoming₂, code₂, bounded.sized]
  have brings₅ := forM_jump_brings Site.ret _ sized₂ jumps
  -- setting the matches of this dispatch touches the matches only
  have set₆ : s₆.code = s₅.code ∧ s₆.incoming = s₅.incoming ∧ s₆.work = s₅.work ∧
      s₆.sites = s₅.sites ∧ s₆.dispatches = s₅.dispatches ∧
      s₆.matched = s₅.matched.set! i (some (s.sites.filter (·.frame.agrees f))) := by
    subst setMatched
    exact ⟨rfl, rfl, rfl, rfl, rfl, rfl⟩
  obtain ⟨code₆, incoming₆, work₆, sites₆, dispatches₆, matched₆⟩ := set₆
  have sized₆ : s₆.incoming.size = s₆.code.size := by
    rw [incoming₆, code₆, brings₅.size, brings₅.code, sized₂]
  have brings' := (jump_brings sized₆ back).trans (noteDepth_brings depth)
  have matchedInside : i < s.matched.size := by rw [bounded.matchedSize]; exact inside
  have bounded' : s'.Bounded := by
    refine ⟨by rw [brings'.size, brings'.code, sized₆], ?_, ?_, ?_, ?_, ?_⟩
    · rw [brings'.matched, brings'.code, matched₆, code₆, brings₅.code, code₂]
      simp [Array.set!, brings₅.matched, matched₂, bounded.matchedSize]
    · rw [brings'.sites, sites₆, brings₅.sites, sites₂]
      exact bounded.keys
    · intro st hst
      rw [brings'.code, code₆, brings₅.code, code₂]
      exact bounded.keyed st
        (by rw [brings'.sites, sites₆, brings₅.sites, sites₂] at hst; exact hst)
    · rw [brings'.dispatches, dispatches₆, brings₅.dispatches, dispatches₂]
      cases unmatched : (s.matched.getD i none).isNone
      · simpa using bounded.dispatches
      · -- the dispatch had no matches yet, so it was not recorded
        refine List.nodup_append.mpr ⟨bounded.dispatches, by simp, ?_⟩
        intro j hj k hk
        rw [if_pos rfl, List.mem_singleton] at hk
        subst hk
        rintro rfl
        have matchedHere := (bounded.dispatched j hj).2
        rw [← Option.not_isSome, matchedHere] at unmatched
        exact Bool.false_ne_true unmatched
    · intro j hj
      rw [brings'.dispatches, dispatches₆, brings₅.dispatches, dispatches₂] at hj
      rw [brings'.code, code₆, brings₅.code, code₂, brings'.matched, matched₆]
      simp only [brings₅.matched, matched₂]
      rw [getD_set_option matchedInside]
      by_cases here : j = i
      · subst here
        exact ⟨inside, by simp⟩
      · rw [if_neg here]
        refine bounded.dispatched j ?_
        rcases List.mem_append.mp hj with old | new
        · exact old
        · split at new <;> simp_all
  refine ⟨?_, bounded', ?_⟩
  · rw [brings'.code, code₆, brings₅.code, code₂]
  · -- the frames brought keep the measure, and recording changed nothing it counts
    have measure₂ : s₂.measure = s.measure := by
      unfold Simulation.measure Simulation.unreached Simulation.frameAt
      rw [code₂, incoming₂, work₂, sites₂]
    have measure₆ : s₆.measure = s₅.measure := by
      unfold Simulation.measure Simulation.unreached Simulation.frameAt
      rw [code₆, incoming₆, work₆, sites₆]
    rw [brings'.measure_eq, measure₆, brings₅.measure_eq, measure₂]

/-- Stepping an instruction of the code keeps the bounds and does not raise the measure. -/
theorem stepAt_noFarther {i : Nat} {f0 : Frame} (bounded : s.Bounded) (inside : i < s.code.size)
    (h : (stepAt i f0).run s = .ok ((), s')) : s.NoFarther s' := by
  simp only [stepAt] at h
  obtain ⟨s₀, s₀', read, rest₀⟩ := StateT.run_bind_eq_ok.mp h
  simp only [StateT.run_get, Except.pure_eq_ok, Except.ok.injEq, Prod.mk.injEq] at read
  obtain ⟨same₀, same₀'⟩ := read
  subst s₀ s₀'
  obtain ⟨_, s₁, depth, rest⟩ := StateT.run_bind_eq_ok.mp rest₀
  have first := (noteDepth_brings depth).noFarther bounded
  have inside₁ : i < s₁.code.size := first.code ▸ inside
  split at rest
  · exact first.trans (dispatchAt_noFarther first.bounded inside₁ rest)
  · obtain ⟨_, s₂, site, rest₂⟩ := StateT.run_bind_eq_ok.mp rest
    obtain ⟨t, s₃, lifted, rest₃⟩ := StateT.run_bind_eq_ok.mp rest₂
    obtain ⟨_, s₄, store, rest₄⟩ := StateT.run_bind_eq_ok.mp rest₃
    obtain ⟨-, same₃⟩ := lift_run_ok lifted
    subst s₃
    have second : s₁.NoFarther s₂ :=
      siteOf_noFarther first.bounded inside₁ (by rw [first.code]; exact site)
    have third : s₂.Brings s₄ := noteStore_brings store
    have bounded₄ := third.bounded second.bounded
    exact first.trans (second.trans ((third.noFarther second.bounded).trans
      ((follow_brings bounded₄.sized rest₄).noFarther bounded₄)))

end Simulation

/-! ## The run -/

/-- The run lemma: with more fuel than the measure, settling never runs out of it. -/
theorem settle_ne_unsettled :
    ∀ (fuel : Nat) {s : Simulation}, s.Bounded → s.measure < fuel →
      settle fuel s ≠ .error .unsettled
  | 0, _, _, enough => absurd enough (Nat.not_lt_zero _)
  | fuel + 1, s, bounded, enough => by
    unfold settle
    split
    · simp
    rename_i i rest work
    -- taking `i` off the work list lowers the measure by one
    have taken : ({ s with work := rest } : Simulation).measure + 1 = s.measure := by
      have same : ({ s with work := rest } : Simulation).unreached = s.unreached :=
        Simulation.unreached_congr rfl rfl
      unfold Simulation.measure
      dsimp only
      rw [same, work, List.length_cons]
      omega
    have bounded₀ : ({ s with work := rest } : Simulation).Bounded :=
      ⟨bounded.sized, bounded.matchedSize, bounded.keys, bounded.keyed, bounded.dispatches,
        bounded.dispatched⟩
    dsimp only
    split
    · exact settle_ne_unsettled fuel bounded₀ (by omega)
    rename_i f reached
    have inside : i < s.code.size := by
      rw [← bounded.sized]
      by_contra outside
      simp [Array.getD_eq_getD_getElem?, Nat.le_of_not_lt outside] at reached
    split
    · rename_i s₁ stepped
      have further := Simulation.stepAt_noFarther bounded₀ inside stepped
      exact settle_ne_unsettled fuel further.bounded (by have := further.measure; omega)
    all_goals simp

/-- A fold in `Except` fails only with an error one of its steps gives. -/
theorem foldlM_except_error {ε α β : Type} (E : ε → Prop) (f : β → α → Except ε β)
    (steps : ∀ b a e, f b a = .error e → E e) :
    ∀ (xs : List α) (b : β) {e : ε}, xs.foldlM f b = .error e → E e
  | [], b, e, h => by
    simp only [List.foldlM_nil, pure, Except.pure, reduceCtorEq] at h
  | a :: xs, b, e, h => by
    rw [List.foldlM_cons] at h
    cases first : f b a with
    | error e' =>
      rw [first, Except.error_bind, Except.error.injEq] at h
      exact h ▸ steps b a e' first
    | ok b' =>
      rw [first, Except.ok_bind] at h
      exact foldlM_except_error E f steps xs b' h

/-- Finding the labels fails only on a label placed twice. -/
theorem labelIndexes_error {code : List Instr} {e : FlowError} (h : labelIndexes code = .error e) :
    ∃ l, e = .duplicateLabel l := by
  unfold labelIndexes at h
  refine foldlM_except_error (fun e => ∃ l, e = .duplicateLabel l) _ ?_ _ _ h
  rintro acc ⟨instr, i⟩ e step
  cases instr
  case label l =>
    dsimp only at step
    split at step
    · exact ⟨l, (Except.error.inj step).symm⟩
    · cases step
  all_goals cases step

/-- The simulation never runs out of steps: whatever it answers, it is not `unsettled`. -/
theorem simulate_ne_unsettled (code : List Instr) (entry : Frame) :
    simulate code entry ≠ .error .unsettled := by
  unfold simulate
  split
  · simp
  cases hlabels : labelIndexes code with
  | error e =>
    intro h
    simp only [bind, Except.bind, Except.error.injEq] at h
    obtain ⟨l, rfl⟩ := labelIndexes_error hlabels
    cases h
  | ok labels =>
    simp only [bind, Except.bind]
    refine settle_ne_unsettled _ ?_ ?_
    · refine ⟨by simp [Array.set!], by simp, by simp, by simp, by simp, by simp⟩
    · refine Nat.lt_of_le_of_lt (Simulation.measure_le _ (by simp)) ?_
      rw [List.size_toArray, Nat.add_mul, Nat.mul_add, Nat.one_mul, Nat.mul_one]
      omega

end BasicJvm.Bytecode
