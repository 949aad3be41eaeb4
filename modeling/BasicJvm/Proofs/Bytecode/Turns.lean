import BasicJvm.Proofs.Bytecode.Dispatch

/-!
# How many turns the simulation takes

Each turn of `settle` takes one instruction off the work list and steps it.  For code of `n`
instructions whose `gosub`s push `g` different keys and which has `d` dispatches, the work
list runs dry (or the simulation fails) within `n + g * d` turns
(`simulate_within_turnBudget`):

* an instruction is put on the list when it is reached for the first time, so at most `n`
  times in all;
* a dispatch is put back on the list only when a return site with a new key is registered,
  and then each dispatch stepped so far once: at most `d` of them for each of at most `g`
  keys.

The measure behind it (`Simulation.owed`) is that of `Termination` with the two bounds made
exact: the instructions waiting, those not reached yet, and `d` for each key still to be
registered.  A turn lowers it by one and stepping never raises it (`stepAt_spends`); for the
second half the dispatches recorded must be instructions that are dispatches
(`Simulation.DispatchesCoded`).
-/

namespace BasicJvm.Bytecode

open BasicJvm

/-- Whether an instruction is a `dispatch`. -/
def Instr.isDispatch : Instr → Bool
  | .dispatch _ => true
  | _ => false

/-- The number of different keys the `gosub`s of the code push. -/
def gosubKeyCount (code : List Instr) : Nat := (code.filterMap Instr.gosubKey?).dedup.length

/-- The number of `dispatch` instructions of the code. -/
def dispatchCount (code : List Instr) : Nat := code.countP Instr.isDispatch

/-- The turns the simulation of the code can take: one for each instruction, and one for
each dispatch each time a return site with a new key is registered. -/
def turnBudget (code : List Instr) : Nat := code.length + gosubKeyCount code * dispatchCount code

theorem gosubKeyCount_le_length (code : List Instr) : gosubKeyCount code ≤ code.length :=
  (List.dedup_sublist _).length_le.trans (List.length_filterMap_le _ _)

theorem dispatchCount_le_length (code : List Instr) : dispatchCount code ≤ code.length :=
  List.countP_le_length

/-- The budget is below the fuel `simulate` gives `settle`. -/
theorem turnBudget_lt_fuel (code : List Instr) :
    turnBudget code < (code.length + 1) * (code.length + 1) + 1 := by
  have rounds := Nat.mul_le_mul (gosubKeyCount_le_length code) (dispatchCount_le_length code)
  unfold turnBudget
  rw [Nat.add_mul, Nat.mul_add, Nat.one_mul, Nat.mul_one]
  omega

/-- The indexes of a list whose entry passes a test are as many as its entries that pass. -/
theorem length_filter_range_getD {α : Type} [Inhabited α] (p : α → Bool) (l : List α) :
    ((List.range l.length).filter fun j => p (l.getD j default)).length = l.countP p := by
  induction l using List.reverseRecOn with
  | nil => rfl
  | append_singleton l x ih =>
    -- below the last index the longer list reads as the shorter one
    have front : ((List.range l.length).filter fun j => p ((l ++ [x]).getD j default)) =
        (List.range l.length).filter fun j => p (l.getD j default) := by
      refine List.filter_congr fun j hj => ?_
      rw [List.getD_append _ _ _ _ (List.mem_range.mp hj)]
    rw [List.length_append, List.length_singleton, List.range_succ, List.filter_append, front,
      List.length_append, ih, List.countP_append]
    by_cases hx : p x <;> simp [hx]

/-- The simulation of the code before its first turn: the entry frame at the first
instruction, which waits alone on the work list. -/
def Simulation.start (code : List Instr) (entry : Frame) (labels : List (Label × Nat)) :
    Simulation :=
  ⟨code.toArray, labels, (Array.replicate code.length none).set! 0 (some entry), [], [],
    Array.replicate code.length none, 0, entry.locals.length, [0]⟩

theorem simulate_eq_start (code : List Instr) (entry : Frame) :
    simulate code entry = (if code.isEmpty then .error .emptyBody else
      labelIndexes code >>= fun labels =>
        settle ((code.length + 1) * (code.length + 1) + 1) (Simulation.start code entry labels)) := by
  unfold simulate
  split <;> rfl

namespace Simulation

variable {s s' s'' : Simulation}

/-- The turns still owed with `g` keys and `d` dispatches: the instructions waiting, those not
reached yet, and a round of the dispatches for each key still to be registered. -/
def owed (g d : Nat) (s : Simulation) : Nat :=
  s.work.length + s.unreached + (g - s.sites.length) * d

/-- Every dispatch recorded is a `dispatch` of the code. -/
def DispatchesCoded (s : Simulation) : Prop :=
  ∀ j ∈ s.dispatches, (s.code.getD j default).isDispatch = true

/-- Sites have different keys, all keys of `gosub`s of the code. -/
theorem Bounded.sites_le_keys (h : s.Bounded) : s.sites.length ≤ gosubKeyCount s.code.toList := by
  have sub : (s.sites.map Site.key).Subperm (s.code.toList.filterMap Instr.gosubKey?).dedup :=
    h.keys.subperm fun k hk => by
      obtain ⟨st, hst, rfl⟩ := List.mem_map.mp hk
      exact List.mem_dedup.mpr (h.keyed st hst)
  simpa [gosubKeyCount] using sub.length_le

/-- Dispatches are recorded once each, and only dispatches are. -/
theorem Bounded.dispatches_le_count (h : s.Bounded) (coded : s.DispatchesCoded) :
    s.dispatches.length ≤ dispatchCount s.code.toList := by
  have sub : s.dispatches.Subperm ((List.range s.code.toList.length).filter fun j =>
      (s.code.toList.getD j default).isDispatch) :=
    h.dispatches.subperm fun j hj => by
      have inside := (h.dispatched j hj).1
      have isDispatch := coded j hj
      rw [Array.getD_eq_getD_getElem?, ← Array.getElem?_toList] at isDispatch
      simpa [List.getD_eq_getElem?_getD, inside] using isDispatch
  have counted := length_filter_range_getD Instr.isDispatch s.code.toList
  exact sub.length_le.trans (counted ▸ le_rfl)

/-! ## One step -/

/-- Frames brought keep the turns owed. -/
theorem Brings.owed_eq (h : s.Brings s') (g d : Nat) : s'.owed g d = s.owed g d := by
  unfold owed
  rw [h.sites]
  have := h.pending
  omega

theorem Brings.coded (h : s.Brings s') (coded : s.DispatchesCoded) : s'.DispatchesCoded := by
  intro j hj
  rw [h.code]
  exact coded j (h.dispatches ▸ hj)

/-- `s'` came from `s` by steps that keep the bounds, record only dispatches, and owe no more
turns. -/
structure Spends (s s' : Simulation) : Prop where
  code : s'.code = s.code
  bounded : s'.Bounded
  coded : s'.DispatchesCoded
  owed : s'.owed (gosubKeyCount s.code.toList) (dispatchCount s.code.toList) ≤
    s.owed (gosubKeyCount s.code.toList) (dispatchCount s.code.toList)

theorem Spends.trans (h₁ : s.Spends s') (h₂ : s'.Spends s'') : s.Spends s'' := by
  refine ⟨h₂.code.trans h₁.code, h₂.bounded, h₂.coded, ?_⟩
  have second := h₂.owed
  rw [h₁.code] at second
  exact second.trans h₁.owed

theorem Brings.spends (h : s.Brings s') (bounded : s.Bounded) (coded : s.DispatchesCoded) :
    s.Spends s' :=
  ⟨h.code, h.bounded bounded, h.coded coded, (h.owed_eq _ _).le⟩

/-- Registering a return site of a key of the code: a new site puts back the dispatches
recorded, at most `d`, and leaves one key fewer to come. -/
theorem addSite_spends {key : Int} {ret : Label} {f : Frame} (bounded : s.Bounded)
    (coded : s.DispatchesCoded) (keyed : key ∈ s.code.toList.filterMap Instr.gosubKey?)
    (h : (addSite key ret f).run s = .ok ((), s')) : s.Spends s' := by
  have further := addSite_noFarther bounded keyed h
  rcases addSite_run_ok h with ⟨-, -, -, -, rfl⟩ | registered
  · exact (Brings.refl _).spends bounded coded
  refine ⟨further.code, further.bounded, ?_, ?_⟩
  · intro j hj
    rw [registered] at hj ⊢
    exact coded j hj
  have same : s'.unreached = s.unreached := unreached_congr further.code (by rw [registered])
  have sites' : s'.sites.length = s.sites.length + 1 := by rw [registered]; simp
  have work' : s'.work.length = s.dispatches.length + s.work.length := by rw [registered]; simp
  have fewer := further.bounded.sites_le_keys
  have waiting := bounded.dispatches_le_count coded
  rw [sites', further.code] at fewer
  unfold owed
  rw [same, sites', work']
  -- one key fewer to come pays for the dispatches put back
  have pays : (gosubKeyCount s.code.toList - s.sites.length) * dispatchCount s.code.toList =
      (gosubKeyCount s.code.toList - (s.sites.length + 1)) * dispatchCount s.code.toList +
        dispatchCount s.code.toList := by
    rw [← Nat.succ_mul]
    congr 1
    omega
  omega

/-- The return site of the instruction at `i`, if it has one. -/
theorem siteOf_spends {i : Nat} {f : Frame} (bounded : s.Bounded) (coded : s.DispatchesCoded)
    (inside : i < s.code.size) (h : (siteOf (s.code.getD i default) f).run s = .ok ((), s')) :
    s.Spends s' := by
  cases here : s.code.getD i default
  case gosub key target ret =>
    rw [here] at h
    refine addSite_spends bounded coded ?_ h
    rw [List.mem_filterMap]
    refine ⟨.gosub key target ret, ?_, rfl⟩
    rw [← here, Array.getD_eq_getD_getElem?, Array.getElem?_eq_getElem inside, Option.getD_some]
    exact Array.getElem_mem_toList inside
  all_goals
    rw [here] at h
    simp only [siteOf, StateT.run_pure, Except.pure_eq_ok, Except.ok.injEq, Prod.mk.injEq,
      true_and] at h
    subst h
    exact (Brings.refl s).spends bounded coded

/-- What a dispatch changes besides its matches: it brings frames, and records itself. -/
theorem dispatchAt_keeps {i : Nat} {dflt : Label} {f0 : Frame}
    (sized : s.incoming.size = s.code.size) (h : (dispatchAt i dflt f0).run s = .ok ((), s')) :
    s'.code = s.code ∧ s'.sites = s.sites ∧
      s'.work.length + s'.unreached = s.work.length + s.unreached ∧
      ∀ j ∈ s'.dispatches, j ∈ s.dispatches ∨ j = i := by
  obtain ⟨f, s₅, s₇, -, jumps, back, depth⟩ := dispatchAt_run_ok h
  generalize record : { s with
    dispatches := s.dispatches ++ if (s.matched.getD i none).isNone then [i] else [] } = s₂ at jumps
  generalize setMatched : { s₅ with
    matched := s₅.matched.set! i (some (s.sites.filter (·.frame.agrees f))) } = s₆ at back
  -- recording the dispatch touches the dispatches only
  have recorded : s₂.code = s.code ∧ s₂.incoming = s.incoming ∧ s₂.work = s.work ∧
      s₂.sites = s.sites ∧ ∀ j ∈ s₂.dispatches, j ∈ s.dispatches ∨ j = i := by
    subst record
    refine ⟨rfl, rfl, rfl, rfl, fun j hj => ?_⟩
    split at hj <;> simp_all
  obtain ⟨code₂, incoming₂, work₂, sites₂, dispatches₂⟩ := recorded
  have sized₂ : s₂.incoming.size = s₂.code.size := by rw [incoming₂, code₂, sized]
  have brings₅ := forM_jump_brings Site.ret _ sized₂ jumps
  -- setting the matches touches the matches only
  have set₆ : s₆.code = s₅.code ∧ s₆.incoming = s₅.incoming ∧ s₆.work = s₅.work ∧
      s₆.sites = s₅.sites ∧ s₆.dispatches = s₅.dispatches := by
    subst setMatched
    exact ⟨rfl, rfl, rfl, rfl, rfl⟩
  obtain ⟨code₆, incoming₆, work₆, sites₆, dispatches₆⟩ := set₆
  have sized₆ : s₆.incoming.size = s₆.code.size := by
    rw [incoming₆, code₆, brings₅.size, brings₅.code, sized₂]
  have brings' := (jump_brings sized₆ back).trans (noteDepth_brings depth)
  have unreached₂ : s₂.unreached = s.unreached := unreached_congr code₂ incoming₂
  have unreached₆ : s₆.unreached = s₅.unreached := unreached_congr code₆ incoming₆
  refine ⟨?_, ?_, ?_, ?_⟩
  · rw [brings'.code, code₆, brings₅.code, code₂]
  · rw [brings'.sites, sites₆, brings₅.sites, sites₂]
  · rw [brings'.pending, work₆, unreached₆, brings₅.pending, work₂, unreached₂]
  · intro j hj
    rw [brings'.dispatches, dispatches₆, brings₅.dispatches] at hj
    exact dispatches₂ j hj

/-- A dispatch of the code records itself at most once, brings frames, and keeps the sites. -/
theorem dispatchAt_spends {i : Nat} {dflt : Label} {f0 : Frame} (bounded : s.Bounded)
    (coded : s.DispatchesCoded) (inside : i < s.code.size)
    (isDispatch : (s.code.getD i default).isDispatch = true)
    (h : (dispatchAt i dflt f0).run s = .ok ((), s')) : s.Spends s' := by
  have further := dispatchAt_noFarther bounded inside h
  obtain ⟨code', sites', pending, recorded⟩ := dispatchAt_keeps bounded.sized h
  refine ⟨code', further.bounded, ?_, ?_⟩
  · intro j hj
    rw [code']
    rcases recorded j hj with old | rfl
    · exact coded j old
    · exact isDispatch
  · unfold owed
    rw [sites']
    omega

/-- Stepping an instruction of the code keeps the bounds and owes no more turns. -/
theorem stepAt_spends {i : Nat} {f0 : Frame} (bounded : s.Bounded) (coded : s.DispatchesCoded)
    (inside : i < s.code.size) (h : (stepAt i f0).run s = .ok ((), s')) : s.Spends s' := by
  simp only [stepAt] at h
  obtain ⟨s₀, s₀', read, rest₀⟩ := StateT.run_bind_eq_ok.mp h
  simp only [StateT.run_get, Except.pure_eq_ok, Except.ok.injEq, Prod.mk.injEq] at read
  obtain ⟨same₀, same₀'⟩ := read
  subst s₀ s₀'
  obtain ⟨_, s₁, depth, rest⟩ := StateT.run_bind_eq_ok.mp rest₀
  have first := (noteDepth_brings depth).spends bounded coded
  have inside₁ : i < s₁.code.size := first.code ▸ inside
  split at rest
  · rename_i dflt here
    have isDispatch : (s₁.code.getD i default).isDispatch = true := by
      rw [first.code, here]
      rfl
    exact first.trans (dispatchAt_spends first.bounded first.coded inside₁ isDispatch rest)
  · obtain ⟨_, s₂, site, rest₂⟩ := StateT.run_bind_eq_ok.mp rest
    obtain ⟨t, s₃, lifted, rest₃⟩ := StateT.run_bind_eq_ok.mp rest₂
    obtain ⟨_, s₄, store, rest₄⟩ := StateT.run_bind_eq_ok.mp rest₃
    obtain ⟨-, same₃⟩ := lift_run_ok lifted
    subst s₃
    have second : s₁.Spends s₂ :=
      siteOf_spends first.bounded first.coded inside₁ (by rw [first.code]; exact site)
    have third := (noteStore_brings store).spends second.bounded second.coded
    exact first.trans (second.trans (third.trans
      ((follow_brings third.bounded.sized rest₄).spends third.bounded third.coded)))

end Simulation

/-! ## The run -/

/-- The run lemma: with more fuel than the turns owed, settling never runs out of it. -/
theorem settle_within_owed :
    ∀ (fuel : Nat) {s : Simulation}, s.Bounded → s.DispatchesCoded →
      s.owed (gosubKeyCount s.code.toList) (dispatchCount s.code.toList) < fuel →
      settle fuel s ≠ .error .unsettled
  | 0, _, _, _, enough => absurd enough (Nat.not_lt_zero _)
  | fuel + 1, s, bounded, coded, enough => by
    unfold settle
    split
    · simp
    rename_i i rest work
    -- taking `i` off the work list lowers the turns owed by one
    have taken : ({ s with work := rest } : Simulation).owed (gosubKeyCount s.code.toList)
        (dispatchCount s.code.toList) + 1 =
          s.owed (gosubKeyCount s.code.toList) (dispatchCount s.code.toList) := by
      have same : ({ s with work := rest } : Simulation).unreached = s.unreached :=
        Simulation.unreached_congr rfl rfl
      unfold Simulation.owed
      dsimp only
      rw [same, work, List.length_cons]
      omega
    have bounded₀ : ({ s with work := rest } : Simulation).Bounded := bounded.withWork rest
    dsimp only
    split
    · exact settle_within_owed fuel bounded₀ coded (by dsimp only; omega)
    rename_i f reached
    have inside : i < s.code.size := Simulation.frameAt_lt bounded.sized reached
    split
    · rename_i s₁ stepped
      have further := Simulation.stepAt_spends bounded₀ coded inside stepped
      have code₁ : s₁.code = s.code := further.code
      have owed₁ : s₁.owed (gosubKeyCount s.code.toList) (dispatchCount s.code.toList) ≤
          ({ s with work := rest } : Simulation).owed (gosubKeyCount s.code.toList)
            (dispatchCount s.code.toList) := further.owed
      exact settle_within_owed fuel further.bounded further.coded (by rw [code₁]; omega)
    all_goals simp

/-- Settling that does not run out of fuel answers the same with more. -/
theorem settle_add_fuel : ∀ (fuel extra : Nat) (s : Simulation),
    settle fuel s ≠ .error .unsettled → settle (fuel + extra) s = settle fuel s
  | 0, _, _, h => absurd rfl h
  | fuel + 1, extra, s, h => by
    rw [show fuel + 1 + extra = fuel + extra + 1 by omega]
    cases hw : s.work with
    | nil => simp [settle, hw]
    | cons i rest =>
      simp only [settle, hw] at h ⊢
      split
      · rename_i none
        rw [none] at h
        exact settle_add_fuel fuel extra _ h
      · rename_i f reached
        rw [reached] at h
        dsimp only at h ⊢
        split
        · rename_i s₁ stepped
          rw [stepped] at h
          exact settle_add_fuel fuel extra _ h
        all_goals rfl

/-! ## The start -/

namespace Simulation

variable {code : List Instr} {entry : Frame} {labels : List (Label × Nat)}

@[simp] theorem start_code : (start code entry labels).code.toList = code := by simp [start]

theorem start_bounded : (start code entry labels).Bounded :=
  ⟨by simp [start, Array.set!], by simp [start], by simp [start], by simp [start], by simp [start],
    by simp [start]⟩

theorem start_coded : (start code entry labels).DispatchesCoded := by
  simp [DispatchesCoded, start]

/-- Before the first turn the whole budget is owed: the first instruction waits, the others
are not reached yet, and no key is registered. -/
theorem start_owed (nonempty : code ≠ []) :
    (start code entry labels).owed (gosubKeyCount code) (dispatchCount code) = turnBudget code := by
  let s₀ : Simulation := ⟨code.toArray, labels, Array.replicate code.length none, [], [],
    Array.replicate code.length none, 0, entry.locals.length, []⟩
  have inside : 0 < code.length := List.length_pos_iff.mpr nonempty
  have unreached₀ : s₀.unreached = code.length := by
    simp only [s₀, unreached, frameAt, getD_replicate_none]
    simp
  have fewer : ({ s₀ with incoming := s₀.incoming.set! 0 (some entry), work := [0] } :
      Simulation).unreached + 1 = s₀.unreached :=
    unreached_set (by simpa [s₀] using inside) (by simp [s₀])
      (by simp only [s₀, frameAt, getD_replicate_none])
  have started : start code entry labels =
      { s₀ with incoming := s₀.incoming.set! 0 (some entry), work := [0] } := rfl
  have sites₀ : s₀.sites.length = 0 := rfl
  unfold owed turnBudget
  rw [started]
  dsimp only
  rw [unreached₀] at fewer
  rw [sites₀, Nat.sub_zero, List.length_singleton]
  omega

end Simulation

/-- The simulation takes at most `n + g * d` turns for code of `n` instructions with `g`
different `gosub` keys and `d` dispatches: its answer is the one that settling gives with fuel
for that many turns, and it never runs out of fuel. -/
theorem simulate_within_turnBudget (code : List Instr) (entry : Frame) :
    simulate code entry = (if code.isEmpty then .error .emptyBody else
      labelIndexes code >>= fun labels =>
        settle (turnBudget code + 1) (Simulation.start code entry labels)) ∧
      simulate code entry ≠ .error .unsettled := by
  have within : ∀ labels, code ≠ [] →
      settle (turnBudget code + 1) (Simulation.start code entry labels) ≠ .error .unsettled := by
    intro labels nonempty
    refine settle_within_owed _ Simulation.start_bounded Simulation.start_coded ?_
    rw [Simulation.start_code, Simulation.start_owed nonempty]
    omega
  have same : simulate code entry = (if code.isEmpty then .error .emptyBody else
      labelIndexes code >>= fun labels =>
        settle (turnBudget code + 1) (Simulation.start code entry labels)) := by
    rw [simulate_eq_start]
    split
    · rfl
    · rename_i nonempty
      -- the fuel `simulate` gives is more than the budget, and more fuel changes nothing
      obtain ⟨extra, more⟩ := Nat.exists_eq_add_of_lt (turnBudget_lt_fuel code)
      have fuel : (code.length + 1) * (code.length + 1) + 1 = turnBudget code + 1 + extra := by
        omega
      simp only [fuel, settle_add_fuel _ extra _ (within _ (by simpa using nonempty))]
  refine ⟨same, ?_⟩
  rw [same]
  split
  · simp
  · rename_i nonempty
    cases hlabels : labelIndexes code with
    | error e =>
      obtain ⟨l, rfl⟩ := labelIndexes_error hlabels
      simp [bind, Except.bind]
    | ok labels => exact within labels (by simpa using nonempty)

end BasicJvm.Bytecode
