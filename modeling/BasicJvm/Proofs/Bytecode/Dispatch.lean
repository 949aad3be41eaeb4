import BasicJvm.Proofs.Bytecode.Landing
import BasicJvm.Proofs.Bytecode.Termination

/-!
# Where a dispatch returns to

A `gosub` registers a return site (its key, its return label and the frame it was reached
with) the first time its key is met, and a `dispatch` returns to the sites whose frame agrees
with its own once the key is popped. Sites and dispatches are found during the same work-list
run that computes the frames; `addSite` puts every dispatch already stepped back on the work
list, so a site found after a dispatch was stepped is still among its matches in the end.

* `simulate_bounded`: the bounds of the termination proof hold after a successful run, in
  particular the sites have pairwise different keys.
* `dispatch_switch`: a reachable dispatch is lowered to a `lookupswitch` whose keys strictly
  increase and whose (key, return label) pairs are exactly those of the registered sites that
  agree with the dispatch's frame after the pop; the sites are those of the reached `gosub`s,
  and each of these return labels is reached with that frame.
* `return_label_reached_without_dispatch`: the converse of the last point fails. A return
  label is a label like any other, reached by whatever jumps to it or runs into it, so it can
  be reached with no dispatch in the code at all.
-/

namespace BasicJvm.Bytecode

open BasicJvm

/-! ## The bounds after a run -/

theorem Simulation.Bounded.withWork {s : Simulation} (h : s.Bounded) (work : List Nat) :
    ({ s with work } : Simulation).Bounded :=
  ⟨h.sized, h.matchedSize, h.keys, h.keyed, h.dispatches, h.dispatched⟩

theorem Simulation.frameAt_lt {s : Simulation} {i : Nat} {f : Frame}
    (sized : s.incoming.size = s.code.size) (reached : s.frameAt i = some f) : i < s.code.size := by
  rw [← sized]
  by_contra outside
  simp [Simulation.frameAt, Array.getD_eq_getD_getElem?, Nat.le_of_not_lt outside] at reached

/-- The bounds hold when a simulation succeeds: every step keeps them (`stepAt_noFarther`),
and they hold at the start, with no site and no dispatch. -/
theorem simulate_bounded {code : List Instr} {entry : Frame} {s : Simulation}
    (h : simulate code entry = .ok s) : s.Bounded := by
  unfold simulate at h
  split at h
  · cases h
  cases hlabels : labelIndexes code with
  | error e => simp [hlabels, bind, Except.bind] at h
  | ok labels =>
    simp only [hlabels, bind, Except.bind] at h
    refine settle_preserves Simulation.Bounded ?_ ?_ _ ?_ h
    · intro s i rest _ _ bounded
      exact bounded.withWork rest
    · intro s s' i rest f _ reached bounded stepped
      have inside : i < s.code.size := Simulation.frameAt_lt bounded.sized reached
      exact (Simulation.stepAt_noFarther (bounded.withWork rest) inside stepped).bounded
    · exact ⟨by simp [Array.set!], by simp, by simp, by simp, by simp, by simp⟩

/-! ## The switch of a dispatch -/

section Switch

variable {sites : List Site}

/-- The order `lowerAt` puts a dispatch's sites in. -/
theorem keys_sorted_of_nodup (keys : (sites.map Site.key).Nodup) :
    ((sites.mergeSort fun a b => a.key ≤ b.key).map Site.key).Pairwise (· < ·) := by
  have sorted : (sites.mergeSort fun a b => a.key ≤ b.key).Pairwise
      (fun a b => decide (a.key ≤ b.key) = true) :=
    List.pairwise_mergeSort (fun a b c hab hbc => by simp only [decide_eq_true_eq] at *; omega)
      (fun a b => by simp only [Bool.or_eq_true, decide_eq_true_eq]; omega) sites
  -- the sorted list has the same keys, which are still different
  have different : (sites.mergeSort fun a b => a.key ≤ b.key).Pairwise (fun a b => a.key ≠ b.key) :=
    List.pairwise_map.mp (List.nodup_iff_pairwise_ne.mp
      (((List.mergeSort_perm _ _).map Site.key).nodup_iff.mpr keys))
  rw [List.pairwise_map]
  exact (sorted.and different).imp fun ⟨le, ne⟩ => lt_of_le_of_ne (of_decide_eq_true le) ne

theorem mem_switch_pairs {k : Int} {r : Label} :
    (k, r) ∈ ((sites.mergeSort fun a b => a.key ≤ b.key).map Site.key).zip
        ((sites.mergeSort fun a b => a.key ≤ b.key).map Site.ret) ↔
      ∃ st ∈ sites, st.key = k ∧ st.ret = r := by
  rw [List.zip_map', List.mem_map]
  simp only [(List.mergeSort_perm _ _).mem_iff, Prod.mk.injEq]

end Switch

namespace Simulated

variable {code : List Instr} {sim : Simulation} (S : Simulated code sim)
include S

/-- A reached dispatch has been stepped after the last site was registered. -/
theorem returns {i : Nat} {dflt : Label} {f0 : Frame} (isDispatch : code[i]? = some (.dispatch dflt))
    (reached : sim.frameAt i = some f0) : sim.Returns i dflt f0 := by
  have settled := S.inv.settled i f0 reached (by simp [S.done])
  have inside := S.lt_length reached
  unfold Simulation.Settled at settled
  rw [S.instr_eq inside, Option.some.inj ((List.getElem?_eq_getElem inside).symm.trans isDispatch)]
    at settled
  exact settled

/-- The registered sites are those of the reached `gosub`s: each was registered by one, with
the frame it was reached with, and each reached `gosub` has a site with its key and its
return label. -/
theorem sites_of_gosubs :
    (∀ st ∈ sim.sites, ∃ j target,
      code[j]? = some (.gosub st.key target st.ret) ∧ sim.frameAt j = some st.frame) ∧
    ∀ j key target ret g, code[j]? = some (.gosub key target ret) → sim.frameAt j = some g →
      ∃ st ∈ sim.sites, st.key = key ∧ st.ret = ret := by
  constructor
  · intro st mem
    obtain ⟨j, target, gosub, reached⟩ := S.inv.sites st mem
    have inside := S.lt_length reached
    refine ⟨j, target, ?_, reached⟩
    rw [List.getElem?_eq_getElem inside, ← S.instr_eq inside, gosub]
  · intro j key target ret g gosub reached
    have inside := S.lt_length reached
    have same : code[j] = .gosub key target ret :=
      Option.some.inj ((List.getElem?_eq_getElem inside).symm.trans gosub)
    have follows := S.follows inside reached (fun d => by rw [same]; exact Instr.noConfusion)
    rw [same] at follows
    exact follows.site key target ret rfl

end Simulated

/-- The switch a reachable dispatch is lowered to. With `f` the dispatch's frame after the key
is popped: its matches are the registered sites that agree with `f`; the `lookupswitch` lists
their keys in strictly increasing order, each key once and paired with its site's return
label, and no other pair; every one of these return labels is reached with `f`; and the
registered sites have pairwise different keys and are those of the reached `gosub`s, whichever
order the work list took. -/
theorem dispatch_switch {code : List Instr} {entry : Frame} {s : Simulation}
    (h : simulate code entry = .ok s) {i : Nat} {dflt : Label} {f0 : Frame}
    (isDispatch : code[i]? = some (.dispatch dflt)) (reached : s.frameAt i = some f0) :
    ∃ f keys rets, popN .int 1 f0 = .ok f ∧
      s.matched.getD i none = some (s.sites.filter (·.frame.agrees f)) ∧
      lowerAt code s (.dispatch dflt) i = [.ofInstr (.lookupSwitch dflt keys rets) none] ∧
      keys.Pairwise (· < ·) ∧ keys.length = rets.length ∧
      (∀ k r, (k, r) ∈ keys.zip rets ↔
        ∃ st ∈ s.sites, st.frame.agrees f = true ∧ st.key = k ∧ st.ret = r) ∧
      (∀ r ∈ rets, s.Reaches r f) ∧
      (s.sites.map Site.key).Nodup ∧
      (∀ st ∈ s.sites, ∃ j target,
        code[j]? = some (.gosub st.key target st.ret) ∧ s.frameAt j = some st.frame) ∧
      ∀ j key target ret g, code[j]? = some (.gosub key target ret) → s.frameAt j = some g →
        ∃ st ∈ s.sites, st.key = key ∧ st.ret = ret := by
  have S := simulate_simulated h
  obtain ⟨⟨f, popped, matched, back, -⟩, -⟩ := S.returns isDispatch reached
  have keys : ((s.sites.filter (·.frame.agrees f)).map Site.key).Nodup :=
    (simulate_bounded h).keys.sublist (List.filter_sublist.map _)
  have lowered : lowerAt code s (.dispatch dflt) i =
      [.ofInstr (.lookupSwitch dflt
        (((s.sites.filter (·.frame.agrees f)).mergeSort fun a b => a.key ≤ b.key).map Site.key)
        (((s.sites.filter (·.frame.agrees f)).mergeSort fun a b => a.key ≤ b.key).map Site.ret))
        none] := by
    unfold lowerAt
    rw [show s.incoming.getD i none = some f0 from reached, matched]
    rfl
  refine ⟨f, _, _, popped, matched, lowered, keys_sorted_of_nodup keys, by simp, ?_, ?_,
    (simulate_bounded h).keys, S.sites_of_gosubs⟩
  · intro k r
    rw [mem_switch_pairs]
    simp only [List.mem_filter]
    constructor
    · rintro ⟨st, ⟨mem, agrees⟩, key, ret⟩
      exact ⟨st, mem, agrees, key, ret⟩
    · rintro ⟨st, mem, agrees, key, ret⟩
      exact ⟨st, ⟨mem, agrees⟩, key, ret⟩
  · intro r mem
    obtain ⟨st, sorted, rfl⟩ := List.mem_map.mp mem
    have filtered := (List.mergeSort_perm _ _).mem_iff.mp sorted
    obtain ⟨site, agrees⟩ := List.mem_filter.mp filtered
    exact back st site agrees

/-- A subroutine at label 1, called with key 7 and return label 2, that returns with a
`dispatch` whose default is label 3. -/
def keySevenSubroutine : List Instr :=
  [.gosub 7 1 2, .label 2, .plain .returnVoid, .label 1, .dispatch 3, .label 3, .plain .returnVoid]

theorem dispatch_switch_keySeven :
    ∃ s, simulate keySevenSubroutine ⟨[], []⟩ = .ok s ∧
      keySevenSubroutine[4]? = some (.dispatch 3) ∧ s.frameAt 4 = some ⟨[], [.int]⟩ ∧
      ∃ f keys rets, popN .int 1 ⟨[], [.int]⟩ = .ok f ∧
        s.matched.getD 4 none = some (s.sites.filter (·.frame.agrees f)) ∧
        lowerAt keySevenSubroutine s (.dispatch 3) 4 =
          [.ofInstr (.lookupSwitch 3 keys rets) none] ∧
        keys.Pairwise (· < ·) ∧ keys.length = rets.length ∧
        (∀ k r, (k, r) ∈ keys.zip rets ↔
          ∃ st ∈ s.sites, st.frame.agrees f = true ∧ st.key = k ∧ st.ret = r) ∧
        (∀ r ∈ rets, s.Reaches r f) ∧
        (s.sites.map Site.key).Nodup ∧
        (∀ st ∈ s.sites, ∃ j target, keySevenSubroutine[j]? = some (.gosub st.key target st.ret) ∧
          s.frameAt j = some st.frame) ∧
        ∀ j key target ret g, keySevenSubroutine[j]? = some (.gosub key target ret) →
          s.frameAt j = some g → ∃ st ∈ s.sites, st.key = key ∧ st.ret = ret := by
  have run : (match simulate keySevenSubroutine ⟨[], []⟩ with
      | .ok s => decide (s.frameAt 4 = some ⟨[], [.int]⟩)
      | .error _ => false) = true := by
    decide +kernel
  split at run
  · rename_i s simulated
    have reached := of_decide_eq_true run
    exact ⟨s, simulated, rfl, reached, dispatch_switch simulated rfl reached⟩
  · exact absurd run Bool.false_ne_true

/-- A subroutine at label 1, called with key 1 and return label 2, that pops its key and runs
into its return label instead of returning with a `dispatch`. -/
def runsIntoReturnLabel : List Instr :=
  [.gosub 1 1 2, .label 1, .plain .pop, .label 2, .plain .returnVoid]

/-- The converse of the last point of `dispatch_switch` fails: the return label of a site can
be reached although no dispatch matches the site, here with no dispatch in the code. -/
theorem return_label_reached_without_dispatch :
    (∀ dflt, Instr.dispatch dflt ∉ runsIntoReturnLabel) ∧
      ∃ s, simulate runsIntoReturnLabel ⟨[], []⟩ = .ok s ∧ (∃ st ∈ s.sites, st.ret = 2) ∧
        s.Reaches 2 ⟨[], []⟩ := by
  refine ⟨fun dflt => by simp [runsIntoReturnLabel], ?_⟩
  have run : (match simulate runsIntoReturnLabel ⟨[], []⟩ with
      | .ok s => decide (s.sites.map Site.ret = [2] ∧ s.labels.lookup 2 = some 3 ∧
          3 < s.code.size ∧ s.frameAt 3 = some ⟨[], []⟩)
      | .error _ => false) = true := by
    decide +kernel
  split at run
  · rename_i s simulated
    obtain ⟨rets, label, inside, reached⟩ := of_decide_eq_true run
    obtain ⟨st, mem, ret⟩ : ∃ st ∈ s.sites, st.ret = 2 := by
      have : (2 : Label) ∈ s.sites.map Site.ret := by rw [rets]; simp
      simpa using this
    exact ⟨s, simulated, ⟨st, mem, ret⟩, 3, label, inside, _, reached, Frame.agrees_refl _⟩
  · exact absurd run Bool.false_ne_true

end BasicJvm.Bytecode
