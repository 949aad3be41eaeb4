import BasicJvm.Machine.Step
import BasicJvm.Proofs.Machine.Exec

/-!
# Arrays of several dimensions

`multianewarray` pops one count per dimension and builds nested arrays (`newNested`): an
object array at each outer level and, at the last level, an array of zeros when the component
descriptor is `F` and of nulls otherwise.  The counts are checked as the recursion reaches
them, outermost first.  A negative count stops the instruction with "negative array size",
but an array of no elements makes no inner arrays, so the counts under a zero are never
looked at: `DIM A(0, -1)` gives an empty array, where the JVM checks every count before it
allocates anything.

* `NegativeReached sizes v`: the count `v` is negative and every count before it is positive,
  so the recursion reaches it.
* `Shaped heap desc sizes v`: on the heap, `v` is an array of the shape the counts give.
* `Machine.Grown m m'`: `m'` is `m` with arrays added at the end of its heap.

Main statement: `newNested_outcome`.  From every machine, `newNested` either stops with
"negative array size v" for the first negative count `v` it reaches, or, when it reaches
none, returns an array of the shape the counts give; either way it only adds arrays to the
heap.  `newNested_zeroThenNegative` is `DIM A(0, -1)`: a negative count, and no failure.
-/

namespace BasicJvm.Vm

open BasicJvm.Number

/-! ## Reached counts -/

/-- The count `v` is negative and is reached: every count before it is positive. -/
def NegativeReached (sizes : List Int32) (v : Int) : Prop :=
  ∃ i, (sizes[i]?).map Int32.toInt = some v ∧ v < 0 ∧ ∀ n ∈ sizes.take i, 0 < n.toInt

@[simp] theorem negativeReached_nil (v : Int) : ¬ NegativeReached [] v := by
  rintro ⟨i, found, -⟩
  simp at found

/-- The first count is reached; the others are reached when it is positive. -/
theorem negativeReached_cons {n : Int32} {rest : List Int32} {v : Int} :
    NegativeReached (n :: rest) v ↔
      (v = n.toInt ∧ n.toInt < 0) ∨ (0 < n.toInt ∧ NegativeReached rest v) := by
  constructor
  · rintro ⟨i, found, negative, before⟩
    cases i with
    | zero =>
      simp only [List.getElem?_cons_zero, Option.map_some, Option.some.injEq] at found
      exact .inl ⟨found.symm, found ▸ negative⟩
    | succ i =>
      simp only [List.take_succ_cons, List.mem_cons, forall_eq_or_imp] at before
      exact .inr ⟨before.1, i, by simpa using found, negative, before.2⟩
  · rintro (⟨rfl, negative⟩ | ⟨positive, i, found, negative, before⟩)
    · exact ⟨0, by simp, negative, by simp⟩
    · refine ⟨i + 1, by simpa using found, negative, ?_⟩
      simp only [List.take_succ_cons, List.mem_cons, forall_eq_or_imp]
      exact ⟨positive, before⟩

/-- A count that is not negative is not reached as negative, and the counts after it are
reached only under a positive one. -/
theorem not_negativeReached_cons {n : Int32} {rest : List Int32} (nonneg : ¬ n.toInt < 0)
    (after : 0 < n.toInt → ∀ v, ¬ NegativeReached rest v) (v : Int) :
    ¬ NegativeReached (n :: rest) v := by
  intro reached
  rcases negativeReached_cons.mp reached with ⟨_, below⟩ | ⟨positive, below⟩
  · exact nonneg below
  · exact after positive v below

/-! ## The shape of an array -/

/-- On the heap `heap`, the value `v` is an array of the shape that the counts `sizes` give
for the descriptor `desc`: each level an array with as many elements as its count, whose
elements are arrays for the component descriptor and the counts that follow; the last level
holds zeros when its component descriptor is `F`, and nulls otherwise. -/
inductive Shaped (heap : Array Cells) : String → List Int32 → Value → Prop
  | floats {desc : String} {n : Int32} {r : Nat} (component : elementDescriptor desc = "F")
      (cells : heap[r]? = some (.floats (.replicate n.toInt.toNat Single.zero))) :
      Shaped heap desc [n] (.floats r)
  | objects {desc : String} {n : Int32} {r : Nat} (component : elementDescriptor desc ≠ "F")
      (cells : heap[r]? = some (.objects (.replicate n.toInt.toNat .null))) :
      Shaped heap desc [n] (.objects r)
  | nested {desc : String} {n : Int32} {rest : List Int32} {r : Nat} {xs : Array Value}
      (inner : rest ≠ []) (cells : heap[r]? = some (.objects xs)) (size : xs.size = n.toInt.toNat)
      (each : ∀ x ∈ xs, Shaped heap (elementDescriptor desc) rest x) :
      Shaped heap desc (n :: rest) (.objects r)

theorem getElem?_append_of_some {heap extra : Array Cells} {r : Nat} {c : Cells}
    (h : heap[r]? = some c) : (heap ++ extra)[r]? = some c := by
  rw [Array.getElem?_append_left (Array.getElem?_eq_some_iff.mp h).1, h]

/-- Arrays added later leave an array's shape as it was. -/
theorem Shaped.append {heap : Array Cells} {desc : String} {sizes : List Int32} {v : Value}
    (h : Shaped heap desc sizes v) (extra : Array Cells) : Shaped (heap ++ extra) desc sizes v := by
  induction h with
  | floats component cells => exact .floats component (getElem?_append_of_some cells)
  | objects component cells => exact .objects component (getElem?_append_of_some cells)
  | nested inner cells size _ each => exact .nested inner (getElem?_append_of_some cells) size each

/-- `m'` is `m` with arrays added at the end of its heap, and nothing else changed. -/
def Machine.Grown (m m' : Machine) : Prop :=
  ∃ extra, m' = { m with heap := m.heap ++ extra }

theorem Machine.Grown.refl (m : Machine) : m.Grown m := ⟨#[], by simp⟩

theorem Machine.Grown.trans {m₁ m₂ m₃ : Machine} (h₁ : m₁.Grown m₂) (h₂ : m₂.Grown m₃) :
    m₁.Grown m₃ := by
  obtain ⟨e₁, rfl⟩ := h₁
  obtain ⟨e₂, rfl⟩ := h₂
  exact ⟨e₁ ++ e₂, by simp [Array.append_assoc]⟩

theorem Machine.Grown.push (m : Machine) (c : Cells) : m.Grown { m with heap := m.heap.push c } :=
  ⟨#[c], by rw [Array.push_eq_append]⟩

theorem Shaped.grown {m m' : Machine} {desc : String} {sizes : List Int32} {v : Value}
    (h : Shaped m.heap desc sizes v) (grown : m.Grown m') : Shaped m'.heap desc sizes v := by
  obtain ⟨extra, rfl⟩ := grown
  exact h.append extra

/-! ## One level -/

/-- What `newNested desc sizes` may give from the machine `m`: it stops with the first
negative count it reaches, or returns an array of the shape of the counts when it reaches
none; either way it only adds arrays to the heap. -/
def NestedOutcome (desc : String) (sizes : List Int32) (m : Machine) :
    Except Fault Value × Machine → Prop
  | (.error e, m') =>
    m.Grown m' ∧ ∃ v, e = .runtime (.negativeSize v) none ∧ NegativeReached sizes v
  | (.ok v, m') => m.Grown m' ∧ (∀ v, ¬ NegativeReached sizes v) ∧ Shaped m'.heap desc sizes v

/-- A negative first count stops at once, with nothing allocated. -/
theorem newNested_negative {desc : String} {n : Int32} {rest : List Int32}
    (negative : n.toInt < 0) (m : Machine) :
    (newNested desc (n :: rest)).run.run m = (.error (.runtime (.negativeSize n.toInt) none), m) := by
  cases rest with
  | nil => simp [newNested, negative, trap]; rfl
  | cons k rest => simp [newNested, negative, trap]; rfl

theorem newNested_single {desc : String} {n : Int32} (h : 0 ≤ n.toInt) (m : Machine) :
    (newNested desc [n]).run.run m =
      (if elementDescriptor desc = "F" then newFloats n.toInt.toNat
        else newObjects n.toInt.toNat).run.run m := by
  have : ¬ n.toInt < 0 := by omega
  simp [newNested, this]

theorem newNested_cons {desc : String} {n k : Int32} {rest : List Int32} (h : 0 ≤ n.toInt)
    (m : Machine) :
    (newNested desc (n :: k :: rest)).run.run m =
      ((List.range n.toInt.toNat).mapM (fun _ => newNested (elementDescriptor desc) (k :: rest)) >>=
        fun inner => do return .objects (← allocate (.objects inner.toArray))).run.run m := by
  have : ¬ n.toInt < 0 := by omega
  simp [newNested, this]

/-- A negative first count is what `newNested` stops with. -/
theorem newNested_negative_outcome {desc : String} {n : Int32} {rest : List Int32}
    (negative : n.toInt < 0) (m : Machine) :
    NestedOutcome desc (n :: rest) m ((newNested desc (n :: rest)).run.run m) := by
  rw [newNested_negative negative]
  exact ⟨.refl m, n.toInt, rfl, negativeReached_cons.mpr (.inl ⟨rfl, negative⟩)⟩

/-- One count: an array of zeros or nulls, or the count itself when it is negative. -/
theorem newNested_single_outcome (desc : String) (n : Int32) (m : Machine) :
    NestedOutcome desc [n] m ((newNested desc [n]).run.run m) := by
  by_cases negative : n.toInt < 0
  · exact newNested_negative_outcome negative m
  have unreached := not_negativeReached_cons negative fun _ => negativeReached_nil
  rw [newNested_single (by omega)]
  split
  · rename_i component
    refine ⟨.push m _, unreached, .floats component ?_⟩
    simp
  · rename_i component
    refine ⟨.push m _, unreached, .objects component ?_⟩
    simp

/-! ## Every level -/

/-- What making the elements of one level may give, one inner array for each of `count`
places: it stops with the negative count the first inner array reaches, or returns `count`
arrays of the shape of the counts below, reaching no negative count when `count` is
positive. -/
def InnerOutcome (elem : String) (rest : List Int32) (count : Nat) (m : Machine) :
    Except Fault (List Value) × Machine → Prop
  | (.error e, m') => m.Grown m' ∧ 0 < count ∧
    ∃ v, e = .runtime (.negativeSize v) none ∧ NegativeReached rest v
  | (.ok xs, m') => m.Grown m' ∧ xs.length = count ∧ (0 < count → ∀ v, ¬ NegativeReached rest v) ∧
    ∀ x ∈ xs, Shaped m'.heap elem rest x

/-- Making the inner arrays of a level, one after the other: the first that stops stops the
level, and each one made keeps its shape while the next ones are made. -/
theorem mapM_innerOutcome {elem : String} {rest : List Int32} {g : Exec Value}
    (hg : ∀ m, NestedOutcome elem rest m (g.run.run m)) {γ : Type} :
    ∀ (l : List γ) (m : Machine),
      InnerOutcome elem rest l.length m ((l.mapM fun _ => g).run.run m)
  | [], m => ⟨.refl m, rfl, by simp, by simp⟩
  | _ :: l, m => by
    rw [List.mapM_cons]
    rcases first : g.run.run m with ⟨_ | x, m₁⟩
    · -- the first inner array stops the level
      obtain ⟨grown, v, rfl, reached⟩ := first ▸ hg m
      rw [Exec.run_bind_error first]
      exact ⟨grown, by simp, v, rfl, reached⟩
    obtain ⟨grown₁, unreached, shaped⟩ := first ▸ hg m
    rw [Exec.run_bind_ok first]
    rcases others : (l.mapM fun _ => g).run.run m₁ with ⟨_ | xs, m₂⟩
    · obtain ⟨grown₂, -, v, rfl, reached⟩ := others ▸ mapM_innerOutcome hg l m₁
      rw [Exec.run_bind_error others]
      exact ⟨grown₁.trans grown₂, by simp, v, rfl, reached⟩
    obtain ⟨grown₂, length, -, each⟩ := others ▸ mapM_innerOutcome hg l m₁
    rw [Exec.run_bind_ok others, Exec.run_pure]
    refine ⟨grown₁.trans grown₂, by simp [length], fun _ => unreached, ?_⟩
    simp only [List.mem_cons, forall_eq_or_imp]
    exact ⟨shaped.grown grown₂, each⟩

/-- From every machine, `newNested` stops with "negative array size" for the first negative
count it reaches, and otherwise returns an array of the shape of the counts; either way it
only adds arrays to the heap.  A count under a zero count is never reached. -/
theorem newNested_outcome (desc : String) {sizes : List Int32} (h : sizes ≠ []) (m : Machine) :
    NestedOutcome desc sizes m ((newNested desc sizes).run.run m) := by
  induction sizes generalizing desc m with
  | nil => exact absurd rfl h
  | cons n rest ih =>
    cases rest with
    | nil => exact newNested_single_outcome desc n m
    | cons k rest =>
      by_cases negative : n.toInt < 0
      · exact newNested_negative_outcome negative m
      rw [newNested_cons (by omega)]
      have inner := mapM_innerOutcome (fun m => ih (elementDescriptor desc) (by simp) m)
        (List.range n.toInt.toNat) m
      rw [List.length_range] at inner
      rcases level : ((List.range n.toInt.toNat).mapM
          fun _ => newNested (elementDescriptor desc) (k :: rest)).run.run m with ⟨_ | xs, m₁⟩
      · -- an inner array reached a negative count, under positive counts
        obtain ⟨grown, count, v, rfl, reached⟩ := level ▸ inner
        rw [Exec.run_bind_error level]
        exact ⟨grown, v, rfl, negativeReached_cons.mpr (.inr ⟨by omega, reached⟩)⟩
      obtain ⟨grown, length, unreached, each⟩ := level ▸ inner
      rw [Exec.run_bind_ok level]
      rw [Exec.run_bind_ok (allocate_run _ m₁), Exec.run_pure]
      have cells : (m₁.heap.push (.objects xs.toArray))[m₁.heap.size]? =
          some (.objects xs.toArray) := by simp
      refine ⟨grown.trans (.push m₁ _),
        not_negativeReached_cons negative fun positive => unreached (by omega),
        .nested (by simp) cells (by simp [length]) fun x mem => ?_⟩
      exact (each x (by simpa using mem)).grown (.push m₁ _)

/-- `DIM A(2, 3)`: two float arrays of three zeros in an object array, from every machine. -/
theorem newNested_outcome_twoByThree :
    [(2 : Int32), 3] ≠ [] ∧ ∀ m, ∃ v m', (newNested "[[F" [2, 3]).run.run m = (.ok v, m') ∧
      Shaped m'.heap "[[F" [2, 3] v := by
  refine ⟨by simp, fun m => ?_⟩
  have outcome := @newNested_outcome "[[F" [2, 3] (by simp) m
  rcases run : (newNested "[[F" [2, 3]).run.run m with ⟨_ | v, m'⟩
  · obtain ⟨-, v, -, reached⟩ := run ▸ outcome
    simp [negativeReached_cons] at reached
  · exact ⟨v, m', rfl, (run ▸ outcome).2.2⟩

/-- `DIM A(0, -1)`: the second count is negative, yet `multianewarray` returns an empty array
from every machine, since the outer array has no element to make an inner array for. -/
theorem newNested_zeroThenNegative :
    (-1 : Int32).toInt < 0 ∧ ∀ m : Machine,
      (newNested "[[F" [0, -1]).run.run m =
        (.ok (.objects m.heap.size), { m with heap := m.heap.push (.objects #[]) }) :=
  ⟨by decide, fun _ => rfl⟩

end BasicJvm.Vm
