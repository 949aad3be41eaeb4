import Mathlib
import BasicJvm.Machine.State

/-!
# Running a computation on a machine

A computation of the interpreter (`Exec`) is run from a machine and gives its result, or the
fault it stopped with, together with the machine it left.  The lemmas here take a run apart
one step at a time, as `StateT.run_bind_eq_ok` does for computations that only fail: a `>>=`
whose first part succeeded runs its rest from the machine that part left
(`Exec.run_bind_ok`), and one whose first part failed stops with that fault
(`Exec.run_bind_error`).  Proofs about the instructions and the runtime methods read their
steps through these and never unfold the monad.
-/

namespace BasicJvm.Vm

variable {α β : Type}

@[simp] theorem Exec.run_pure (a : α) (m : Machine) :
    (pure a : Exec α).run.run m = (.ok a, m) := rfl

@[simp] theorem Exec.run_throw (e : Fault) (m : Machine) :
    (throw e : Exec α).run.run m = (.error e, m) := rfl

@[simp] theorem Exec.run_get (m : Machine) : (get : Exec Machine).run.run m = (.ok m, m) := rfl

/-- A bind whose first part succeeded runs the rest from the machine that part left. -/
theorem Exec.run_bind_ok {x : Exec α} {f : α → Exec β} {m m' : Machine} {a : α}
    (h : x.run.run m = (.ok a, m')) : (x >>= f).run.run m = (f a).run.run m' := by
  change (ExceptT.bind x f).run.run m = _
  simp only [ExceptT.bind, ExceptT.mk, ExceptT.bindCont, ExceptT.run, StateT.run, bind,
    StateT.bind] at h ⊢
  simp [h]

/-- A bind whose first part failed stops with that fault, on the machine that part left. -/
theorem Exec.run_bind_error {x : Exec α} {f : α → Exec β} {m m' : Machine} {e : Fault}
    (h : x.run.run m = (.error e, m')) : (x >>= f).run.run m = (.error e, m') := by
  change (ExceptT.bind x f).run.run m = _
  simp only [ExceptT.bind, ExceptT.mk, ExceptT.bindCont, ExceptT.run, StateT.run, bind,
    StateT.bind] at h ⊢
  simp [h]
  rfl

/-- A new array goes at the end of the heap, and its place is the old size of the heap. -/
@[simp] theorem allocate_run (c : Cells) (m : Machine) :
    (allocate c).run.run m = (.ok m.heap.size, { m with heap := m.heap.push c }) := rfl

end BasicJvm.Vm
