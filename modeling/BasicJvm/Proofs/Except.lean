import Mathlib

/-!
# Computations that may fail

Most functions of the library return an `Except`: a value or the reason there is none.  A
proof about a successful run takes such a computation apart one step at a time, and these
lemmas say what each step must have given: a `>>=` that succeeded had a first part that
succeeded (`Except.bind_eq_ok`), a `mapM` that succeeded succeeded on every element, with
results in order (`List.mapM_eq_ok`).  Over a state, a step that succeeded is taken apart
the same way (`StateT.run_bind_eq_ok`).
-/

namespace BasicJvm

/-- A bind that succeeded: its first part succeeded, and so did the rest on that value. -/
theorem Except.bind_eq_ok {ε α β : Type} {x : Except ε α} {f : α → Except ε β} {b : β} :
    x >>= f = .ok b ↔ ∃ a, x = .ok a ∧ f a = .ok b := by
  cases x with
  | error e => simp [bind, Except.bind]
  | ok a => simp [bind, Except.bind]

/-- A computation whose success flag is set gave a value; a computation of fixed input can be
shown to succeed by evaluating the flag. -/
theorem Except.exists_eq_ok_of_toBool {ε α : Type} {x : Except ε α} (h : x.toBool = true) :
    ∃ a, x = .ok a := by
  cases x with
  | error e => cases h
  | ok a => exact ⟨a, rfl⟩

/-- A map that succeeded. -/
theorem Except.map_eq_ok {ε α β : Type} {x : Except ε α} {f : α → β} {b : β} :
    f <$> x = .ok b ↔ ∃ a, x = .ok a ∧ f a = b := by
  cases x with
  | error e => simp [Functor.map, Except.map]
  | ok a => simp [Functor.map, Except.map]

/-- Renaming the error of a computation does not change its value. -/
@[simp] theorem Except.mapError_eq_ok {ε ε' α : Type} {x : Except ε α} {f : ε → ε'} {a : α} :
    x.mapError f = .ok a ↔ x = .ok a := by
  cases x <;> simp [Except.mapError]

/-- A `mapM` that succeeded gave one result for each element, in order. -/
theorem List.mapM_eq_ok {ε α β : Type} {f : α → Except ε β} :
    ∀ {xs : List α} {ys : List β},
      xs.mapM f = .ok ys ↔ List.Forall₂ (fun x y => f x = .ok y) xs ys
  | [], ys => by
    cases ys <;> simp [pure, Except.pure]
  | x :: xs, ys => by
    simp only [List.mapM_cons, Except.bind_eq_ok]
    constructor
    · rintro ⟨y, hy, zs, hzs, hys⟩
      simp only [pure, Except.pure, Except.ok.injEq] at hys
      subst hys
      exact List.Forall₂.cons hy (List.mapM_eq_ok.mp hzs)
    · intro h
      cases h with
      | cons hy hrest => exact ⟨_, hy, _, List.mapM_eq_ok.mpr hrest, rfl⟩

@[simp] theorem Except.ok_bind {ε α β : Type} (a : α) (f : α → Except ε β) :
    (Except.ok a >>= f) = f a := rfl

@[simp] theorem Except.error_bind {ε α β : Type} (e : ε) (f : α → Except ε β) :
    (Except.error e >>= f) = .error e := rfl

@[simp] theorem Except.pure_eq_ok {ε α : Type} (a : α) :
    (pure a : Except ε α) = .ok a := rfl

@[simp] theorem Except.throw_eq_error {ε α : Type} (e : ε) :
    (throw e : Except ε α) = .error e := rfl

@[simp] theorem StateT.run_throw_except {σ ε α : Type} (e : ε) (s : σ) :
    (throw e : StateT σ (Except ε) α).run s = .error e := rfl

@[simp] theorem StateT.run_pure_except {σ ε α : Type} (a : α) (s : σ) :
    (pure a : StateT σ (Except ε) α).run s = .ok (a, s) := rfl

/-- A bind over a state that succeeded: its first part succeeded from the first state, and the
rest from the state it left. -/
theorem StateT.run_bind_eq_ok {σ ε α β : Type} {x : StateT σ (Except ε) α}
    {f : α → StateT σ (Except ε) β} {s s'' : σ} {b : β} :
    (x >>= f).run s = .ok (b, s'') ↔
      ∃ a s', x.run s = .ok (a, s') ∧ (f a).run s' = .ok (b, s'') := by
  simp only [StateT.run, bind, StateT.bind]
  cases x s with
  | error e => simp [Except.bind]
  | ok p =>
    obtain ⟨a, s'⟩ := p
    simp [Except.bind]

/-- A bind over a state that failed: its first part failed, or it succeeded and the rest
failed from the state it left. -/
theorem StateT.run_bind_eq_error {σ ε α β : Type} {x : StateT σ (Except ε) α}
    {f : α → StateT σ (Except ε) β} {s : σ} {e : ε} :
    (x >>= f).run s = .error e ↔
      x.run s = .error e ∨ ∃ a s', x.run s = .ok (a, s') ∧ (f a).run s' = .error e := by
  simp only [StateT.run, bind, StateT.bind]
  cases x s with
  | error e' => simp [Except.bind]
  | ok p =>
    obtain ⟨a, s'⟩ := p
    simp [Except.bind]

end BasicJvm
