import BasicJvm.Proofs.Bytecode.Termination
import BasicJvm.Proofs.Bytecode.Provenance

/-!
# Code that checks against a typing certificate

A *certificate* gives a frame to every label of the code and a `base` frame for the statements
that follow an instruction that does not go on.  `checkStep` reads the code once, front to
back, and checks each instruction against the frame the certificate gives it: its `transfer`
succeeds, every label it may jump to has a frame its result fits, and a label is entered only
with a frame that fits the label's.

Frames *fit* a static frame (`Frame.fits`) when they are that frame with integers under its
stack: the keys of the `gosub`s the code is in.  An instruction only reads the part of the stack
it pops (`transfer_under`), so what the check shows for the static frame holds for every frame
that fits it.  Along a simulation of certified code, every instruction is reached with a frame
that fits its static frame, so no step can fail: the simulation either succeeds, or two frames
that fit one static frame but carry different numbers of keys meet at an instruction, or a
`dispatch` is reached with no key (`simulate_certified`).
-/

namespace BasicJvm.Bytecode

open BasicJvm

/-! ## Values under the stack -/

/-- The frame with `below` under its stack. -/
def Frame.under (f : Frame) (below : List VType) : Frame := { f with stack := f.stack ++ below }

section Under

variable {f g : Frame} {below : List VType}

@[simp] theorem Frame.under_locals : (f.under below).locals = f.locals := rfl

@[simp] theorem Frame.under_stack : (f.under below).stack = f.stack ++ below := rfl

@[simp] theorem Frame.under_nil (f : Frame) : f.under [] = f := by
  simp [Frame.under]

theorem Frame.under_under (f : Frame) (b₁ b₂ : List VType) :
    (f.under b₁).under b₂ = f.under (b₁ ++ b₂) := by
  simp [Frame.under]

theorem pop_under {t : VType} (h : pop f = .ok (t, g)) : pop (f.under below) = .ok (t, g.under below) := by
  unfold pop at h ⊢
  cases hs : f.stack with
  | nil => rw [hs] at h; cases h
  | cons x rest =>
    rw [hs] at h
    simp only [Except.ok.injEq, Prod.mk.injEq] at h
    obtain ⟨rfl, rfl⟩ := h
    simp [hs, Frame.under]

theorem popKind_under {want t : VType} (h : popKind want f = .ok (t, g)) :
    popKind want (f.under below) = .ok (t, g.under below) := by
  unfold popKind at h ⊢
  obtain ⟨⟨t', g'⟩, popped, h⟩ := Except.bind_eq_ok.mp h
  rw [pop_under popped, Except.ok_bind]
  dsimp only at h ⊢
  split at h
  · cases h
  · rename_i same
    simp only [same, Bool.false_eq_true, ↓reduceIte, Except.pure_eq_ok, Except.ok.injEq,
      Prod.mk.injEq] at h ⊢
    obtain ⟨rfl, rfl⟩ := h
    exact ⟨rfl, rfl⟩

theorem popRef_under {t : VType} (h : popRef f = .ok (t, g)) :
    popRef (f.under below) = .ok (t, g.under below) := by
  unfold popRef at h ⊢
  obtain ⟨⟨t', g'⟩, popped, h⟩ := Except.bind_eq_ok.mp h
  rw [pop_under popped, Except.ok_bind]
  dsimp only at h ⊢
  split at h
  · cases h
  · rename_i ref
    simp only [ref, Bool.false_eq_true, ↓reduceIte, Except.pure_eq_ok, Except.ok.injEq,
      Prod.mk.injEq] at h ⊢
    obtain ⟨rfl, rfl⟩ := h
    exact ⟨rfl, rfl⟩

theorem popType_under {want : VType} (h : popType want f = .ok g) :
    popType want (f.under below) = .ok (g.under below) := by
  unfold popType at h ⊢
  by_cases ref : want.isRef
  · rw [if_pos ref] at h ⊢
    obtain ⟨⟨t, g'⟩, popped, rfl⟩ := Except.map_eq_ok.mp h
    rw [popRef_under popped]
    rfl
  · rw [if_neg ref] at h ⊢
    obtain ⟨⟨t, g'⟩, popped, rfl⟩ := Except.map_eq_ok.mp h
    rw [popKind_under popped]
    rfl

theorem popN_under {want : VType} :
    ∀ (n : Nat) {f g : Frame}, popN want n f = .ok g → popN want n (f.under below) = .ok (g.under below)
  | 0, f, g, h => by
    simp only [popN, Except.ok.injEq] at h ⊢
    rw [h]
  | n + 1, f, g, h => by
    simp only [popN] at h ⊢
    obtain ⟨⟨t, g'⟩, popped, rest⟩ := Except.bind_eq_ok.mp h
    rw [popKind_under popped, Except.ok_bind]
    exact popN_under n rest

theorem popArguments_under {ref : Ref} :
    ∀ (args : List (Nat × VType)) {f g : Frame}, popArguments ref args f = .ok g →
      popArguments ref args (f.under below) = .ok (g.under below)
  | [], f, g, h => by
    simp only [popArguments, Except.ok.injEq] at h ⊢
    rw [h]
  | (j, t) :: rest, f, g, h => by
    simp only [popArguments] at h ⊢
    split at h
    · rename_i g' popped
      rw [popType_under popped]
      exact popArguments_under rest h
    · cases h

end Under

@[simp] theorem Frame.localType_under {f : Frame} {below : List VType} (i : Int) :
    (f.under below).localType i = f.localType i := rfl

/-- An instruction reads only the part of the stack it pops: what it does to a frame it does to
the same frame with anything under its stack. -/
theorem transfer_under {instr : Instr} {f : Frame} {t : Transfer} (below : List VType)
    (h : transfer instr f = .ok t) :
    transfer instr (f.under below) = .ok ⟨t.frame.under below, t.targets, t.next⟩ := by
  unfold transfer at h ⊢
  split at h
  -- what pushes, jumps or returns without popping
  all_goals try (simp only [Except.pure_eq_ok, Except.ok.injEq] at h; subst h; rfl)
  -- what is refused
  all_goals try (simp at h; done)
  case h_21 op slot =>
    split at h
    -- a load pushes the type of its local, whatever the stack holds
    case h_1 | h_2 | h_3 =>
      dsimp only at h ⊢
      split at h
      · simp at h
      · rename_i holds
        split
        · exact absurd ‹_› holds
        · simp only [Except.pure_eq_ok, Except.ok.injEq] at h ⊢
          subst h
          rfl
    -- a store pops the value it stores
    case h_4 =>
      dsimp only at h ⊢
      split at h
      all_goals
        obtain ⟨⟨v, g⟩, popped, h⟩ := Except.bind_eq_ok.mp h
        simp only [Except.pure_eq_ok, Except.ok.injEq] at h
        subst h
      · rw [popKind_under popped]
        rfl
      · rw [popKind_under popped]
        rfl
      · rw [popRef_under popped]
        rfl
  case h_22 | h_23 =>
    obtain ⟨⟨i₀, g₁⟩, index, h⟩ := Except.bind_eq_ok.mp h
    obtain ⟨⟨arr, g₂⟩, array, h⟩ := Except.bind_eq_ok.mp h
    obtain ⟨elem, element, h⟩ := Except.bind_eq_ok.mp h
    rw [popKind_under index, Except.ok_bind]
    dsimp only
    rw [popRef_under array, Except.ok_bind]
    dsimp only
    rw [element, Except.ok_bind]
    split at h
    · simp at h
    · rename_i fits
      rw [if_neg fits]
      simp only [Except.pure_eq_ok, Except.ok.injEq] at h ⊢
      subst h
      rfl
  -- array stores pop the value, the index and the array
  case h_24 | h_25 =>
    simp only [Instr.opcode] at h ⊢
    have decided : ∀ op : Opcode, (op == .fastore) = decide (op = .fastore) := fun _ => rfl
    simp only [decided, decide_true, decide_false, ↓reduceIte, reduceCtorEq] at h ⊢
    obtain ⟨⟨v, g₁⟩, value, h⟩ := Except.bind_eq_ok.mp h
    obtain ⟨⟨i₀, g₂⟩, index, h⟩ := Except.bind_eq_ok.mp h
    obtain ⟨⟨arr, g₃⟩, array, h⟩ := Except.bind_eq_ok.mp h
    simp only [Except.pure_eq_ok, Except.ok.injEq] at h
    subst h
    first
    | rw [popKind_under value, Except.ok_bind]
    | rw [popRef_under value, Except.ok_bind]
    dsimp only
    rw [popKind_under index, Except.ok_bind]
    dsimp only
    rw [popRef_under array]
    rfl
  -- `pop` and `dup` take one value of one slot
  case h_26 | h_27 =>
    obtain ⟨⟨v, g⟩, popped, h⟩ := Except.bind_eq_ok.mp h
    rw [pop_under popped, Except.ok_bind]
    dsimp only at h ⊢
    split at h
    · simp at h
    · rename_i single
      rw [if_neg single]
      simp only [Except.pure_eq_ok, Except.ok.injEq] at h ⊢
      subst h
      rfl
  case h_28 =>
    obtain ⟨⟨a, g₁⟩, first, h⟩ := Except.bind_eq_ok.mp h
    obtain ⟨⟨b, g₂⟩, second, h⟩ := Except.bind_eq_ok.mp h
    rw [pop_under first, Except.ok_bind]
    dsimp only
    rw [pop_under second, Except.ok_bind]
    dsimp only at h ⊢
    split at h
    · simp at h
    · rename_i single
      rw [if_neg single]
      simp only [Except.pure_eq_ok, Except.ok.injEq] at h ⊢
      subst h
      rfl
  -- arithmetic and comparisons pop their operands and push the result
  case h_29 | h_30 | h_31 | h_32 | h_33 | h_34 | h_35 | h_41 | h_42 | h_44 | h_49 =>
    obtain ⟨g, popped, h⟩ := Except.bind_eq_ok.mp h
    rw [popN_under _ popped, Except.ok_bind]
    simp only [Except.pure_eq_ok, Except.ok.injEq] at h ⊢
    subst h
    rfl
  case h_36 | h_37 | h_38 | h_39 | h_40 =>
    simp only [Instr.opcode, conversion] at h ⊢
    obtain ⟨⟨v, g⟩, popped, h⟩ := Except.bind_eq_ok.mp h
    rw [popKind_under popped, Except.ok_bind]
    simp only [Except.pure_eq_ok, Except.ok.injEq] at h ⊢
    subst h
    rfl
  case h_43 =>
    split at h
    · rename_i goto
      rw [if_pos goto]
      simp only [Except.pure_eq_ok, Except.ok.injEq] at h ⊢
      subst h
      rfl
    · rename_i conditional
      rw [if_neg conditional]
      obtain ⟨g, popped, h⟩ := Except.bind_eq_ok.mp h
      rw [popN_under _ popped, Except.ok_bind]
      simp only [Except.pure_eq_ok, Except.ok.injEq] at h ⊢
      subst h
      rfl
  case h_45 | h_48 =>
    obtain ⟨g, popped, h⟩ := Except.bind_eq_ok.mp h
    rw [popN_under _ popped, Except.ok_bind]
    dsimp only at h ⊢
    split at h
    · simp at h
    · rename_i fits
      rw [if_neg fits]
      simp only [Except.pure_eq_ok, Except.ok.injEq] at h ⊢
      subst h
      rfl
  case h_50 =>
    obtain ⟨⟨v, g⟩, popped, h⟩ := Except.bind_eq_ok.mp h
    rw [popRef_under popped, Except.ok_bind]
    simp only [Except.pure_eq_ok, Except.ok.injEq] at h ⊢
    subst h
    rfl
  case h_51 =>
    split at h
    · simp at h
    · rename_i fits
      rw [if_neg fits]
      obtain ⟨g, popped, h⟩ := Except.bind_eq_ok.mp h
      rw [popN_under _ popped, Except.ok_bind]
      simp only [Except.pure_eq_ok, Except.ok.injEq] at h ⊢
      subst h
      rfl
  case h_47 op ref =>
    split at h
    -- a field access pops the value it writes, then the object
    case h_1 | h_2 =>
      obtain ⟨ft, typed, h⟩ := Except.bind_eq_ok.mp h
      rw [typed, Except.ok_bind]
      have decided : ∀ op op' : Opcode, (op == op') = decide (op = op') := fun _ _ => rfl
      simp only [decided, decide_true, decide_false, ↓reduceIte, reduceCtorEq, pure_bind] at h ⊢
      first
      | (obtain ⟨g₁, written, h⟩ := Except.bind_eq_ok.mp h
         rw [popType_under written, Except.ok_bind])
      | skip
      obtain ⟨⟨v, g⟩, popped, h⟩ := Except.bind_eq_ok.mp h
      rw [popRef_under popped, Except.ok_bind]
      simp only [Except.pure_eq_ok, Except.ok.injEq] at h ⊢
      subst h
      rfl
    case h_3 =>
      obtain ⟨⟨args, ret⟩, typed, h⟩ := Except.bind_eq_ok.mp h
      rw [typed, Except.ok_bind]
      dsimp only at h ⊢
      obtain ⟨g, popped, h⟩ := Except.bind_eq_ok.mp h
      rw [popArguments_under _ popped, Except.ok_bind]
      -- then the receiver, unless the call is static
      split at h
      · rename_i virtual
        rw [if_pos virtual]
        obtain ⟨g', received, h⟩ := Except.bind_eq_ok.mp h
        obtain ⟨⟨v, g''⟩, popped', rfl⟩ := Except.map_eq_ok.mp (Except.mapError_eq_ok.mp received)
        simp only [Except.map, popRef_under popped', Except.mapError, Except.ok_bind,
          Except.pure_eq_ok, Except.ok.injEq] at h ⊢
        subst h
        cases ret <;> rfl
      · rename_i static
        rw [if_neg static]
        simp only [Except.pure_eq_ok, Except.ok_bind, Except.ok.injEq] at h ⊢
        subst h
        cases ret <;> rfl
/-! ## Fitting a static frame -/

/-- Whether frame `g` is the static frame `c` with integers under its stack: the return keys
of the `gosub`s it is in. -/
def Frame.fits (c g : Frame) : Bool :=
  g.locals == c.locals && c.stack.isPrefixOf g.stack &&
    (g.stack.drop c.stack.length).all (· == .int)

section Fits

variable {c f g : Frame}

theorem Frame.fits_iff : c.fits g = true ↔ ∃ k, g = c.under (List.replicate k .int) := by
  constructor
  · intro h
    simp only [Frame.fits, Bool.and_eq_true, beq_iff_eq, List.isPrefixOf_iff_prefix,
      List.all_eq_true] at h
    obtain ⟨gl, gs⟩ := g
    obtain ⟨⟨locals, rest, stack⟩, ints⟩ := h
    dsimp only at locals stack ints
    subst locals stack
    refine ⟨rest.length, ?_⟩
    have keys : rest = List.replicate rest.length .int := by
      rw [List.eq_replicate_iff]
      refine ⟨rfl, fun t ht => ?_⟩
      exact ints t (by simpa using ht)
    simp only [Frame.under, Frame.mk.injEq, true_and]
    exact congrArg (c.stack ++ ·) keys
  · rintro ⟨k, rfl⟩
    simp [Frame.fits, List.isPrefixOf_iff_prefix]

theorem Frame.fits_refl (c : Frame) : c.fits c = true :=
  Frame.fits_iff.mpr ⟨0, by simp⟩

theorem Frame.fits_under (h : c.fits g = true) (k : Nat) :
    c.fits (g.under (List.replicate k .int)) = true := by
  obtain ⟨k', rfl⟩ := Frame.fits_iff.mp h
  rw [Frame.under_under, ← List.replicate_add]
  exact Frame.fits_iff.mpr ⟨_, rfl⟩

theorem Frame.depth_under_keys (f : Frame) (k : Nat) :
    (f.under (List.replicate k .int)).depth = f.depth + k := by
  simp [Frame.depth, Frame.under, VType.size]

/-- Two frames that fit one static frame and do not agree differ only in how many keys they
carry: same locals, different depths. -/
theorem Frame.fits_disagree (hf : c.fits f = true) (hg : c.fits g = true)
    (differ : f.agrees g = false) : f.locals = g.locals ∧ f.depth ≠ g.depth := by
  obtain ⟨k, rfl⟩ := Frame.fits_iff.mp hf
  obtain ⟨k', rfl⟩ := Frame.fits_iff.mp hg
  refine ⟨rfl, ?_⟩
  rw [Frame.depth_under_keys, Frame.depth_under_keys]
  intro same
  have : k = k' := by omega
  subst this
  simp [Frame.agrees] at differ

end Fits

/-! ## The check -/

/-- A label the instruction names: a branch or switch target, the target and the return label
of a `gosub`, the default of a `dispatch`. -/
def Instr.labels : Instr → List Label
  | .jump _ target => [target]
  | .tableSwitch _ dflt targets | .lookupSwitch dflt _ targets => dflt :: targets
  | .gosub _ target ret => [target, ret]
  | .dispatch dflt => [dflt]
  | _ => []

/-- The label a `gosub` returns to. -/
def Instr.returnLabel? : Instr → Option Label
  | .gosub _ _ ret => some ret
  | _ => none

/-- The label an instruction places. -/
def Instr.label? : Instr → Option Label
  | .label l => some l
  | _ => none

/-- The labels an instruction jumps to are labels it names. -/
theorem transfer_targets {instr : Instr} {f : Frame} {t : Transfer} (h : transfer instr f = .ok t) :
    ∀ l ∈ t.targets, l ∈ instr.labels := by
  unfold transfer at h
  split at h
  -- every branch ends in a `pure` of a transfer, after binds and checks that may throw
  all_goals
    repeat' (first
      | (simp only [pure, Except.pure, Except.ok.injEq] at h; subst h; simp [Instr.labels])
      | (obtain ⟨_, _, h⟩ := Except.bind_eq_ok.mp h)
      | (split at h)
      | (dsimp only at h)
      | (simp at h))

/-- The static frame of an instruction after the check's state `st`: a label's own frame, the
frame the previous instruction goes on with, or `base` after one that does not go on. -/
def staticFrame (labelFrame : Label → Frame) (base : Frame) (st : Option Frame) : Instr → Frame
  | .label l => labelFrame l
  | _ => st.getD base

/-- One instruction of the check: from the frame the previous instruction goes on with (none if
it does not go on), the frame this one goes on with, or none at all when it does not check.
A label is entered with a frame that fits its own; a `dispatch` stands where statements do and
returns to statements; anything else transfers, every label it may jump to fits the frame it
leaves, and a `gosub` returns to a statement. -/
def checkStep (labelFrame : Label → Frame) (base : Frame) (st : Option Frame) (instr : Instr) :
    Option (Option Frame) :=
  match instr with
  | .label l => if st.all (labelFrame l).fits then some (some (labelFrame l)) else none
  | .dispatch dflt => if st.getD base == base && labelFrame dflt == base then some none else none
  | _ =>
    match transfer instr (st.getD base) with
    | .ok t =>
      if t.targets.all (fun l => (labelFrame l).fits t.frame) &&
          instr.returnLabel?.all (fun r => labelFrame r == base) then
        some (if t.next then some t.frame else none)
      else none
    | .error _ => none

/-- A typing certificate of code run from the frame `entry`: a frame for every label and the
frame of the statements, against which the code checks to its end, where no instruction goes
on; with every label placed once, every label named placed, and each key of one return label. -/
structure Certificate (code : List Instr) (entry : Frame) where
  labelFrame : Label → Frame
  base : Frame
  baseStack : base.stack = []
  checks : code.foldlM (checkStep labelFrame base) (some entry) = some none
  placedOnce : (code.filterMap Instr.label?).Nodup
  placed : ∀ instr ∈ code, ∀ l ∈ instr.labels, Instr.label l ∈ code
  keyed : ∀ key target ret target' ret', Instr.gosub key target ret ∈ code →
    Instr.gosub key target' ret' ∈ code → ret = ret'

namespace Certificate

variable {code : List Instr} {entry : Frame} (cert : Certificate code entry)

/-- The state of the check before instruction `i`. -/
def stateAt (i : Nat) : Option Frame :=
  ((code.take i).foldlM (checkStep cert.labelFrame cert.base) (some entry)).join

/-- The static frame of instruction `i`. -/
def frameAt (i : Nat) : Frame :=
  staticFrame cert.labelFrame cert.base (cert.stateAt i) (code.getD i default)

/-- The check of a prefix succeeds, with the state the next instruction starts from. -/
theorem prefix_checks (i : Nat) :
    (code.take i).foldlM (checkStep cert.labelFrame cert.base) (some entry) = some (cert.stateAt i) := by
  have whole : (code.take i ++ code.drop i).foldlM (checkStep cert.labelFrame cert.base)
      (some entry) = some none := by
    rw [List.take_append_drop]
    exact cert.checks
  rw [List.foldlM_append] at whole
  cases h : (code.take i).foldlM (checkStep cert.labelFrame cert.base) (some entry) with
  | none => rw [h] at whole; cases whole
  | some st => simp [stateAt, h]

theorem stateAt_zero : cert.stateAt 0 = some entry := by
  simp [stateAt]

theorem stateAt_length : cert.stateAt code.length = none := by
  have := cert.prefix_checks code.length
  rw [List.take_length, cert.checks, Option.some.injEq] at this
  exact this.symm

/-- Instruction `i` checks from the state before it to the state after it. -/
theorem step {i : Nat} (inside : i < code.length) :
    checkStep cert.labelFrame cert.base (cert.stateAt i) code[i] = some (cert.stateAt (i + 1)) := by
  have next := cert.prefix_checks (i + 1)
  rw [List.take_add_one, List.getElem?_eq_getElem inside, Option.toList_some, List.foldlM_append,
    cert.prefix_checks i] at next
  simpa using next

end Certificate

namespace Certificate

variable {code : List Instr} {entry : Frame} (cert : Certificate code entry)

theorem stateAt_of_le {j : Nat} (outside : code.length ≤ j) : cert.stateAt j = none := by
  have h := cert.prefix_checks j
  rw [List.take_of_length_le outside, cert.checks, Option.some.injEq] at h
  exact h.symm

/-- An instruction the check goes on to lies inside the code. -/
theorem lt_length_of_stateAt {j : Nat} {g : Frame} (h : cert.stateAt j = some g) :
    j < code.length := by
  by_contra outside
  rw [cert.stateAt_of_le (Nat.le_of_not_lt outside)] at h
  cases h

theorem frameAt_label {j : Nat} {l : Label} (h : code[j]? = some (.label l)) :
    cert.frameAt j = cert.labelFrame l := by
  simp [frameAt, List.getD_eq_getElem?_getD, h, staticFrame]

/-- The static frame of an instruction fits the frame the check goes on to it with. -/
theorem fits_stateAt {j : Nat} {g : Frame} (h : cert.stateAt j = some g) :
    (cert.frameAt j).fits g = true := by
  have inside := cert.lt_length_of_stateAt h
  have step := cert.step inside
  unfold frameAt
  rw [List.getD_eq_getElem?_getD, List.getElem?_eq_getElem inside, Option.getD_some]
  unfold staticFrame
  split
  · rename_i l hl
    rw [hl, h] at step
    simp only [checkStep, Option.all_some] at step
    split at step
    · assumption
    · cases step
  · rw [h, Option.getD_some]
    exact Frame.fits_refl g

/-- What the check shows of an instruction other than a `dispatch`: its transfer from its
static frame succeeds, every label it jumps to has a frame that fits the frame it leaves, a
`gosub` returns to a statement, and the check goes on with that frame when it goes on. -/
theorem transfers {i : Nat} (inside : i < code.length) (other : ∀ dflt, code[i] ≠ .dispatch dflt) :
    ∃ t, transfer code[i] (cert.frameAt i) = .ok t ∧
      (∀ l ∈ t.targets, (cert.labelFrame l).fits t.frame = true) ∧
      (∀ r, code[i].returnLabel? = some r → cert.labelFrame r = cert.base) ∧
      cert.stateAt (i + 1) = if t.next then some t.frame else none := by
  have step := cert.step inside
  unfold frameAt
  rw [List.getD_eq_getElem?_getD, List.getElem?_eq_getElem inside, Option.getD_some]
  generalize code[i] = instr at step other ⊢
  unfold checkStep at step
  split at step
  · rename_i l
    split at step
    · exact ⟨⟨cert.labelFrame l, [], true⟩, rfl, by simp, by simp [Instr.returnLabel?],
        (Option.some.inj step).symm⟩
    · cases step
  · rename_i dflt
    exact absurd rfl (other dflt)
  · rename_i notLabel notDispatch
    have frame : staticFrame cert.labelFrame cert.base (cert.stateAt i) instr =
        (cert.stateAt i).getD cert.base := by
      unfold staticFrame
      split
      · rename_i l
        exact absurd rfl (notLabel l)
      · rfl
    rw [frame]
    split at step
    · rename_i t ht
      split at step
      · rename_i checks
        simp only [Bool.and_eq_true, List.all_eq_true] at checks
        obtain ⟨targets, returns⟩ := checks
        refine ⟨t, ht, targets, ?_, (Option.some.inj step).symm⟩
        intro r hr
        rw [hr] at returns
        simpa using returns
      · cases step
    · cases step

/-- A `dispatch` stands where statements do and returns to statements. -/
theorem dispatches {i : Nat} {dflt : Label} (h : code[i]? = some (.dispatch dflt)) :
    cert.frameAt i = cert.base ∧ cert.labelFrame dflt = cert.base := by
  have inside : i < code.length := (List.getElem?_eq_some_iff.mp h).1
  have step := cert.step inside
  rw [List.getElem?_eq_getElem inside, Option.some.injEq] at h
  rw [h] at step
  simp only [checkStep, Bool.and_eq_true, beq_iff_eq] at step
  split at step
  · rename_i both
    refine ⟨?_, both.2⟩
    simp [frameAt, List.getD_eq_getElem?_getD, List.getElem?_eq_getElem inside, h, staticFrame,
      both.1]
  · cases step

/-- A `gosub` returns to a statement. -/
theorem returns_base {key : Int} {target ret : Label} (h : Instr.gosub key target ret ∈ code) :
    cert.labelFrame ret = cert.base := by
  obtain ⟨i, inside, hi⟩ := List.getElem_of_mem h
  obtain ⟨t, -, -, returns, -⟩ := cert.transfers inside (by simp [hi])
  exact returns ret (by simp [hi, Instr.returnLabel?])

end Certificate

/-! ## Labels -/

/-- One step of `labelIndexes`. -/
def labelStep (acc : List (Label × Nat)) : Instr × Nat → Except FlowError (List (Label × Nat))
  | (instr, i) =>
    match instr with
    | .label l => if (acc.lookup l).isSome then .error (.duplicateLabel l) else .ok (acc ++ [(l, i)])
    | _ => .ok acc

theorem labelIndexes_eq (code : List Instr) : labelIndexes code = code.zipIdx.foldlM labelStep [] :=
  rfl

theorem labelStep_ok {acc acc' : List (Label × Nat)} {instr : Instr} {i : Nat}
    (h : labelStep acc (instr, i) = .ok acc') :
    acc' = acc ∨ ∃ l, instr = .label l ∧ acc' = acc ++ [(l, i)] := by
  cases instr
  case label l =>
    simp only [labelStep] at h
    split at h
    · cases h
    · exact .inr ⟨l, rfl, (Except.ok.inj h).symm⟩
  all_goals exact .inl (Except.ok.inj h).symm

/-- A label found stays found, and each label of the instructions folded over is found. -/
theorem foldlM_labelStep_defined :
    ∀ (xs : List (Instr × Nat)) (acc res : List (Label × Nat)), xs.foldlM labelStep acc = .ok res →
      (∀ l, (acc.lookup l).isSome → (res.lookup l).isSome) ∧
        ∀ l i, (Instr.label l, i) ∈ xs → (res.lookup l).isSome
  | [], acc, res, h => by
    simp only [List.foldlM_nil, pure, Except.pure, Except.ok.injEq] at h
    subst h
    exact ⟨fun _ h => h, by simp⟩
  | (instr, i) :: xs, acc, res, h => by
    rw [List.foldlM_cons] at h
    obtain ⟨acc', step, rest⟩ := Except.bind_eq_ok.mp h
    obtain ⟨keeps, found⟩ := foldlM_labelStep_defined xs acc' res rest
    -- the step keeps every label found
    have grows : ∀ l, (acc.lookup l).isSome → (acc'.lookup l).isSome := by
      intro l hl
      rcases labelStep_ok step with rfl | ⟨l', -, rfl⟩
      · exact hl
      · rw [List.lookup_append]
        simp [hl]
    refine ⟨fun l hl => keeps l (grows l hl), ?_⟩
    intro l j mem
    rcases List.mem_cons.mp mem with same | later
    · -- and finds its own
      obtain ⟨rfl, rfl⟩ := Prod.mk.inj same
      refine keeps l ?_
      simp only [labelStep] at step
      split at step
      · cases step
      · obtain rfl := Except.ok.inj step
        simp
    · exact found l j later

/-- Every label placed in the code is found. -/
theorem labelIndexes_defined {code : List Instr} {labels : List (Label × Nat)}
    (h : labelIndexes code = .ok labels) {l : Label} (placed : Instr.label l ∈ code) :
    ∃ j, labels.lookup l = some j := by
  obtain ⟨i, inside, hi⟩ := List.getElem_of_mem placed
  have mem : (Instr.label l, i) ∈ code.zipIdx :=
    List.mem_zipIdx_iff_getElem?.mpr (by rw [List.getElem?_eq_getElem inside, hi])
  exact Option.isSome_iff_exists.mp ((foldlM_labelStep_defined _ [] labels h).2 l i mem)

/-- Labels placed once each are found without complaint. -/
theorem foldlM_labelStep_ok :
    ∀ (xs : List (Instr × Nat)) (acc : List (Label × Nat)),
      (acc.map Prod.fst ++ (xs.map Prod.fst).filterMap Instr.label?).Nodup →
      ∃ res, xs.foldlM labelStep acc = .ok res
  | [], acc, _ => ⟨acc, rfl⟩
  | (instr, i) :: xs, acc, nodup => by
    rw [List.foldlM_cons]
    cases instr
    case label l =>
      have fresh : acc.lookup l = none := by
        rw [List.lookup_eq_none_iff]
        intro p hp
        simp only [List.map_cons, List.filterMap_cons, Instr.label?] at nodup
        have differ := (List.nodup_append.mp nodup).2.2 p.1 (List.mem_map_of_mem hp) l
          List.mem_cons_self
        exact bne_iff_ne.mpr (Ne.symm differ)
      obtain ⟨res, h⟩ := foldlM_labelStep_ok xs (acc ++ [(l, i)]) (by
        simp only [List.map_cons, List.filterMap_cons, Instr.label?] at nodup
        simpa using nodup)
      exact ⟨res, by simp [labelStep, fresh, h]⟩
    all_goals
      simp only [List.map_cons, List.filterMap_cons, Instr.label?] at nodup
      exact foldlM_labelStep_ok xs acc nodup

theorem labelIndexes_ok {code : List Instr} (nodup : (code.filterMap Instr.label?).Nodup) :
    ∃ labels, labelIndexes code = .ok labels := by
  rw [labelIndexes_eq]
  exact foldlM_labelStep_ok _ [] (by simpa [List.zipIdx_map_fst] using nodup)

/-! ## Frames that fit along a simulation -/

/-- Every instruction reached is reached with a frame that fits its static frame. -/
def Simulation.Fitted (static : Nat → Frame) (s : Simulation) : Prop :=
  ∀ j g, s.frameAt j = some g → (static j).fits g = true

/-- A label leads to an instruction of the code whose static frame fits `f`. -/
def Simulation.Lands (static : Nat → Frame) (s : Simulation) (l : Label) (f : Frame) : Prop :=
  ∃ j, s.labels.lookup l = some j ∧ j < s.code.size ∧ (static j).fits f = true

/-- What certified code may fail with: two frames of the same locals but of different depths
meeting at an instruction, or a `dispatch` with no key. -/
def StepError.Expected : StepError → Prop
  | .merge _ held got =>
    ∃ f g : Frame, f.locals = g.locals ∧ f.depth ≠ g.depth ∧ held = f.text ∧ got = g.text
  | .unmatchedReturn _ => True
  | .problem _ => False

section Fitted

variable {static : Nat → Frame} {s s' : Simulation} {f : Frame} {e : StepError}

theorem Simulation.Adds.fitted {Q : Nat → Frame → Prop} (adds : s.Adds s' Q)
    (fitted : s.Fitted static) (fits : ∀ j g, Q j g → (static j).fits g = true) :
    s'.Fitted static := by
  intro j g hj
  cases old : s.frameAt j with
  | some g₀ =>
    rw [adds.keeps j g₀ old, Option.some.injEq] at hj
    exact hj ▸ fitted j g₀ old
  | none => exact fits j g (adds.brings j g old hj)

theorem Simulation.Lands.congr {l : Label} (lands : s.Lands static l f) (code : s'.code = s.code)
    (labels : s'.labels = s.labels) : s'.Lands static l f := by
  obtain ⟨j, hj, inside, fits⟩ := lands
  exact ⟨j, labels ▸ hj, code ▸ inside, fits⟩

theorem Simulation.Lands.grows {l : Label} (lands : s.Lands static l f) (grows : s.Grows s') :
    s'.Lands static l f :=
  lands.congr grows.code grows.labels

theorem flow_expected {target : Nat} (fitted : s.Fitted static) (inside : target < s.code.size)
    (fits : (static target).fits f = true) (h : (flow target f).run s = .error e) : e.Expected := by
  simp only [flow, StateT.run_bind, StateT.run_get, pure_bind] at h
  split at h
  · omega
  split at h
  · rename_i cur reached
    split at h
    · rename_i differ
      simp only [StateT.run_throw_except, Except.error.injEq] at h
      subst h
      obtain ⟨locals, depth⟩ := Frame.fits_disagree (fitted target cur reached) fits
        (by simpa using differ)
      exact ⟨cur, f, locals, depth, rfl, rfl⟩
    · simp at h
  · simp at h

theorem jump_expected {l : Label} (fitted : s.Fitted static) (lands : s.Lands static l f)
    (h : (jump l f).run s = .error e) : e.Expected := by
  obtain ⟨j, hj, inside, fits⟩ := lands
  simp only [jump, StateT.run_bind, StateT.run_get, pure_bind, hj] at h
  exact flow_expected fitted inside fits h

theorem jump_fitted {l : Label} (sized : s.incoming.size = s.code.size) (fitted : s.Fitted static)
    (lands : s.Lands static l f) (h : (jump l f).run s = .ok ((), s')) : s'.Fitted static := by
  obtain ⟨j, hj, -, fits⟩ := lands
  refine (jump_adds sized h).fitted fitted ?_
  rintro j' g ⟨hj', rfl⟩
  rw [hj, Option.some.injEq] at hj'
  exact hj' ▸ fits

theorem forM_jump_fitted {α : Type} (label : α → Label) (xs : List α)
    (sized : s.incoming.size = s.code.size) (fitted : s.Fitted static)
    (lands : ∀ x ∈ xs, s.Lands static (label x) f)
    (h : (xs.forM fun x => jump (label x) f).run s = .ok ((), s')) : s'.Fitted static := by
  refine (forM_jump_adds label xs sized h).fitted fitted ?_
  rintro j g ⟨⟨x, hx, hj⟩, rfl⟩
  obtain ⟨j', hj', -, fits⟩ := lands x hx
  rw [hj, Option.some.injEq] at hj'
  exact hj' ▸ fits

theorem forM_jump_expected {α : Type} (label : α → Label) :
    ∀ (xs : List α) {s : Simulation}, s.incoming.size = s.code.size → s.Fitted static →
      (∀ x ∈ xs, s.Lands static (label x) f) →
      (xs.forM fun x => jump (label x) f).run s = .error e → e.Expected
  | [], s, _, _, _, h => by simp [List.forM] at h
  | x :: xs, s, sized, fitted, lands, h => by
    rcases StateT.run_bind_eq_error.mp h with first | ⟨_, s₁, first, rest⟩
    · exact jump_expected fitted (lands x List.mem_cons_self) first
    · have grows₁ := (jump_grows sized first).1
      exact forM_jump_expected label xs (grows₁.sized sized)
        (jump_fitted sized fitted (lands x List.mem_cons_self) first)
        (fun y hy => (lands y (List.mem_cons_of_mem x hy)).grows grows₁) rest

theorem Simulation.Fitted.of_incoming (fitted : s.Fitted static) (same : s'.incoming = s.incoming) :
    s'.Fitted static :=
  (Simulation.Adds.of_incoming (Q := fun _ _ => False) same).fitted fitted fun _ _ => False.elim

section Follow

variable {i : Nat} {t : Transfer}

/-- What stepping an instruction asks of the frame it leaves: every label it names leads to an
instruction whose static frame fits it, and so does the next instruction when it goes on. -/
def Simulation.Leaves (static : Nat → Frame) (s : Simulation) (i : Nat) (t : Transfer) : Prop :=
  (∀ l ∈ t.targets, s.Lands static l t.frame) ∧
    (t.next = true → i + 1 < s.code.size ∧ (static (i + 1)).fits t.frame = true)

theorem Simulation.Leaves.fits (leaves : s.Leaves static i t) {j : Nat}
    (hj : (∃ l ∈ t.targets, s.labels.lookup l = some j) ∨ (t.next = true ∧ j = i + 1)) :
    (static j).fits t.frame = true := by
  rcases hj with ⟨l, hl, hj⟩ | ⟨next, rfl⟩
  · obtain ⟨j', hj', -, fits⟩ := leaves.1 l hl
    rw [hj, Option.some.injEq] at hj'
    exact hj' ▸ fits
  · exact (leaves.2 next).2

theorem Simulation.Leaves.congr (leaves : s.Leaves static i t) (code : s'.code = s.code)
    (labels : s'.labels = s.labels) : s'.Leaves static i t :=
  ⟨fun l hl => (leaves.1 l hl).congr code labels, fun next => code ▸ leaves.2 next⟩

theorem follow_expected (sized : s.incoming.size = s.code.size) (fitted : s.Fitted static)
    (leaves : s.Leaves static i t) (h : (follow i t).run s = .error e) : e.Expected := by
  simp only [follow] at h
  rcases StateT.run_bind_eq_error.mp h with jumps | ⟨_, s₁, jumps, rest⟩
  · exact forM_jump_expected id t.targets sized fitted leaves.1 jumps
  have grows₁ := (forM_jump_grows id t.targets sized jumps).1
  have fitted₁ := forM_jump_fitted id t.targets sized fitted leaves.1 jumps
  rcases StateT.run_bind_eq_error.mp rest with depth | ⟨_, s₂, depth, last⟩
  · simp at depth
  have grows₂ := noteDepth_grows depth
  by_cases next : t.next = true
  · simp only [next, ↓reduceIte] at last
    obtain ⟨inside, fits⟩ := leaves.2 next
    exact flow_expected (fitted₁.of_incoming (noteDepth_incoming depth))
      (by rw [grows₂.code, grows₁.code]; exact inside) fits last
  · simp [next] at last

end Follow

section Dispatch

variable {i : Nat} {dflt : Label} {f0 : Frame}

/-- What stepping a `dispatch` asks of the frame it is reached with: with a key on the stack,
popping it leaves a frame that fits the static frames of the default label and of the return
label of every site. -/
def Simulation.Returns' (static : Nat → Frame) (s : Simulation) (dflt : Label) (f0 : Frame) : Prop :=
  f0.stack ≠ [] → ∃ g, popN .int 1 f0 = .ok g ∧ s.Lands static dflt g ∧
    ∀ st ∈ s.sites, s.Lands static st.ret g

theorem Simulation.Returns'.fits (returns : s.Returns' static dflt f0) {g : Frame} {j : Nat}
    (popped : popN .int 1 f0 = .ok g)
    (hj : s.labels.lookup dflt = some j ∨ ∃ st ∈ s.sites, s.labels.lookup st.ret = some j) :
    (static j).fits g = true := by
  have nonempty : f0.stack ≠ [] := by
    intro empty
    simp [popN, popKind, pop, empty] at popped
  obtain ⟨g', popped', ⟨j₀, hj₀, -, fits₀⟩, landsSites⟩ := returns nonempty
  rw [popped, Except.ok.injEq] at popped'
  subst popped'
  rcases hj with hj | ⟨st, hst, hj⟩
  · rw [hj₀, Option.some.injEq] at hj
    exact hj ▸ fits₀
  · obtain ⟨j₁, hj₁, -, fits₁⟩ := landsSites st hst
    rw [hj₁, Option.some.injEq] at hj
    exact hj ▸ fits₁

theorem Simulation.Returns'.congr (returns : s.Returns' static dflt f0) (code : s'.code = s.code)
    (labels : s'.labels = s.labels) (sites : s'.sites = s.sites) : s'.Returns' static dflt f0 := by
  intro nonempty
  obtain ⟨g, popped, landsDflt, landsSites⟩ := returns nonempty
  exact ⟨g, popped, landsDflt.congr code labels,
    fun st hst => (landsSites st (sites ▸ hst)).congr code labels⟩

theorem dispatchAt_expected (sized : s.incoming.size = s.code.size) (fitted : s.Fitted static)
    (returns : s.Returns' static dflt f0) (h : (dispatchAt i dflt f0).run s = .error e) :
    e.Expected := by
  simp only [dispatchAt] at h
  split at h
  · simp only [StateT.run_bind, StateT.run_throw_except, Except.error_bind,
      Except.error.injEq] at h
    subst h
    trivial
  rename_i nonempty
  obtain ⟨g, popped, landsDflt, landsSites⟩ := returns (by simpa using nonempty)
  rcases StateT.run_bind_eq_error.mp h with pop | ⟨f, s₁, pop, rest₁⟩
  · simp [lift, popped] at pop
  obtain ⟨popped', same⟩ := lift_run_ok pop
  subst s₁
  rw [popped, Except.ok.injEq] at popped'
  subst popped'
  rcases StateT.run_bind_eq_error.mp rest₁ with record | ⟨_, s₂, record, rest₂⟩
  · simp at record
  simp only [StateT.run_modify, Except.pure_eq_ok, Except.ok.injEq, Prod.mk.injEq,
    true_and] at record
  -- recording the dispatch leaves the frames, the code, the labels and the sites alone
  have same₂ : s₂.incoming = s.incoming ∧ s₂.code = s.code ∧ s₂.labels = s.labels ∧
      s₂.sites = s.sites := by
    subst record
    split <;> exact ⟨rfl, rfl, rfl, rfl⟩
  rcases StateT.run_bind_eq_error.mp rest₂ with read | ⟨s₃, s₄, read, rest₃⟩
  · simp at read
  simp only [StateT.run_get, Except.pure_eq_ok, Except.ok.injEq, Prod.mk.injEq] at read
  obtain ⟨rfl, rfl⟩ := read
  have fitted₂ := fitted.of_incoming same₂.1
  have sized₂ : s₂.incoming.size = s₂.code.size := by rw [same₂.1, same₂.2.1, sized]
  have landsMatched : ∀ st ∈ s₂.sites.filter (·.frame.agrees g), s₂.Lands static st.ret g :=
    fun st hst => (landsSites st (same₂.2.2.2 ▸ (List.mem_filter.mp hst).1)).congr same₂.2.1
      same₂.2.2.1
  rcases StateT.run_bind_eq_error.mp rest₃ with jumps | ⟨_, s₅, jumps, rest₄⟩
  · exact forM_jump_expected Site.ret _ sized₂ fitted₂ landsMatched jumps
  have grows₅ := (forM_jump_grows Site.ret _ sized₂ jumps).1
  have fitted₅ := forM_jump_fitted Site.ret _ sized₂ fitted₂ landsMatched jumps
  rcases StateT.run_bind_eq_error.mp rest₄ with setMatched | ⟨_, s₆, setMatched, rest₅⟩
  · simp at setMatched
  simp only [StateT.run_modify, Except.pure_eq_ok, Except.ok.injEq, Prod.mk.injEq,
    true_and] at setMatched
  rcases StateT.run_bind_eq_error.mp rest₅ with back | ⟨_, s₇, back, depth⟩
  · exact jump_expected (fitted₅.of_incoming (by rw [← setMatched]))
      (((landsDflt.congr same₂.2.1 same₂.2.2.1).grows grows₅).congr (by rw [← setMatched])
        (by rw [← setMatched])) back
  · simp at depth

end Dispatch

section Step

variable {i : Nat} {f0 : Frame}

/-- What stepping instruction `i` with frame `f0` asks: a `gosub` registers no key that a site
has with another return label, a `dispatch` returns to frames that fit, and any other
instruction transfers and leaves frames that fit. -/
structure Simulation.Steps (static : Nat → Frame) (s : Simulation) (i : Nat) (f0 : Frame) :
    Prop where
  keyed : ∀ key target ret, s.code.getD i default = .gosub key target ret →
    ∀ st ∈ s.sites, st.key = key → st.ret = ret
  transfers : (∀ dflt, s.code.getD i default ≠ .dispatch dflt) →
    ∃ t, transfer (s.code.getD i default) f0 = .ok t ∧ s.Leaves static i t
  returns : ∀ dflt, s.code.getD i default = .dispatch dflt → s.Returns' static dflt f0

theorem siteOf_ne_error {instr : Instr}
    (keyed : ∀ key target ret, instr = .gosub key target ret →
      ∀ st ∈ s.sites, st.key = key → st.ret = ret) :
    (siteOf instr f0).run s ≠ .error e := by
  intro h
  cases instr
  case gosub key target ret =>
    simp only [siteOf, addSite, StateT.run_bind, StateT.run_get, pure_bind] at h
    split at h
    · rename_i st found
      split at h
      · rename_i differ
        have hkey := List.find?_some found
        simp only [beq_iff_eq] at hkey
        have same := keyed key target ret rfl st (List.mem_of_find?_eq_some found) hkey
        simp [same] at differ
      · simp at h
    · simp at h
  all_goals simp [siteOf] at h

theorem noteStore_ne_error {instr : Instr} : (noteStore instr).run s ≠ .error e := by
  unfold noteStore
  split <;> simp

/-- The step lemma for failures: a step that its frame fits fails only as expected. -/
theorem stepAt_expected (sized : s.incoming.size = s.code.size) (fitted : s.Fitted static)
    (steps : s.Steps static i f0) (h : (stepAt i f0).run s = .error e) : e.Expected := by
  simp only [stepAt] at h
  rcases StateT.run_bind_eq_error.mp h with read | ⟨s₀, s₀', read, rest₀⟩
  · simp at read
  simp only [StateT.run_get, Except.pure_eq_ok, Except.ok.injEq, Prod.mk.injEq] at read
  obtain ⟨rfl, rfl⟩ := read
  rcases StateT.run_bind_eq_error.mp rest₀ with depth | ⟨_, s₁, depth, rest⟩
  · simp at depth
  have grows₁ := noteDepth_grows depth
  have fitted₁ := fitted.of_incoming (noteDepth_incoming depth)
  split at rest
  · rename_i dflt hdispatch
    exact dispatchAt_expected (grows₁.sized sized) fitted₁
      ((steps.returns dflt hdispatch).congr grows₁.code grows₁.labels grows₁.sites) rest
  rename_i other
  obtain ⟨t, ht, leaves⟩ := steps.transfers other
  rcases StateT.run_bind_eq_error.mp rest with site | ⟨_, s₂, site, rest₂⟩
  · refine absurd site (siteOf_ne_error ?_)
    rw [grows₁.sites]
    exact steps.keyed
  obtain ⟨stepped₂, -⟩ := siteOf_stepped (i := i) site
  rcases StateT.run_bind_eq_error.mp rest₂ with lifted | ⟨t', s₃, lifted, rest₃⟩
  · rw [ht] at lifted
    simp [lift] at lifted
  obtain ⟨ht', same⟩ := lift_run_ok lifted
  subst s₃
  rw [ht, Except.ok.injEq] at ht'
  subst ht'
  rcases StateT.run_bind_eq_error.mp rest₃ with store | ⟨_, s₄, store, rest₄⟩
  · exact absurd store noteStore_ne_error
  have grows₄ := noteStore_grows store
  have code₄ : s₄.code = s.code := by rw [grows₄.code, stepped₂.code, grows₁.code]
  have labels₄ : s₄.labels = s.labels := by rw [grows₄.labels, stepped₂.labels, grows₁.labels]
  refine follow_expected ?_ ?_ (leaves.congr code₄ labels₄) rest₄
  · rw [grows₄.size, stepped₂.size, grows₁.size, code₄, sized]
  · exact fitted₁.of_incoming (by rw [noteStore_incoming store, siteOf_incoming site])

/-- The step lemma for frames: after a step that its frame fits, every frame still fits. -/
theorem stepAt_fitted (sized : s.incoming.size = s.code.size) (fitted : s.Fitted static)
    (steps : s.Steps static i f0) (h : (stepAt i f0).run s = .ok ((), s')) :
    s'.Fitted static := by
  refine (stepAt_adds sized h).fitted fitted ?_
  intro j g brings
  unfold StepBrings at brings
  split at brings
  · rename_i dflt hdispatch
    exact (steps.returns dflt hdispatch).fits brings.1 brings.2
  · rename_i other
    obtain ⟨t, ht, rfl, reach⟩ := brings
    obtain ⟨t', ht', leaves⟩ := steps.transfers other
    rw [ht', Except.ok.injEq] at ht
    subst ht
    exact leaves.fits reach

end Step

end Fitted

/-! ## The simulation of certified code -/

/-- The run lemma for failures: `settle` fails only when it runs out of fuel or as a step
fails, and the steps of a run through states that `P` holds of fail only as `E` allows. -/
theorem settle_fails (P : Simulation → Prop) (E : StepError → Prop)
    (skip : ∀ s i rest, s.work = i :: rest → s.frameAt i = none → P s → P { s with work := rest })
    (step : ∀ s s' i rest f, s.work = i :: rest → s.frameAt i = some f → P s →
      (stepAt i f).run { s with work := rest } = .ok ((), s') → P s')
    (fails : ∀ s i rest f e, s.work = i :: rest → s.frameAt i = some f → P s →
      (stepAt i f).run { s with work := rest } = .error e → E e) :
    ∀ (fuel : Nat) {s : Simulation} {e : FlowError}, P s → settle fuel s = .error e →
      e = .unsettled ∨ (∃ l held got, e = .merge l held got ∧ E (.merge l held got)) ∨
        (∃ dflt, e = .unmatchedReturn dflt ∧ E (.unmatchedReturn dflt)) ∨
        ∃ i text p, e = .step i text p ∧ E (.problem p)
  | 0, _, _, _, h => .inl (Except.error.inj h).symm
  | fuel + 1, s, e, hp, h => by
    unfold settle at h
    split at h
    · cases h
    rename_i i rest work
    dsimp only at h
    split at h
    · rename_i unreached
      exact settle_fails P E skip step fails fuel (skip s i rest work unreached hp) h
    rename_i f reached
    split at h
    · rename_i s₁ stepped
      exact settle_fails P E skip step fails fuel (step s s₁ i rest f work reached hp stepped) h
    · rename_i l held got failed
      obtain rfl := (Except.error.inj h).symm
      exact .inr (.inl ⟨l, held, got, rfl, fails s i rest f _ work reached hp failed⟩)
    · rename_i dflt failed
      obtain rfl := (Except.error.inj h).symm
      exact .inr (.inr (.inl ⟨dflt, rfl, fails s i rest f _ work reached hp failed⟩))
    · rename_i p failed
      obtain rfl := (Except.error.inj h).symm
      exact .inr (.inr (.inr ⟨i, _, p, rfl, fails s i rest f _ work reached hp failed⟩))

/-- What certified code may fail to simulate with: frames of the same locals but different
depths meeting at an instruction, or a `dispatch` reached with no key. -/
def FlowError.Expected : FlowError → Prop
  | .merge _ held got =>
    ∃ f g : Frame, f.locals = g.locals ∧ f.depth ≠ g.depth ∧ held = f.text ∧ got = g.text
  | .unmatchedReturn _ => True
  | _ => False

namespace Certificate

variable {code : List Instr} {entry : Frame} (cert : Certificate code entry)

theorem ne_nil (cert : Certificate code entry) : code ≠ [] := by
  rintro rfl
  have := cert.checks
  simp at this

section Simulation

variable {s : Simulation} {labels : List (Label × Nat)}

/-- An instruction of the code, read from the simulation. -/
theorem getD_mem (hcode : s.code = code.toArray) {j : Nat} {instr : Instr}
    (h : s.code.getD j default = instr) (real : instr ≠ default) : instr ∈ code := by
  rw [hcode, Array.getD_eq_getD_getElem?, List.getElem?_toArray] at h
  cases hj : code[j]? with
  | none =>
    rw [hj, Option.getD_none] at h
    exact absurd h.symm real
  | some x =>
    rw [hj, Option.getD_some] at h
    subst h
    exact List.mem_of_getElem? hj

/-- A label that an instruction of the code names leads to the label's own static frame. -/
theorem lands (hcode : s.code = code.toArray) (hlabels : labelIndexes code = .ok s.labels)
    {instr : Instr} (mem : instr ∈ code) {l : Label} (named : l ∈ instr.labels) {g : Frame}
    (fits : (cert.labelFrame l).fits g = true) : s.Lands cert.frameAt l g := by
  obtain ⟨j, hj⟩ := labelIndexes_defined hlabels (cert.placed instr mem l named)
  have placed := labelIndexes_lookup hlabels hj
  refine ⟨j, hj, ?_, ?_⟩
  · rw [hcode, List.size_toArray]
    exact (List.getElem?_eq_some_iff.mp placed).1
  · rw [cert.frameAt_label placed]
    exact fits

/-- A step of the simulation of certified code, from a frame that fits, asks only what
`Simulation.Steps` holds. -/
theorem steps (hcode : s.code = code.toArray) (hlabels : labelIndexes code = .ok s.labels)
    (sites : ∀ st ∈ s.sites, ∃ j target, s.code.getD j default = .gosub st.key target st.ret)
    {i : Nat} (inside : i < code.length) {f0 : Frame} (fits : (cert.frameAt i).fits f0 = true) :
    s.Steps cert.frameAt i f0 := by
  have read : s.code.getD i default = code[i] := by
    rw [hcode, Array.getD_eq_getD_getElem?, List.getElem?_toArray,
      List.getElem?_eq_getElem inside, Option.getD_some]
  obtain ⟨k, rfl⟩ := Frame.fits_iff.mp fits
  refine ⟨?_, ?_, ?_⟩
  · intro key target ret hi st hst same
    obtain ⟨j, target', hj⟩ := sites st hst
    rw [read] at hi
    have here : Instr.gosub key target ret ∈ code := hi ▸ List.getElem_mem inside
    have there := getD_mem hcode hj (by intro h; cases h)
    rw [same] at there
    exact (cert.keyed key target ret target' st.ret here there).symm
  · intro other
    rw [read] at other ⊢
    obtain ⟨t, ht, targets, -, next⟩ := cert.transfers inside other
    refine ⟨⟨t.frame.under _, t.targets, t.next⟩, transfer_under _ ht, ?_, ?_⟩
    · intro l hl
      exact cert.lands hcode hlabels (List.getElem_mem inside) (transfer_targets ht l hl)
        (Frame.fits_under (targets l hl) k)
    · intro goesOn
      simp only at goesOn
      rw [goesOn, if_pos rfl] at next
      refine ⟨?_, Frame.fits_under (cert.fits_stateAt next) k⟩
      rw [hcode, List.size_toArray]
      exact cert.lt_length_of_stateAt next
  · intro dflt hi nonempty
    rw [read] at hi
    have here : code[i]? = some (.dispatch dflt) := by rw [List.getElem?_eq_getElem inside, hi]
    obtain ⟨base, dfltBase⟩ := cert.dispatches here
    rw [base] at nonempty ⊢
    obtain ⟨k', rfl⟩ : ∃ k', k = k' + 1 := by
      cases k with
      | zero => simp [Frame.under, cert.baseStack] at nonempty
      | succ k' => exact ⟨k', rfl⟩
    refine ⟨cert.base.under (List.replicate k' .int), ?_, ?_, ?_⟩
    · simp [popN, popKind, pop, Frame.under, cert.baseStack, List.replicate_succ]
    · refine cert.lands hcode hlabels (hi ▸ List.getElem_mem inside) (by simp [Instr.labels]) ?_
      rw [dfltBase]
      exact Frame.fits_under (Frame.fits_refl _) k'
    · intro st hst
      obtain ⟨j, target, hj⟩ := sites st hst
      have there := getD_mem hcode hj (by intro h; cases h)
      refine cert.lands hcode hlabels there (by simp [Instr.labels]) ?_
      rw [cert.returns_base there]
      exact Frame.fits_under (Frame.fits_refl _) k'

end Simulation

end Certificate

/-- Certified code simulates, or fails only as expected: two frames with the same locals and
different numbers of keys meet, or a `dispatch` is reached with no key. -/
theorem simulate_certified {code : List Instr} {entry : Frame} (cert : Certificate code entry) :
    (∃ sim, simulate code entry = .ok sim) ∨ ∃ e, simulate code entry = .error e ∧ e.Expected := by
  obtain ⟨labels, hlabels⟩ := labelIndexes_ok cert.placedOnce
  obtain ⟨s₀, fuel, settles, inv₀, code₀, labels₀, frames₀⟩ :=
    simulate_eq_settle entry cert.ne_nil hlabels
  cases h : simulate code entry with
  | ok sim => exact .inl ⟨sim, rfl⟩
  | error e =>
    refine .inr ⟨e, rfl, ?_⟩
    have settled := simulate_ne_unsettled code entry
    rw [h] at settled
    rw [settles] at h
    -- along the run every frame fits its static frame, so a step fails only as expected
    let P : Simulation → Prop := fun s =>
      s.Invariant ∧ s.Fitted cert.frameAt ∧ s.code = code.toArray ∧ s.labels = labels
    have stepsOf : ∀ s, P s → ∀ i f, s.frameAt i = some f → ∀ rest : List Nat,
        ({ s with work := rest } : Simulation).Steps cert.frameAt i f := by
      rintro s ⟨inv, fitted, hcode, hlabels'⟩ i f reached rest
      have inside : i < code.length := by
        have lt : i < s.incoming.size := by
          by_contra outside
          simp [Simulation.frameAt, Array.getD_eq_getD_getElem?, Nat.le_of_not_lt outside] at reached
        rw [inv.sized, hcode, List.size_toArray] at lt
        exact lt
      exact cert.steps (s := { s with work := rest }) hcode (hlabels'.symm ▸ hlabels)
        (fun st hst => (inv.sites st hst).imp fun _ => Exists.imp fun _ placed => placed.1)
        inside (fitted i f reached)
    have start : P s₀ := by
      refine ⟨inv₀, ?_, code₀, labels₀⟩
      intro j g hj
      rw [frames₀ j] at hj
      split at hj
      · rename_i zero
        subst zero
        obtain rfl := Option.some.inj hj
        exact cert.fits_stateAt cert.stateAt_zero
      · cases hj
    have outcome := settle_fails P StepError.Expected
      (fun s i rest work unreached hp => ⟨hp.1.skip work unreached, hp.2⟩)
      (fun s s' i rest f work reached hp stepped => by
        obtain ⟨inv', code', labels', -⟩ := hp.1.step work reached stepped
        exact ⟨inv', stepAt_fitted (s := { s with work := rest }) hp.1.sized hp.2.1
          (stepsOf s hp i f reached rest) stepped, code'.trans hp.2.2.1, labels'.trans hp.2.2.2⟩)
      (fun s i rest f e work reached hp failed =>
        stepAt_expected (s := { s with work := rest }) hp.1.sized hp.2.1
          (stepsOf s hp i f reached rest) failed)
      fuel start h
    rcases outcome with rfl | ⟨l, held, got, rfl, expected⟩ | ⟨dflt, rfl, -⟩ | ⟨i, text, p, rfl, no⟩
    · exact absurd rfl settled
    · exact expected
    · trivial
    · exact no.elim

end BasicJvm.Bytecode
