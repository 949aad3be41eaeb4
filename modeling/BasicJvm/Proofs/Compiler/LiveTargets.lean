import Mathlib
import BasicJvm.Compiler.Emit
import BasicJvm.Proofs.Except

/-!
# The lines a compiled program jumps to

The code generator gives a line its branch label the first time a jump refers to it, and marks
the line as referenced; the second pass places the labels of the referenced lines only.
`generate_liveTargets` says which lines those are: the live targets of a compiled program are
the labels of the lines that a `GOTO`, `GOSUB` or `ON ... GOTO` names, or that an `IF` skips
to, in line order (`Program.jumpedTo`), and the second pass places a line's label exactly for
these lines.

An `IF` skips to `Program.lineAfter`: the first line with a larger number, except on the line
numbered `2 ^ 63 - 1`, where the search wraps around to the least number and finds the first
line, even when the `IF` is on the last line.

The proof follows the generator.  `Symbols.Marked js s s'` says that the line index `s'` is `s`
with the lines at the positions `js` marked.  `Keeps` is a step that marks no line, which is
every step but the jumps, and `Marking p n js` a step on the line numbered `n` that marks the
lines at `js`.  `genStmt_marking` is the step lemma, one case per statement, and
`genProgram_marks` carries it over the lines of the program.
-/

namespace BasicJvm.Syntax

/-! ## The lines a program jumps to -/

/-- The position of the first line numbered `n`. -/
def Program.lineAt (p : Program) (n : Nat) : Option Nat :=
  p.lines.findIdx? (·.number == n)

/-- The position of the line after the one numbered `m`: the first line with a larger number.
Line numbers are signed 64-bit numbers, and after the largest, `2 ^ 63 - 1`, the search starts
again from the least one, so it finds the first line. -/
def Program.lineAfter (p : Program) (m : Nat) : Option Nat :=
  if m = 2 ^ 63 - 1 then (if p.lines = [] then none else some 0)
  else p.lines.findIdx? (m < ·.number)

/-- The line a jump names: the first line with the number of its label. -/
def Program.target (p : Program) (t : String) : Option Nat :=
  (decimalValue? t).bind p.lineAt

/-- The lines a statement on the line numbered `m` jumps to: the targets of its `GOTO`, `GOSUB`
and `ON ... GOTO`, and for an `IF` the line after, where a false condition goes on. -/
def Program.jumpsOf (p : Program) (m : Nat) : Stmt → List Nat
  | .goto t | .gosub t => (p.target t).toList
  | .onGoto _ ts => ts.filterMap p.target
  | .ifThen _ body => (p.lineAfter m).toList ++ p.jumpsOf m body
  | _ => []

/-- The lines some statement of the program jumps to. -/
def Program.jumpedTo (p : Program) : List Nat :=
  p.lines.flatMap fun l => l.stmts.flatMap (p.jumpsOf l.number)

end BasicJvm.Syntax

namespace BasicJvm.Compiler

open BasicJvm.Syntax

/-! ## Marking lines of the index -/

/-- What the line index records of a line, its branch label aside. -/
def LineEntry.view (e : LineEntry) : Nat × String × Bool := (e.number, e.label, e.referenced)

/-- `s'` has the lines of `s`, each referenced when it was in `s` or its position is in `js`. -/
def Symbols.Marked (js : List Nat) (s s' : Symbols) : Prop :=
  ∀ i, (s'.lines[i]?).map LineEntry.view =
    (s.lines[i]?).map fun e => (e.number, e.label, e.referenced || decide (i ∈ js))

namespace Symbols.Marked

variable {js js' : List Nat} {s s' s'' : Symbols}

theorem of_lines (h : s'.lines = s.lines) : s.Marked [] s' := by
  intro i
  rw [h]
  cases s.lines[i]? <;> simp [LineEntry.view]

theorem trans (h : s.Marked js s') (h' : s'.Marked js' s'') : s.Marked (js ++ js') s'' := by
  intro i
  have step := h' i
  have first := h i
  -- the second marking reads the first one's lines through their views
  have through :
      (s'.lines[i]?).map (fun e => (e.number, e.label, e.referenced || decide (i ∈ js'))) =
        ((s'.lines[i]?).map LineEntry.view).map
          fun v => (v.1, v.2.1, v.2.2 || decide (i ∈ js')) := by
    cases s'.lines[i]? <;> rfl
  rw [step, through, first]
  cases s.lines[i]? <;> simp [Bool.or_assoc]

/-- A marking is about the lines of the index alone, on either side. -/
theorem of_target (h : s.Marked js s') (e : s''.lines = s'.lines) : s.Marked js s'' := by
  intro i
  rw [e]
  exact h i

theorem of_source (h : s'.Marked js s'') (e : s'.lines = s.lines) : s.Marked js s'' := by
  intro i
  rw [← e]
  exact h i

/-- A marking keeps the numbers of the lines. -/
theorem numbers (h : s.Marked js s') :
    s'.lines.toList.map (·.number) = s.lines.toList.map (·.number) := by
  apply List.ext_getElem?
  intro i
  have := congrArg (Option.map Prod.fst) (h i)
  simpa [LineEntry.view, Option.map_map, Function.comp_def] using this

end Symbols.Marked

/-- The line index of `s` lists the lines of `p`, by number. -/
def Symbols.Tracks (p : Program) (s : Symbols) : Prop :=
  s.lines.toList.map (·.number) = p.lines.map Line.number

theorem Symbols.tracks_ofProgram (p : Program) : (Symbols.ofProgram p).Tracks p := by
  simp [Symbols.Tracks, Symbols.ofProgram, Symbols.newLabel, Function.comp_def]

namespace Symbols.Tracks

variable {p : Program} {js : List Nat} {s s' : Symbols}

theorem of_lines_eq (h : s.Tracks p) (e : s'.lines = s.lines) : s'.Tracks p := by
  unfold Symbols.Tracks at *
  rw [e, h]

theorem of_marked (h : s.Tracks p) (m : s.Marked js s') : s'.Tracks p := by
  unfold Symbols.Tracks at *
  rw [m.numbers, h]

/-- A search of the line index by number is a search of the program's lines. -/
theorem findIdx? (h : s.Tracks p) (q : Nat → Bool) :
    s.lines.findIdx? (fun e => q e.number) = p.lines.findIdx? (fun l => q l.number) := by
  have array : s.lines = s.lines.toList.toArray := by simp
  rw [array, List.findIdx?_toArray]
  have := congrArg (List.findIdx? q) h
  simpa [List.findIdx?_map, Function.comp_def] using this

theorem lineIndex (h : s.Tracks p) (n : Nat) : s.lineIndex n = p.lineAt n :=
  h.findIdx? (· == n)

/-- The search for the line after the line numbered `m`, with its wrap at the largest number. -/
theorem nextIndex (h : s.Tracks p) (m : Nat) :
    s.lines.findIdx? (fun e => (m + 1 == 2 ^ 63) || m < e.number) = p.lineAfter m := by
  rw [h.findIdx? fun n => (m + 1 == 2 ^ 63) || m < n]
  unfold Program.lineAfter
  by_cases top : m = 2 ^ 63 - 1
  · have wraps : (m + 1 == 2 ^ 63) = true := by simp; omega
    simp only [wraps, Bool.true_or, if_pos top]
    cases p.lines <;> simp [List.findIdx?_cons]
  · have wraps : (m + 1 == 2 ^ 63) = false := by simp; omega
    simp only [wraps, Bool.false_or, if_neg top]

end Symbols.Tracks

/-- Referring to the line at a position marks it and keeps the rest of the index. -/
theorem Symbols.reference_marked (s : Symbols) {i : Nat} (hi : i < s.lines.size) :
    s.Marked [i] (s.reference i).1 := by
  obtain ⟨t, set⟩ : ∃ t, (s.reference i).1.lines =
      s.lines.set! i { s.lines.getD i default with target := t, referenced := true } :=
    have keep : ∀ (c : Bool) l t,
        (if c = true then s.newLabel l else (s, t)).1.lines = s.lines := by
      intro c l t
      split <;> rfl
    ⟨_, by unfold Symbols.reference; dsimp only; rw [keep]⟩
  intro j
  rw [set, Array.set!_eq_setIfInBounds, Array.getElem?_setIfInBounds]
  by_cases here : i = j
  · subst here
    simp [hi, LineEntry.view, Array.getD_eq_getD_getElem?]
  · simp only [here, if_false, List.mem_singleton, Ne.symm here, decide_false, Bool.or_false]
    rfl

section Jumps

variable {p : Program} {s s' : Symbols}

/-- A jump's lookup marks the line the jump names. -/
theorem Symbols.lineTarget_marked (tracks : s.Tracks p) {label : String} {l : Bytecode.Label}
    (h : s.lineTarget label = some (s', l)) : s.Marked (p.target label).toList s' := by
  unfold Symbols.lineTarget at h
  split at h
  · simp at h
  · rename_i n number
    obtain ⟨i, found, made⟩ := Option.map_eq_some_iff.mp h
    obtain ⟨bound, -⟩ := Array.findIdx?_eq_some_iff_getElem.mp found
    have : p.target label = some i := by
      rw [Program.target, number, Option.bind_some, ← tracks.lineIndex, found]
    rw [this, show s' = (s.reference i).1 by rw [made]]
    exact s.reference_marked bound

/-- The search for the line after the one numbered `m` marks that line, if there is one. -/
theorem Symbols.nextLineTarget_marked (tracks : s.Tracks p) (m : Nat) :
    s.Marked (p.lineAfter m).toList (s.nextLineTarget m).1 := by
  rw [← tracks.nextIndex m]
  unfold Symbols.nextLineTarget
  dsimp only
  split
  · rename_i i found
    obtain ⟨bound, -⟩ := Array.findIdx?_eq_some_iff_getElem.mp found
    rw [found]
    exact s.reference_marked bound
  · rename_i missing
    rw [missing]
    exact Symbols.Marked.of_lines rfl

end Jumps

/-! ## Updates of the symbol table that keep its lines -/

section Lines

variable {s s' : Symbols}

@[simp] theorem Symbols.allocate_lines (key : String) (t : ValueType) (array : Option ArrayDim)
    (hidden : Bool) : (s.allocate key t array hidden).1.lines = s.lines := by
  unfold Symbols.allocate
  split <;> rfl

@[simp] theorem Symbols.arraySlot_lines (name : String) : (s.arraySlot name).1.lines = s.lines :=
  Symbols.allocate_lines ..

theorem Symbols.useArray_lines {d : ArrayDim} {line : String} (h : s.useArray d line = .ok s') :
    s'.lines = s.lines := by
  unfold Symbols.useArray at h
  dsimp only at h
  split at h
  · rw [← Except.ok.inj h]
  · split at h
    · split at h <;> nomatch h
    · rw [← Except.ok.inj h]

theorem Symbols.declareArray_lines {d : ArrayDim} {line : String}
    (h : s.declareArray d line = .ok s') : s'.lines = s.lines := by
  unfold Symbols.declareArray at h
  dsimp only at h
  split at h
  · rw [← Except.ok.inj h]
  · split at h
    · nomatch h
    · split at h
      · nomatch h
      · rw [← Except.ok.inj h]

theorem Symbols.popLoop_lines {v : String} {loop : OpenLoop}
    (h : s.popLoop v = .ok (s', loop)) : s'.lines = s.lines := by
  unfold Symbols.popLoop at h
  dsimp only at h
  split at h
  · nomatch h
  · split at h
    · nomatch h
    · rw [← (Prod.mk.inj (Except.ok.inj h)).1]

end Lines

/-! ## Steps that mark no line -/

/-- A step of code generation that, whenever it succeeds, stays on its line and keeps the line
index as it was. -/
def Keeps {α : Type} (m : GenM α) : Prop :=
  ∀ ⦃g a g'⦄, m.run g = .ok (a, g') → g'.line = g.line ∧ g'.syms.lines = g.syms.lines

namespace Keeps

variable {α β : Type}

@[simp] theorem pure (a : α) : Keeps (Pure.pure a : GenM α) := by
  intro g b g' h
  simp only [StateT.run_pure_except, Except.ok.injEq, Prod.mk.injEq] at h
  rw [← h.2]
  exact ⟨rfl, rfl⟩

@[simp] theorem bind {x : GenM α} {f : α → GenM β} (hx : Keeps x) (hf : ∀ a, Keeps (f a)) :
    Keeps (x >>= f) := by
  intro g b g'' h
  obtain ⟨a, g', first, rest⟩ := StateT.run_bind_eq_ok.mp h
  obtain ⟨line, lines⟩ := hx first
  obtain ⟨line', lines'⟩ := hf a rest
  exact ⟨line'.trans line, lines'.trans lines⟩

@[simp] theorem ite {c : Prop} [Decidable c] {x y : GenM α} (hx : Keeps x) (hy : Keeps y) :
    Keeps (if c then x else y) := by
  split <;> assumption

theorem of_modify {f : Gen → Gen}
    (hf : ∀ g, (f g).line = g.line ∧ (f g).syms.lines = g.syms.lines) :
    Keeps (modify f : GenM Unit) := by
  intro g a g' h
  simp only [StateT.run_modify, Except.pure_eq_ok, Except.ok.injEq, Prod.mk.injEq] at h
  rw [← h.2]
  exact hf g

@[simp] theorem of_get : Keeps (get : GenM Gen) := by
  intro g a g' h
  simp only [StateT.run_get, Except.pure_eq_ok, Except.ok.injEq, Prod.mk.injEq] at h
  rw [← h.2]
  exact ⟨rfl, rfl⟩

theorem run_get_bind {f : Gen → GenM α} (g : Gen) : (get >>= f).run g = (f g).run g := rfl

/-- A step that reads the state first keeps the lines when, run from the state it read, it
does. -/
theorem of_get_bind {f : Gen → GenM α}
    (hf : ∀ g ⦃a g'⦄, (f g).run g = .ok (a, g') →
      g'.line = g.line ∧ g'.syms.lines = g.syms.lines) :
    Keeps (get >>= f) :=
  fun g _ _ h => hf g (run_get_bind g ▸ h)

theorem withSyms_run {f : Symbols → Symbols × α} (g : Gen) :
    (withSyms f).run g = .ok ((f g.syms).2, { g with syms := (f g.syms).1 }) := rfl

theorem of_withSyms {f : Symbols → Symbols × α} (hf : ∀ s, (f s).1.lines = s.lines) :
    Keeps (withSyms f) := by
  intro g a g' h
  rw [withSyms_run, Except.ok.injEq, Prod.mk.injEq] at h
  rw [← h.2]
  exact ⟨rfl, hf g.syms⟩

@[simp] theorem forM {xs : List β} {f : β → GenM PUnit} (hf : ∀ x, Keeps (f x)) :
    Keeps (ForM.forM xs f) := by
  induction xs with
  | nil => exact pure _
  | cons x xs ih => exact bind (hf x) fun _ => ih

@[simp] theorem forIn {γ : Type} {xs : List β} {b : γ} {f : β → γ → GenM (ForInStep γ)}
    (hf : ∀ x c, Keeps (f x c)) : Keeps (forIn xs b f) := by
  induction xs generalizing b with
  | nil => exact pure _
  | cons x xs ih =>
    rw [List.forIn_cons]
    refine bind (hf x b) fun r => ?_
    cases r with
    | done c => exact pure _
    | yield c => exact ih

/-- Writing a symbol table, then a step that keeps the lines, leaves the written table's
lines. -/
theorem setSyms_bind {k : PUnit → GenM α} (hk : ∀ u, Keeps (k u)) {syms : Symbols} {g : Gen}
    {a : α} {g' : Gen} (h : (modify (fun g : Gen => { g with syms }) >>= k).run g = .ok (a, g')) :
    g'.line = g.line ∧ g'.syms.lines = syms.lines := by
  obtain ⟨u, g₁, set, rest⟩ := StateT.run_bind_eq_ok.mp h
  simp only [StateT.run_modify, Except.pure_eq_ok, Except.ok.injEq, Prod.mk.injEq] at set
  rw [← set.2] at rest
  exact hk u rest

end Keeps

section Steps

variable {α : Type}

@[simp] theorem emit_keeps (i : Intent) : Keeps (emit i) :=
  .of_modify fun _ => ⟨rfl, rfl⟩

@[simp] theorem emitOp_keeps (op : Bytecode.Opcode) : Keeps (emitOp op) := emit_keeps _

@[simp] theorem push_keeps (v : Bytecode.Literal) : Keeps (push v) := emit_keeps _

@[simp] theorem this_keeps : Keeps this := emit_keeps _

@[simp] theorem callRuntime_keeps (name desc : String) : Keeps (callRuntime name desc) :=
  emit_keeps _

@[simp] theorem printConst_keeps (s : String) : Keeps (printConst s) := by
  simp [printConst]

@[simp] theorem currentLabel_keeps : Keeps currentLabel :=
  .bind .of_get fun _ => .pure _

@[simp] theorem currentNumber_keeps : Keeps currentNumber :=
  .bind .of_get fun _ => .pure _

theorem failHere_run (problem : GenProblem) (g : Gen) :
    (failHere problem : GenM α).run g = .error ⟨(g.line.map Prod.fst).getD "", problem⟩ := rfl

/-- A failure keeps everything: it never succeeds. -/
@[simp] theorem failHere_keeps (problem : GenProblem) : Keeps (failHere problem : GenM α) := by
  intro g a g' h
  rw [failHere_run] at h
  nomatch h

@[simp] theorem newLabel_keeps : Keeps newLabel :=
  .bind currentLabel_keeps fun _ => .of_withSyms fun _ => rfl

@[simp] theorem scalarSlot_keeps (name : String) : Keeps (scalarSlot name) :=
  .of_withSyms fun _ => Symbols.allocate_lines ..

@[simp] theorem allocate_keeps (key : String) (t : ValueType) (array : Option ArrayDim)
    (hidden : Bool) : Keeps (withSyms (·.allocate key t array hidden)) :=
  .of_withSyms fun _ => Symbols.allocate_lines ..

@[simp] theorem arraySlot_keeps (name : String) : Keeps (withSyms (·.arraySlot name)) :=
  .of_withSyms fun _ => Symbols.arraySlot_lines _

@[simp] theorem pushLoop_keeps (v : String) (body : Bytecode.Label) (line : String) :
    Keeps (withSyms (·.pushLoop v body line)) :=
  .of_withSyms fun _ => rfl

@[simp] theorem nextReturnSite_keeps : Keeps (withSyms (·.nextReturnSite)) :=
  .of_withSyms fun _ => rfl

@[simp] theorem loadArray_keeps (name : String) (dims : Nat) : Keeps (loadArray name dims) := by
  have load : ∀ u : Unit, Keeps ((withSyms (·.arraySlot name)) >>= fun slot =>
      emit (.var .aload slot.index)) := fun _ =>
    .bind (arraySlot_keeps _) fun _ => emit_keeps _
  refine .bind currentLabel_keeps fun line => .of_get_bind fun g a g' h => ?_
  dsimp only at h
  split at h
  · rename_i syms used
    exact (Keeps.setSyms_bind load h).imp id fun lines => lines.trans (Symbols.useArray_lines used)
  · exact (Keeps.bind (failHere_keeps _) load) h

mutual

@[simp] theorem genExpr_keeps : ∀ e : Expr, Keeps (genExpr e)
  | .number _ | .text _ | .ref _ [] => by
    rw [genExpr]
    simp
  | .ref name (i :: is) => by
    have indexes := genIndexes_keeps (i :: is)
    rw [genExpr]
    simp [indexes]
  | .neg x => by
    have := genExpr_keeps x
    rw [genExpr]
    simp [this]
  | .binary op l r => by
    have := genExpr_keeps l
    have := genExpr_keeps r
    rw [genExpr]
    dsimp only
    -- both shapes of code are runs of the steps above around the two operands
    repeat' (first | assumption | (with_reducible refine .bind ?_ fun _ => ?_) | split | simp)
  | .call f args => by
    have := genExprs_keeps args
    rw [genExpr]
    repeat' (first | assumption | (with_reducible refine .bind ?_ fun _ => ?_) | split | simp)

@[simp] theorem genExprs_keeps : ∀ es : List Expr, Keeps (genExprs es)
  | [] => by
    rw [genExprs]
    simp
  | e :: es => by
    have := genExpr_keeps e
    have := genExprs_keeps es
    rw [genExprs]
    simp [*]

@[simp] theorem genIndexes_keeps : ∀ es : List Expr, Keeps (genIndexes es)
  | [] => by
    rw [genIndexes]
    simp
  | [e] => by
    have := genExpr_keeps e
    rw [genIndexes]
    repeat' (first | assumption | (with_reducible refine .bind ?_ fun _ => ?_) | split | simp)
  | e :: e' :: es => by
    have := genExpr_keeps e
    have := genIndexes_keeps (e' :: es)
    rw [genIndexes]
    repeat' (first | assumption | (with_reducible refine .bind ?_ fun _ => ?_) | split | simp)

end

@[simp] theorem store_keeps (v : Variable) {value : GenM Unit} (hv : Keeps value) :
    Keeps (store v value) := by
  unfold store
  repeat' (first | assumption | (with_reducible refine .bind ?_ fun _ => ?_) | split | simp)

theorem genPrint_keeps (items : List PrintItem) : Keeps (genPrint items) := by
  unfold genPrint
  refine .bind (.forIn fun item _ => ?_) fun _ => ?_
  · cases item <;> repeat' (first | (with_reducible refine .bind ?_ fun _ => ?_) | simp)
  · split <;> simp

theorem genFor_keeps (var : String) (start limit : Expr) (step : Option Expr) :
    Keeps (genFor var start limit step) := by
  unfold genFor
  repeat' (first | (with_reducible refine .bind ?_ fun _ => ?_) | split | simp)

theorem genNextOne_keeps (name : String) : Keeps (genNextOne name) := by
  unfold genNextOne
  refine .of_get_bind fun g a g' h => ?_
  dsimp only at h
  split at h
  · rename_i syms loop closed
    refine (Keeps.setSyms_bind (fun _ => ?_) h).imp id fun lines =>
      lines.trans (Symbols.popLoop_lines closed)
    repeat' (first | (with_reducible refine .bind ?_ fun _ => ?_) | simp)
  · refine (Keeps.bind (failHere_keeps _) fun _ => ?_) h
    repeat' (first | (with_reducible refine .bind ?_ fun _ => ?_) | simp)

theorem genStmt_dim_keeps (arrays : List ArrayDecl) : Keeps (genStmt (.dim arrays)) := by
  rw [genStmt]
  refine .forM fun a => .bind currentLabel_keeps fun line => .of_get_bind fun g _ _ h => ?_
  dsimp only at h
  -- what follows the declaration: the array's slot, its sizes and its creation
  have made : ∀ u : Unit, Keeps (do
      let slot ← withSyms (·.arraySlot a.name)
      a.sizes.forM fun size => do
        genExpr size
        emitOp .f2i
      emit (.newArray slot.descriptor a.sizes.length)
      emit (.var .astore slot.index)) := by
    intro _
    repeat' (first | (with_reducible refine .bind ?_ fun _ => ?_) | simp)
  split at h
  · rename_i syms declared
    exact (Keeps.setSyms_bind made h).imp id fun lines =>
      lines.trans (Symbols.declareArray_lines declared)
  · exact (Keeps.bind (failHere_keeps _) made) h

theorem genPrologue_keeps (size : Int) : Keeps (genPrologue size) := by
  unfold genPrologue
  refine .bind .of_get fun g => ?_
  dsimp only
  repeat' (first | (with_reducible refine .bind ?_ fun _ => ?_)
                 | (with_reducible refine .forIn fun _ _ => ?_) | split | simp)

end Steps

/-! ## Steps that mark lines -/

/-- From a state whose line index lists the lines of `p`, on the line numbered `n`, every
successful run of `m` stays on its line and marks the lines at `js`. -/
def Marking {α : Type} (p : Program) (n : Nat) (js : List Nat) (m : GenM α) : Prop :=
  ∀ ⦃g a g'⦄, g.syms.Tracks p → (g.line.map Prod.snd).getD 0 = n →
    m.run g = .ok (a, g') → g'.line = g.line ∧ g.syms.Marked js g'.syms

namespace Marking

variable {p : Program} {n : Nat} {js js' : List Nat} {α β : Type}

theorem of_keeps {m : GenM α} (h : Keeps m) : Marking p n [] m := fun _ _ _ _ _ run =>
  let ⟨line, lines⟩ := h run
  ⟨line, Symbols.Marked.of_lines lines⟩

theorem congr {m : GenM α} (h : Marking p n js m) (e : js = js') : Marking p n js' m :=
  e ▸ h

theorem bind {x : GenM α} {f : α → GenM β} (hx : Marking p n js x)
    (hf : ∀ a, Marking p n js' (f a)) : Marking p n (js ++ js') (x >>= f) := by
  intro g b g'' tracks number h
  obtain ⟨a, g', first, rest⟩ := StateT.run_bind_eq_ok.mp h
  obtain ⟨line, marked⟩ := hx tracks number first
  obtain ⟨line', marked'⟩ := hf a (tracks.of_marked marked) (by rw [line]; exact number) rest
  exact ⟨line'.trans line, marked.trans marked'⟩

/-- The number a step reads is the number of the line it is on. -/
theorem currentNumber_bind {f : Nat → GenM α} (hf : Marking p n js (f n)) :
    Marking p n js (currentNumber >>= f) := by
  intro g a g' tracks number h
  obtain ⟨m, g₁, read, rest⟩ := StateT.run_bind_eq_ok.mp h
  have run : currentNumber.run g = .ok ((g.line.map Prod.snd).getD 0, g) := rfl
  rw [run, number, Except.ok.injEq, Prod.mk.injEq] at read
  rw [← read.1, ← read.2] at rest
  exact hf tracks number rest

end Marking

/-- A jump to a line marks the line it names. -/
theorem lineTarget_marking {p : Program} {n : Nat} (label : String) :
    Marking p n (p.target label).toList (lineTarget label) := by
  intro g l g' tracks _ h
  unfold lineTarget at h
  rw [Keeps.run_get_bind] at h
  split at h
  · rename_i syms l' found
    obtain ⟨line, lines⟩ := Keeps.setSyms_bind (fun _ => Keeps.pure l') h
    exact ⟨line, (Symbols.lineTarget_marked tracks found).of_target lines⟩
  · rw [failHere_run] at h
    nomatch h

/-- The jumps of an `ON ... GOTO` mark the lines they name, in order. -/
theorem mapM_lineTarget_marking {p : Program} {n : Nat} :
    ∀ ts : List String, Marking p n (ts.filterMap p.target) (ts.mapM lineTarget)
  | [] => .of_keeps (.pure _)
  | t :: ts => by
    rw [List.mapM_cons]
    refine ((lineTarget_marking t).bind fun _ => (mapM_lineTarget_marking ts).bind fun _ =>
      .of_keeps (.pure _)).congr ?_
    cases h : p.target t <;> simp [h]

/-- The skip of an `IF` marks the line after the one it is on. -/
theorem nextLineTarget_marking {p : Program} (n : Nat) :
    Marking p n (p.lineAfter n).toList (withSyms (·.nextLineTarget n)) := by
  intro g l g' tracks _ h
  rw [Keeps.withSyms_run, Except.ok.injEq, Prod.mk.injEq] at h
  rw [← h.2]
  exact ⟨rfl, Symbols.nextLineTarget_marked tracks n⟩

/-- Compiling a statement on the line numbered `n` marks the lines it jumps to, and only
those. -/
theorem genStmt_marking (p : Program) : ∀ (st : Stmt) (n : Nat),
    Marking p n (p.jumpsOf n st) (genStmt st)
  | .goto t, _ => by
    rw [genStmt]
    exact ((lineTarget_marking t).bind fun _ => .of_keeps (emit_keeps _)).congr (List.append_nil _)
  | .gosub t, _ => by
    rw [genStmt]
    refine ((lineTarget_marking t).bind fun _ => .of_keeps ?_).congr (List.append_nil _)
    repeat' (first | (with_reducible refine .bind ?_ fun _ => ?_) | simp)
  | .onGoto e ts, _ => by
    rw [genStmt]
    refine (Marking.bind (.of_keeps (genExpr_keeps e)) fun _ => .bind (.of_keeps (emitOp_keeps _))
      fun _ => .bind (mapM_lineTarget_marking ts) fun _ => .of_keeps ?_).congr
        (by simp [Program.jumpsOf])
    repeat' (first | (with_reducible refine .bind ?_ fun _ => ?_) | simp)
  | .ifThen c body, n => by
    rw [genStmt]
    exact (Marking.bind (.of_keeps (genExpr_keeps c)) fun _ => .bind (.of_keeps (emitOp_keeps _))
      fun _ => .currentNumber_bind (.bind (nextLineTarget_marking n) fun _ =>
        .bind (.of_keeps (emit_keeps _)) fun _ => genStmt_marking p body n)).congr
          (by simp [Program.jumpsOf])
  | .print items, _ => .of_keeps (genPrint_keeps items)
  | .ret, _ => .of_keeps (by
    rw [genStmt]
    repeat' (first | (with_reducible refine .bind ?_ fun _ => ?_) | simp))
  | .assign v e, _ => .of_keeps (store_keeps v (genExpr_keeps e))
  | .dim arrays, _ => .of_keeps (genStmt_dim_keeps arrays)
  | .forLoop v start limit step, _ => .of_keeps (genFor_keeps v start limit step)
  | .next [], _ => .of_keeps (genNextOne_keeps "")
  | .next (v :: vs), _ => .of_keeps (by
    rw [genStmt]
    · exact .forM genNextOne_keeps
    · simp)
  | .input prompt targets, _ => .of_keeps (by
    rw [genStmt]
    repeat' (first | (with_reducible refine .bind ?_ fun _ => ?_) | split | simp)
    all_goals exact .forM fun v => store_keeps v (.bind this_keeps fun _ => callRuntime_keeps _ _))
  | .data values, _ =>
    .of_keeps (.bind currentNumber_keeps fun _ => .of_modify fun _ => ⟨rfl, rfl⟩)
  | .read targets, _ =>
    .of_keeps (.forM fun v => store_keeps v (.bind this_keeps fun _ => callRuntime_keeps _ _))
  | .restore t, _ => .of_keeps (.bind currentLabel_keeps fun _ => emit_keeps _)
  | .rem _, _ => .of_keeps (.pure _)
  | .finish, _ | .stop, _ => .of_keeps (emitOp_keeps _)

/-! ## The whole program -/

/-- Compiling the statements of the line numbered `n` marks the lines they jump to. -/
theorem forM_genStmt_marking (p : Program) (n : Nat) :
    ∀ sts : List Stmt, Marking p n (sts.flatMap (p.jumpsOf n)) (sts.forM genStmt)
  | [] => .of_keeps (.pure _)
  | st :: sts =>
    ((genStmt_marking p st n).bind fun _ => forM_genStmt_marking p n sts).congr (by simp)

/-- A loop over lines, each round of which goes on and marks the lines its line jumps to,
marks the lines all of them jump to. -/
theorem forIn_lines_marks {p : Program} {jumps : Line → List Nat}
    {body : Line → PUnit → GenM (ForInStep PUnit)}
    (step : ∀ l g r g', g.syms.Tracks p → (body l ⟨⟩).run g = .ok (r, g') →
      r = .yield ⟨⟩ ∧ g.syms.Marked (jumps l) g'.syms) :
    ∀ (ls : List Line) {g g' : Gen}, g.syms.Tracks p →
      (forIn ls ⟨⟩ body).run g = .ok (⟨⟩, g') → g.syms.Marked (ls.flatMap jumps) g'.syms
  | [], g, g', _, h => by
    rw [List.forIn_nil, StateT.run_pure_except, Except.ok.injEq, Prod.mk.injEq] at h
    rw [← h.2]
    exact Symbols.Marked.of_lines rfl
  | l :: ls, g, g', tracks, h => by
    rw [List.forIn_cons] at h
    obtain ⟨r, g₁, first, rest⟩ := StateT.run_bind_eq_ok.mp h
    obtain ⟨rfl, marked⟩ := step l g r g₁ tracks first
    exact marked.trans (forIn_lines_marks step ls (tracks.of_marked marked) rest)

/-- The body of a program marks the lines its statements jump to. -/
theorem genProgram_marks {p : Program} {g g' : Gen} (tracks : g.syms.Tracks p)
    (h : (genProgram p).run g = .ok (⟨⟩, g')) : g.syms.Marked p.jumpedTo g'.syms := by
  unfold genProgram at h
  obtain ⟨⟨⟩, g₁, loop, tail⟩ := StateT.run_bind_eq_ok.mp h
  refine (forIn_lines_marks (fun l g r g' tracks h => ?_) p.lines tracks loop).of_target ?_
  · -- one line: enter it, queue its start, compile its statements
    obtain ⟨⟨⟩, g₁, enter, h⟩ := StateT.run_bind_eq_ok.mp h
    rw [StateT.run_modify, Except.pure_eq_ok, Except.ok.injEq, Prod.mk.injEq] at enter
    obtain ⟨-, rfl⟩ := enter
    obtain ⟨⟨⟩, g₂, start, h⟩ := StateT.run_bind_eq_ok.mp h
    obtain ⟨line, lines⟩ := emit_keeps _ start
    dsimp only at line lines
    obtain ⟨⟨⟩, g₃, stmts, h⟩ := StateT.run_bind_eq_ok.mp h
    obtain ⟨-, marked⟩ := forM_genStmt_marking p l.number l.stmts (tracks.of_lines_eq lines)
      (by rw [line]; rfl) stmts
    rw [StateT.run_pure_except, Except.ok.injEq, Prod.mk.injEq] at h
    rw [← h.1, ← h.2]
    exact ⟨rfl, marked.of_source lines⟩
  · -- after the last line: leave it, queue the final label and `return`
    have run : (do
        modify fun g : Gen => { g with line := none }
        emit (.label endLabel)
        emitOp .returnVoid : GenM Unit).run g₁ =
          .ok (⟨⟩, { g₁ with
            line := none, out := (g₁.out.push (.label endLabel)).push (.op .returnVoid) }) :=
      rfl
    rw [run, Except.ok.injEq, Prod.mk.injEq] at tail
    rw [← tail.2]

/-- The symbol table of a compiled program has its line index marked at the lines the program
jumps to. -/
theorem generate_marks {p : Program} {opts : GenOptions} {plan : Plan} {record : Log.Record}
    (h : generate p opts = .ok (plan, record)) :
    (Symbols.ofProgram p).Marked p.jumpedTo plan.syms := by
  unfold generate at h
  obtain ⟨⟨⟨⟩, g⟩, body, h⟩ := Except.bind_eq_ok.mp h
  have marked := genProgram_marks (Symbols.tracks_ofProgram p) body
  dsimp only at h
  split at h
  · nomatch h
  · obtain ⟨⟨⟨⟩, g₂⟩, prologue, h⟩ := Except.bind_eq_ok.mp h
    obtain ⟨-, lines⟩ := genPrologue_keeps _ prologue
    rw [Except.pure_eq_ok, Except.ok.injEq, Prod.mk.injEq] at h
    rw [← h.1]
    exact marked.of_target lines

/-- What a marking of the initial line index of a program says of each line: its number, its
label, and whether its position is marked. -/
theorem Symbols.Marked.views_ofProgram {p : Program} {js : List Nat} {s : Symbols}
    (h : (Symbols.ofProgram p).Marked js s) :
    s.lines.toList.map LineEntry.view =
      p.lines.zipIdx.map fun x => (x.1.number, x.1.label, decide (x.2 ∈ js)) := by
  apply List.ext_getElem?
  intro i
  rw [List.getElem?_map, Array.getElem?_toList, h i, List.getElem?_map, List.getElem?_zipIdx]
  simp [Symbols.ofProgram, Symbols.newLabel, Option.map_map, Function.comp_def]

/-- The labels of the marked lines, in line order. -/
theorem Symbols.Marked.liveTargets_ofProgram {p : Program} {js : List Nat} {s : Symbols}
    (h : (Symbols.ofProgram p).Marked js s) :
    s.liveTargets = (p.lines.zipIdx.filter fun x => x.2 ∈ js).map (·.1.label) := by
  have views :
      s.liveTargets = ((s.lines.toList.map LineEntry.view).filter (·.2.2)).map (·.2.1) := by
    simp [Symbols.liveTargets, List.filter_map, Function.comp_def, LineEntry.view]
  rw [views, h.views_ofProgram]
  simp [List.filter_map, Function.comp_def]

/-- A line gets its label placed exactly when its position is marked. -/
theorem Symbols.Marked.placedTarget_ofProgram {p : Program} {js : List Nat} {s : Symbols}
    (h : (Symbols.ofProgram p).Marked js s) (name : String) :
    (s.placedTarget name).isSome ↔ ∃ i ∈ p.target name, i ∈ js := by
  have tracks := (Symbols.tracks_ofProgram p).of_marked h
  unfold Symbols.placedTarget Program.target
  cases hn : decimalValue? name with
  | none => simp
  | some n =>
    dsimp only
    rw [tracks.lineIndex n, Option.bind_some]
    cases hi : p.lineAt n with
    | none => simp
    | some i =>
      have bound : i < p.lines.length := (List.findIdx?_eq_some_iff_getElem.mp hi).1
      have view := congrArg (·[i]?) h.views_ofProgram
      simp only [List.getElem?_map, Array.getElem?_toList, List.getElem?_zipIdx,
        List.getElem?_eq_getElem bound, Option.map_some] at view
      obtain ⟨e, found, marked⟩ := Option.map_eq_some_iff.mp view
      have referenced : e.referenced = decide (i ∈ js) := by
        simpa [LineEntry.view] using congrArg (·.2.2) marked
      simp [Array.getD_eq_getD_getElem?, found, referenced]

/-- The live targets of a compiled program are the labels of the lines some `GOTO`, `GOSUB`,
`ON ... GOTO` or `IF` jumps to, in line order, and the second pass places a line's branch label
exactly when a jump names that line. -/
theorem generate_liveTargets {p : Program} {opts : GenOptions} {plan : Plan}
    {record : Log.Record} (h : generate p opts = .ok (plan, record)) :
    plan.syms.liveTargets = (p.lines.zipIdx.filter fun x => x.2 ∈ p.jumpedTo).map (·.1.label) ∧
      ∀ className name, (∃ l, plan.lowerIntent className (.line name) = .ok [.label l]) ↔
        ∃ i ∈ p.target name, i ∈ p.jumpedTo := by
  have marked := generate_marks h
  refine ⟨marked.liveTargets_ofProgram, fun className name => ?_⟩
  rw [← marked.placedTarget_ofProgram name, Plan.lowerIntent]
  cases plan.syms.placedTarget name <;> simp

/-- A program that jumps with each of `GOSUB`, `ON ... GOTO`, `IF ... THEN` and `GOTO`. -/
def jumpAround : Program :=
  ⟨[⟨"10", [.gosub "40"], 1⟩, ⟨"20", [.onGoto (.number ⟨0x3F800000⟩) ["30", "50"]], 2⟩,
    ⟨"30", [.ifThen (.number ⟨0x3F800000⟩) (.goto "50")], 3⟩, ⟨"40", [.ret], 4⟩,
    ⟨"50", [.finish], 5⟩]⟩

/-- A program whose last line, numbered `2 ^ 63 - 1`, holds an `IF`. -/
def lastLineIf : Program :=
  ⟨[⟨"10", [.print [.expr (.text "A")]], 1⟩,
    ⟨"9223372036854775807", [.ifThen (.number ⟨0x3F800000⟩) (.print [.expr (.text "B")])], 2⟩]⟩

/-- The targets of `GOSUB 40`, `ON 1 GOTO 30, 50` and `IF 1 THEN 50` are live, and so is line
40, after the `IF` on line 30; behind an `IF` on the line numbered `2 ^ 63 - 1` the search for
the next line wraps to the first line, which is live and gets its label placed. -/
theorem generate_liveTargets_jumps :
    (∃ plan record, generate jumpAround ⟨0⟩ = .ok (plan, record) ∧
      plan.syms.liveTargets = ["30", "40", "50"]) ∧
    (∃ plan record, generate lastLineIf ⟨0⟩ = .ok (plan, record) ∧
      plan.syms.liveTargets = ["10"] ∧
        ∃ l, plan.lowerIntent "Prog" (.line "10") = .ok [.label l]) := by
  constructor
  · obtain ⟨⟨plan, record⟩, h⟩ :=
      Except.exists_eq_ok_of_toBool (x := generate jumpAround ⟨0⟩) (by decide +kernel)
    refine ⟨plan, record, h, ?_⟩
    rw [(generate_liveTargets h).1]
    decide +kernel
  · obtain ⟨⟨plan, record⟩, h⟩ :=
      Except.exists_eq_ok_of_toBool (x := generate lastLineIf ⟨0⟩) (by decide +kernel)
    refine ⟨plan, record, h, ?_, (generate_liveTargets h).2 "Prog" "10" |>.mpr ⟨0, ?_, ?_⟩⟩
    · rw [(generate_liveTargets h).1]
      decide +kernel
    · decide +kernel
    · decide +kernel

end BasicJvm.Compiler
