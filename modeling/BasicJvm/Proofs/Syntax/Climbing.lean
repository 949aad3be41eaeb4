import BasicJvm.Proofs.Syntax.Stratified

/-!
# Precedence climbing is the stratified parser

`exprAbove_iff_stratified` is the equivalence of the two readings of an expression: given
enough fuel, precedence climbing returns an expression exactly when the stratified reading
derives a well-typed tree for it, and leaves the same state, so it has consumed the same
tokens; it fails exactly when every tree the stratified reading derives is ill-typed, in
particular when there is none.

There are four groups.

* The parser's small steps.  What a successful `combine`, `numberOf` and `expectToken` did,
  that a failure never succeeds, and that reading a real token leaves less to read.
* Soundness.  `Reads n` bundles one statement per function of the parser: a successful call
  with fuel `n` has read a derivation of the grammar whose tree type checks to the result.
  `reads` proves it for every fuel, one step lemma per function.
* Completeness.  `Finds n` bundles the converse: from a sane state, a derivation with a
  well-typed tree is what the call returns once the fuel is at least four times what is
  left to read, plus a little.  `finds` proves it the same way, and uses soundness to know
  where a call it has run stops.
* The equivalence, assembled from the two.
-/

namespace BasicJvm.Syntax

open BasicJvm.Source BasicJvm.Number

/-! ## The parser's small steps -/

theorem failAt_run_ne_ok {α : Type} (tok : Token) (p : ParseProblem) (s : ParserState)
    (r : α × ParserState) : (failAt tok p : ParseM α).run s ≠ .ok r := by
  simp [failAt]

theorem outOfFuel_run_ne_ok {α : Type} (s : ParserState) (r : α × ParserState) :
    (outOfFuel : ParseM α).run s ≠ .ok r := by
  intro h
  obtain ⟨tok, s₁, _, h⟩ := StateT.run_bind_eq_ok.mp h
  exact failAt_run_ne_ok _ _ _ _ h

/-- Joining two operands succeeds exactly when `joinTyped` allows it, and reads nothing. -/
theorem combine_run_ok {tok : Token} {op : BinOp} {a b e : Expr} {s s' : ParserState} :
    (combine tok op a b).run s = .ok (e, s') ↔ joinTyped op a b = some e ∧ s' = s := by
  unfold combine joinTyped
  by_cases differ : (a.type != b.type) = true
  · simp [differ, failAt_run_ne_ok]
  · by_cases text : (a.type == .text && op != .add && !op.isComparison) = true
    · simp [differ, text, failAt_run_ne_ok]
    · simp only [differ, text, if_false, StateT.run_pure_except, Except.ok.injEq, Prod.mk.injEq,
        Option.some.injEq, Bool.false_eq_true]
      exact ⟨fun ⟨h₁, h₂⟩ => ⟨h₁, h₂.symm⟩, fun ⟨h₁, h₂⟩ => ⟨h₁, h₂.symm⟩⟩

theorem numberOf_run_ok {tok : Token} {v : Single} {s s' : ParserState} :
    (numberOf tok).run s = .ok (v, s') ↔ readSingle tok.text = some v ∧ s' = s := by
  unfold numberOf
  cases h : readSingle tok.text with
  | none => simp [failAt_run_ne_ok]
  | some w =>
    simp only [StateT.run_pure_except, Except.ok.injEq, Prod.mk.injEq, Option.some.injEq]
    exact ⟨fun ⟨h₁, h₂⟩ => ⟨h₁, h₂.symm⟩, fun ⟨h₁, h₂⟩ => ⟨h₁, h₂.symm⟩⟩

theorem expectToken_run_ok {k : TokenKind} {x : String} {t : Token} {s s' : ParserState} :
    (expectToken k x).run s = .ok (t, s') ↔ nextToken.run s = .ok (t, s') ∧ t.isA k x = true := by
  unfold expectToken
  rw [StateT.run_bind_eq_ok]
  constructor
  · rintro ⟨a, s₁, take, h⟩
    by_cases isA : a.isA k x = true
    · simp only [isA, if_true, StateT.run_pure_except, Except.ok.injEq, Prod.mk.injEq] at h
      obtain ⟨rfl, rfl⟩ := h
      exact ⟨take, isA⟩
    · simp only [isA] at h
      exact absurd h (failAt_run_ne_ok _ _ _ _)
  · rintro ⟨take, isA⟩
    exact ⟨t, s', take, by simp [isA]⟩

/-- Consuming the token just looked at. -/
theorem nextToken_after_peek {s s₁ s₂ : ParserState} {tok tok' : Token}
    (peek : peekToken.run s = .ok (tok, s₁)) (take : nextToken.run s₁ = .ok (tok', s₂)) :
    tok' = tok ∧ s₂ = { s₁ with peeked := none } := by
  rw [nextToken_of_peek peek] at take
  simp only [Except.ok.injEq, Prod.mk.injEq] at take
  exact ⟨take.1.symm, take.2.symm⟩

theorem peekToken_progress {s s' : ParserState} {tok : Token}
    (peek : peekToken.run s = .ok (tok, s')) : s.Sane → s'.Sane ∧ s'.unread ≤ s.unread :=
  fun sane =>
    have facts := peekToken_ok peek sane
    ⟨facts.2.2.2.2.1, Nat.le_of_eq facts.2.2.2.2.2⟩

theorem nextToken_progress {s s' : ParserState} {tok : Token}
    (take : nextToken.run s = .ok (tok, s')) (real : tok.kind ≠ .endOfFile) :
    s.Sane → s'.Sane ∧ s'.unread < s.unread := fun sane =>
  have facts := nextToken_ok take sane
  ⟨facts.2.2.2.1, facts.2.2.2.2.2 real⟩

theorem Token.isA_eq_true {tok : Token} {k : TokenKind} {x : String} :
    tok.isA k x = true ↔ tok.kind = k ∧ tok.text = x := by
  simp [Token.isA]

/-- A token of the given kind is no end of file. -/
theorem Token.real_of_isA {tok : Token} {k : TokenKind} {x : String} (isA : tok.isA k x = true)
    (real : k ≠ .endOfFile) : tok.kind ≠ .endOfFile := by
  rw [(Token.isA_eq_true.mp isA).1]
  exact real

/-- The end of a comma-separated list: a closing parenthesis ends it, a comma goes on with
`more`, anything else fails. -/
theorem separated_run_ok {α : Type} {tok : Token} {done r : α} {more : ParseM α}
    {s s' : ParserState}
    (h : (if tok.isA .symbol ")" = true then pure done
      else if tok.isA .symbol "," = true then more
      else failAt tok (.expectedSeparator tok)).run s = .ok (r, s')) :
    (tok.isA .symbol ")" = true ∧ r = done ∧ s' = s) ∨
      (tok.isA .symbol "," = true ∧ more.run s = .ok (r, s')) := by
  by_cases close : tok.isA .symbol ")" = true
  · simp only [close, if_true, StateT.run_pure_except, Except.ok.injEq, Prod.mk.injEq] at h
    exact .inl ⟨close, h.1.symm, h.2.symm⟩
  · by_cases comma : tok.isA .symbol "," = true
    · simp only [close, comma, if_true, if_false, Bool.false_eq_true] at h
      exact .inr ⟨comma, h⟩
    · simp only [close, comma, if_false, Bool.false_eq_true] at h
      exact absurd h (failAt_run_ne_ok _ _ _ _)

/-- An operator is a real token. -/
theorem binOpOf_real {tok : Token} {op : BinOp} (isOp : binOpOf tok = some op) :
    tok.kind ≠ .endOfFile := by
  intro eof
  simp [binOpOf, eof] at isOp

theorem separated_run_close {α : Type} {tok : Token} {done : α} {more : ParseM α}
    {s : ParserState} (close : tok.isA .symbol ")" = true) :
    (if tok.isA .symbol ")" = true then pure done
      else if tok.isA .symbol "," = true then more
      else failAt tok (.expectedSeparator tok)).run s = .ok (done, s) := by
  simp [close]

theorem separated_run_comma {α : Type} {tok : Token} {done : α} {more : ParseM α}
    {s : ParserState} (comma : tok.isA .symbol "," = true) :
    (if tok.isA .symbol ")" = true then pure done
      else if tok.isA .symbol "," = true then more
      else failAt tok (.expectedSeparator tok)).run s = more.run s := by
  simp only [Token.isA, Bool.and_eq_true, beq_iff_eq] at comma
  simp [Token.isA, comma]

/-! ## A successful parse is a derivation

Each `…Reads n` says what a successful call with fuel `n` has read: a derivation of the
grammar for a tree that type checks to the result, and, from a sane state, a sane state with
less left to read (no more, for the functions that may read nothing). -/

/-- What a successful `exprAbove` reads. -/
def ExprReads (n : Nat) : Prop :=
  ∀ ⦃m : Nat⦄ ⦃s : ParserState⦄ ⦃e : Expr⦄ ⦃s' : ParserState⦄,
    (exprAbove n m).run s = .ok (e, s') → 1 ≤ m → m ≤ 6 →
    ∃ t, Stratified m s t s' ∧ t.typed = some e ∧ HeadBelow m s' ∧
      (s.Sane → s'.Sane ∧ s'.unread < s.unread)

/-- What a successful `climb` reads after an operand `t`, when the next token is no operator
of precedence `i` or more. -/
def ClimbReads (n : Nat) : Prop :=
  ∀ ⦃i j : Nat⦄ ⦃x : Expr⦄ ⦃s : ParserState⦄ ⦃e : Expr⦄ ⦃s' : ParserState⦄ ⦃t : Tree⦄,
    (climb n j x).run s = .ok (e, s') → 1 ≤ j → j < i → i ≤ 7 → HeadBelow i s →
    t.typed = some x →
    ∃ u, Tails i j s t u s' ∧ u.typed = some e ∧ HeadBelow j s' ∧
      (s.Sane → s'.Sane ∧ s'.unread ≤ s.unread)

/-- What a successful `atom` reads. -/
def AtomReads (n : Nat) : Prop :=
  ∀ ⦃s : ParserState⦄ ⦃e : Expr⦄ ⦃s' : ParserState⦄,
    (atom n).run s = .ok (e, s') →
    ∃ t, Operand s t s' ∧ t.typed = some e ∧ (s.Sane → s'.Sane ∧ s'.unread < s.unread)

/-- What a successful `callArgs` reads after the arguments `acc`. -/
def ArgsReads (n : Nat) : Prop :=
  ∀ ⦃acc : List Expr⦄ ⦃s : ParserState⦄ ⦃es : List Expr⦄ ⦃s' : ParserState⦄,
    (callArgs n acc).run s = .ok (es, s') →
    ∃ ts es', Items s ts s' ∧ Tree.typedAll ts = some es' ∧ es = acc.reverse ++ es' ∧
      (s.Sane → s'.Sane ∧ s'.unread < s.unread)

/-- What a successful `indexes` reads after the indexes `acc`. -/
def IndexesReads (n : Nat) : Prop :=
  ∀ ⦃anchor : Token⦄ ⦃acc : List Expr⦄ ⦃s : ParserState⦄ ⦃es : List Expr⦄ ⦃s' : ParserState⦄,
    (indexes n anchor acc).run s = .ok (es, s') →
    ∃ ts es', Items s ts s' ∧ Tree.typedAll ts = some es' ∧ (∀ x ∈ es', x.type = .number) ∧
      es = acc.reverse ++ es' ∧ (s.Sane → s'.Sane ∧ s'.unread < s.unread)

/-- What a successful `numeric` reads. -/
def NumericReads (n : Nat) : Prop :=
  ∀ ⦃anchor : Token⦄ ⦃what : String⦄ ⦃s : ParserState⦄ ⦃e : Expr⦄ ⦃s' : ParserState⦄,
    (numeric n anchor what).run s = .ok (e, s') →
    ∃ t, Stratified 1 s t s' ∧ t.typed = some e ∧ e.type = .number ∧
      (s.Sane → s'.Sane ∧ s'.unread < s.unread)

/-- What a successful `reference` reads after a variable's name. -/
def ReferenceReads (n : Nat) : Prop :=
  ∀ ⦃name : Token⦄ ⦃s : ParserState⦄ ⦃v : Variable⦄ ⦃s' : ParserState⦄,
    (reference n name).run s = .ok (v, s') →
    ∃ ts idx, Subscripts s ts s' ∧ Tree.typedAll ts = some idx ∧ (∀ x ∈ idx, x.type = .number) ∧
      v = ⟨name.text, idx⟩ ∧ (s.Sane → s'.Sane ∧ s'.unread ≤ s.unread)

/-- Everything a successful call with fuel `n` reads. -/
structure Reads (n : Nat) : Prop where
  expr : ExprReads n
  climb : ClimbReads n
  atom : AtomReads n
  args : ArgsReads n
  indexes : IndexesReads n
  numeric : NumericReads n
  reference : ReferenceReads n

/-- With no fuel nothing succeeds. -/
theorem reads_zero : Reads 0 where
  expr _ _ _ _ h := absurd h (outOfFuel_run_ne_ok _ _)
  climb _ _ _ _ _ _ _ h := absurd h (outOfFuel_run_ne_ok _ _)
  atom _ _ _ h := absurd h (outOfFuel_run_ne_ok _ _)
  args _ _ _ _ h := absurd h (outOfFuel_run_ne_ok _ _)
  indexes _ _ _ _ _ h := absurd h (outOfFuel_run_ne_ok _ _)
  numeric _ _ _ _ _ h := absurd h (outOfFuel_run_ne_ok _ _)
  reference _ _ _ _ h := absurd h (outOfFuel_run_ne_ok _ _)

section Reading

variable {n : Nat} (ih : Reads n)
include ih

theorem Reads.expr_succ : ExprReads (n + 1) := by
  intro m s e s' h one six
  obtain ⟨a, s₁, operandRun, climbRun⟩ := StateT.run_bind_eq_ok.mp h
  obtain ⟨t, operand, typed, progress⟩ := ih.atom operandRun
  obtain ⟨u, tails, typedU, head, progress'⟩ :=
    ih.climb climbRun one (by omega) (Nat.le_refl 7) (headBelow_seven s₁) typed
  refine ⟨u, (stratified_iff one six).mpr ⟨t, s₁, operand, tails⟩, typedU, head, fun sane => ?_⟩
  obtain ⟨sane₁, lt⟩ := progress sane
  obtain ⟨sane', le⟩ := progress' sane₁
  exact ⟨sane', by omega⟩

theorem Reads.climb_succ : ClimbReads (n + 1) := by
  intro i j x s e s' t h one ji i7 head typed
  obtain ⟨tok, s₁, peek, h⟩ := StateT.run_bind_eq_ok.mp h
  have peeked : ∀ tok' s₂, peekToken.run s₁ = .ok (tok', s₂) → tok' = tok ∧ s₂ = s₁ := by
    intro tok' s₂ peek'
    rw [peekToken_again peek] at peek'
    simp only [Except.ok.injEq, Prod.mk.injEq] at peek'
    exact ⟨peek'.1.symm, peek'.2.symm⟩
  have looked : s.Sane → s₁.Sane ∧ s₁.unread ≤ s.unread := fun sane =>
    have facts := peekToken_ok peek sane
    ⟨facts.2.2.2.2.1, by omega⟩
  cases isOp : binOpOf tok with
  | none =>
    -- no operator follows: the loops all stop here
    simp only [isOp, StateT.run_pure_except, Except.ok.injEq, Prod.mk.injEq] at h
    obtain ⟨rfl, rfl⟩ := h
    refine ⟨t, (tails_stop ji peek (by simp [isOp])).mpr ⟨rfl, rfl⟩, typed, ?_, looked⟩
    intro tok' s₂ peek' op isOp'
    obtain ⟨rfl, rfl⟩ := peeked tok' s₂ peek'
    simp [isOp] at isOp'
  | some op =>
    simp only [isOp] at h
    by_cases below : op.precedence < j
    · -- an operator binding too loosely ends this climb
      simp only [below, if_true, StateT.run_pure_except, Except.ok.injEq, Prod.mk.injEq] at h
      obtain ⟨rfl, rfl⟩ := h
      have outside : ∀ op', binOpOf tok = some op' → op'.precedence < j ∨ i ≤ op'.precedence := by
        intro op' isOp'
        rw [isOp] at isOp'
        cases isOp'
        exact .inl below
      refine ⟨t, (tails_stop ji peek outside).mpr ⟨rfl, rfl⟩, typed, ?_, looked⟩
      intro tok' s₂ peek' op' isOp'
      obtain ⟨rfl, rfl⟩ := peeked tok' s₂ peek'
      rw [isOp] at isOp'
      cases isOp'
      exact below
    · -- take the operator and its right operand, then climb on from the joined tree
      simp only [below, if_false] at h
      obtain ⟨tok', s₂, take, h⟩ := StateT.run_bind_eq_ok.mp h
      obtain ⟨r, s₃, rightRun, h⟩ := StateT.run_bind_eq_ok.mp h
      obtain ⟨y, s₄, joinRun, climbRun⟩ := StateT.run_bind_eq_ok.mp h
      obtain ⟨joined, same⟩ := combine_run_ok.mp joinRun
      subst s₄
      obtain ⟨same, after⟩ := nextToken_after_peek peek take
      subst tok' s₂
      have bounds := op.nextLevel_bounds
      have qi : op.precedence < i := head tok s₁ peek op isOp
      obtain ⟨rt, right, typedR, headR, progressR⟩ :=
        ih.expr (m := op.nextLevel) rightRun bounds.2.2.1 bounds.2.2.2
      have typedJoin : (Tree.binary op t rt).typed = some y :=
        Tree.typed_binary_iff.mpr ⟨x, r, typed, typedR, joined⟩
      obtain ⟨u, tails, typedU, headJ, progressC⟩ :=
        ih.climb climbRun one (by omega) (by omega) (headR.mono bounds.2.1) typedJoin
      refine ⟨u, (tails_op (by omega) qi peek isOp).mpr
        ⟨_, rt, s₃, nextToken_of_peek peek, right, tails⟩, typedU, headJ, fun sane => ?_⟩
      obtain ⟨sane₁, le₁⟩ := looked sane
      obtain ⟨-, -, -, sane₂, le₂, -⟩ := nextToken_ok (nextToken_of_peek peek) sane₁
      obtain ⟨sane₃, lt₃⟩ := progressR sane₂
      obtain ⟨sane', le'⟩ := progressC sane₃
      exact ⟨sane', by omega⟩

theorem Reads.args_succ : ArgsReads (n + 1) := by
  intro acc s es s' h
  obtain ⟨e, s₁, itemRun, h⟩ := StateT.run_bind_eq_ok.mp h
  obtain ⟨tok, s₂, take, h⟩ := StateT.run_bind_eq_ok.mp h
  obtain ⟨t, item, typed, -, progress⟩ := ih.expr itemRun (Nat.le_refl 1) (by omega)
  rcases separated_run_ok h with ⟨close, rfl, rfl⟩ | ⟨comma, restRun⟩
  · refine ⟨[t], [e], .last item take close, by simp [Tree.typedAll_cons_iff, typed],
      by simp, fun sane => ?_⟩
    obtain ⟨sane₁, lt₁⟩ := progress sane
    obtain ⟨sane', lt'⟩ := nextToken_progress take (Token.real_of_isA close nofun) sane₁
    exact ⟨sane', by omega⟩
  · obtain ⟨ts, es', items, typedAll, rfl, progress'⟩ := ih.args restRun
    refine ⟨t :: ts, e :: es', .more item take comma items,
      Tree.typedAll_cons_iff.mpr ⟨e, es', typed, typedAll, rfl⟩, by simp, fun sane => ?_⟩
    obtain ⟨sane₁, lt₁⟩ := progress sane
    obtain ⟨sane₂, lt₂⟩ := nextToken_progress take (Token.real_of_isA comma nofun) sane₁
    obtain ⟨sane', lt'⟩ := progress' sane₂
    exact ⟨sane', by omega⟩

theorem Reads.indexes_succ : IndexesReads (n + 1) := by
  intro anchor acc s es s' h
  obtain ⟨e, s₁, itemRun, h⟩ := StateT.run_bind_eq_ok.mp h
  obtain ⟨tok, s₂, take, h⟩ := StateT.run_bind_eq_ok.mp h
  obtain ⟨t, item, typed, numberType, progress⟩ := ih.numeric itemRun
  rcases separated_run_ok h with ⟨close, rfl, rfl⟩ | ⟨comma, restRun⟩
  · refine ⟨[t], [e], .last item take close, by simp [Tree.typedAll_cons_iff, typed],
      by simp [numberType], by simp, fun sane => ?_⟩
    obtain ⟨sane₁, lt₁⟩ := progress sane
    obtain ⟨sane', lt'⟩ := nextToken_progress take (Token.real_of_isA close nofun) sane₁
    exact ⟨sane', by omega⟩
  · obtain ⟨ts, es', items, typedAll, numbers, rfl, progress'⟩ := ih.indexes restRun
    refine ⟨t :: ts, e :: es', .more item take comma items,
      Tree.typedAll_cons_iff.mpr ⟨e, es', typed, typedAll, rfl⟩,
      List.forall_mem_cons.mpr ⟨numberType, numbers⟩, by simp, fun sane => ?_⟩
    obtain ⟨sane₁, lt₁⟩ := progress sane
    obtain ⟨sane₂, lt₂⟩ := nextToken_progress take (Token.real_of_isA comma nofun) sane₁
    obtain ⟨sane', lt'⟩ := progress' sane₂
    exact ⟨sane', by omega⟩

theorem Reads.numeric_succ : NumericReads (n + 1) := by
  intro anchor what s e s' h
  obtain ⟨x, s₁, exprRun, rest⟩ := StateT.run_bind_eq_ok.mp h
  by_cases text : (x.type != .number) = true
  · simp only [text, if_true] at rest
    exact absurd rest (failAt_run_ne_ok _ _ _ _)
  · simp only [text, Bool.false_eq_true, if_false, StateT.run_pure_except, Except.ok.injEq,
      Prod.mk.injEq] at rest
    obtain ⟨rfl, rfl⟩ := rest
    obtain ⟨t, derived, typed, -, progress⟩ := ih.expr exprRun (Nat.le_refl 1) (by omega)
    exact ⟨t, derived, typed, by simpa using text, progress⟩

theorem Reads.reference_succ : ReferenceReads (n + 1) := by
  intro name s v s' h
  obtain ⟨p, s₁, peek, rest⟩ := StateT.run_bind_eq_ok.mp h
  by_cases isOpen : p.isA .symbol "(" = true
  · -- a parenthesis after the name opens the index list
    simp only [isOpen, if_true] at rest
    obtain ⟨p', s₂, take, rest⟩ := StateT.run_bind_eq_ok.mp rest
    obtain ⟨idx, s₃, indexesRun, rest⟩ := StateT.run_bind_eq_ok.mp rest
    simp only [StateT.run_pure_except, Except.ok.injEq, Prod.mk.injEq] at rest
    obtain ⟨rfl, rfl⟩ := rest
    obtain ⟨same, -⟩ := nextToken_after_peek peek take
    subst p'
    obtain ⟨ts, es', items, typedAll, numbers, listed, progress⟩ := ih.indexes indexesRun
    simp only [List.reverse_nil, List.nil_append] at listed
    subst idx
    refine ⟨ts, es', .present peek isOpen take items, typedAll, numbers, rfl, fun sane => ?_⟩
    obtain ⟨sane₁, le₁⟩ := peekToken_progress peek sane
    obtain ⟨sane₂, lt₂⟩ := nextToken_progress take (Token.real_of_isA isOpen nofun) sane₁
    obtain ⟨sane', lt'⟩ := progress sane₂
    exact ⟨sane', by omega⟩
  · simp only [isOpen, Bool.false_eq_true, if_false, StateT.run_pure_except, Except.ok.injEq,
      Prod.mk.injEq] at rest
    obtain ⟨rfl, rfl⟩ := rest
    exact ⟨[], [], .absent peek (by simpa using isOpen), rfl, by simp, rfl,
      peekToken_progress peek⟩

theorem Reads.atom_succ : AtomReads (n + 1) := by
  intro s e s' h
  obtain ⟨tok, s₁, take, rest⟩ := StateT.run_bind_eq_ok.mp h
  -- every token an operand starts with is a real one, so reading it makes progress
  have took (kind : tok.kind ≠ .endOfFile) := nextToken_progress take kind
  cases kind : tok.kind with
  | number =>
    simp only [kind] at rest
    obtain ⟨v, s₂, valueRun, rest⟩ := StateT.run_bind_eq_ok.mp rest
    obtain ⟨value, same⟩ := numberOf_run_ok.mp valueRun
    subst s₂
    simp only [StateT.run_pure_except, Except.ok.injEq, Prod.mk.injEq] at rest
    obtain ⟨rfl, rfl⟩ := rest
    exact ⟨.number v, .number take kind value, rfl, took (by rw [kind]; nofun)⟩
  | string =>
    simp only [kind, StateT.run_pure_except, Except.ok.injEq, Prod.mk.injEq] at rest
    obtain ⟨rfl, rfl⟩ := rest
    exact ⟨.text tok.text, .text take kind, rfl, took (by rw [kind]; nofun)⟩
  | name =>
    simp only [kind] at rest
    obtain ⟨v, s₂, referenceRun, rest⟩ := StateT.run_bind_eq_ok.mp rest
    simp only [StateT.run_pure_except, Except.ok.injEq, Prod.mk.injEq] at rest
    obtain ⟨rfl, rfl⟩ := rest
    obtain ⟨ts, idx, subscripts, typedAll, numbers, rfl, progress⟩ := ih.reference referenceRun
    refine ⟨.ref tok.text ts, .reference take kind subscripts,
      Tree.typed_ref_iff.mpr ⟨idx, typedAll, numbers, rfl⟩, fun sane => ?_⟩
    obtain ⟨sane₁, lt₁⟩ := took (by rw [kind]; nofun) sane
    obtain ⟨sane', le'⟩ := progress sane₁
    exact ⟨sane', by omega⟩
  | function =>
    simp only [kind] at rest
    obtain ⟨p, s₂, openRun, rest⟩ := StateT.run_bind_eq_ok.mp rest
    obtain ⟨opening, isOpen⟩ := expectToken_run_ok.mp openRun
    obtain ⟨args, s₃, argsRun, rest⟩ := StateT.run_bind_eq_ok.mp rest
    obtain ⟨ts, es', items, typedAll, listed, progress⟩ := ih.args argsRun
    simp only [List.reverse_nil, List.nil_append] at listed
    subst args
    cases found : lookupBuiltin tok.text (es'.map Expr.type) with
    | error problem =>
      simp only [found] at rest
      exact absurd rest (failAt_run_ne_ok _ _ _ _)
    | ok f =>
      simp only [found, StateT.run_pure_except, Except.ok.injEq, Prod.mk.injEq] at rest
      obtain ⟨rfl, rfl⟩ := rest
      refine ⟨.call tok.text ts, .call take kind opening isOpen items,
        Tree.typed_call_iff.mpr ⟨es', f, typedAll, found, rfl⟩, fun sane => ?_⟩
      obtain ⟨sane₁, lt₁⟩ := took (by rw [kind]; nofun) sane
      obtain ⟨sane₂, lt₂⟩ := nextToken_progress opening (Token.real_of_isA isOpen nofun) sane₁
      obtain ⟨sane', lt'⟩ := progress sane₂
      exact ⟨sane', by omega⟩
  | symbol =>
    simp only [kind] at rest
    have real : tok.kind ≠ .endOfFile := by rw [kind]; nofun
    by_cases paren : (tok.text == "(") = true
    · -- a parenthesized expression
      simp only [paren, if_true] at rest
      obtain ⟨x, s₂, innerRun, rest⟩ := StateT.run_bind_eq_ok.mp rest
      obtain ⟨p, s₃, closeRun, rest⟩ := StateT.run_bind_eq_ok.mp rest
      obtain ⟨closing, isClose⟩ := expectToken_run_ok.mp closeRun
      simp only [StateT.run_pure_except, Except.ok.injEq, Prod.mk.injEq] at rest
      obtain ⟨rfl, rfl⟩ := rest
      obtain ⟨t, inner, typed, -, progress⟩ := ih.expr innerRun (Nat.le_refl 1) (by omega)
      refine ⟨t, .group take (by simp [Token.isA, kind, paren]) inner closing isClose, typed,
        fun sane => ?_⟩
      obtain ⟨sane₁, lt₁⟩ := took real sane
      obtain ⟨sane₂, lt₂⟩ := progress sane₁
      obtain ⟨sane', lt'⟩ := nextToken_progress closing (Token.real_of_isA isClose nofun) sane₂
      exact ⟨sane', by omega⟩
    · simp only [paren, Bool.false_eq_true, if_false] at rest
      by_cases sign : (tok.text == "-" || tok.text == "+") = true
      · -- a signed operand, read at the level of `^`
        simp only [sign, if_true] at rest
        obtain ⟨x, s₂, operandRun, rest⟩ := StateT.run_bind_eq_ok.mp rest
        obtain ⟨t, operand, typed, -, progress⟩ := ih.expr operandRun (by decide) (by decide)
        have moved : s.Sane → s₂.Sane ∧ s₂.unread < s.unread := fun sane => by
          obtain ⟨sane₁, lt₁⟩ := took real sane
          obtain ⟨sane₂, lt₂⟩ := progress sane₁
          exact ⟨sane₂, by omega⟩
        by_cases text : (x.type != .number) = true
        · simp only [text, if_true] at rest
          exact absurd rest (failAt_run_ne_ok _ _ _ _)
        have numberType : x.type = .number := by simpa using text
        by_cases plus : (tok.text == "+") = true
        · simp only [text, plus, Bool.false_eq_true, if_true, if_false, StateT.run_pure_except,
            Except.ok.injEq, Prod.mk.injEq] at rest
          obtain ⟨rfl, rfl⟩ := rest
          exact ⟨.plus t, .plus take (by simp [Token.isA, kind, plus]) operand,
            Tree.typed_plus_iff.mpr ⟨typed, numberType⟩, moved⟩
        · simp only [text, plus, Bool.false_eq_true, if_false, StateT.run_pure_except,
            Except.ok.injEq, Prod.mk.injEq] at rest
          obtain ⟨rfl, rfl⟩ := rest
          have minus : tok.text = "-" := by simpa [plus] using sign
          exact ⟨.neg t, .minus take (by simp [Token.isA, kind, minus]) operand,
            Tree.typed_neg_iff.mpr ⟨x, typed, numberType, rfl⟩, moved⟩
      · simp only [sign, Bool.false_eq_true, if_false] at rest
        exact absurd rest (failAt_run_ne_ok _ _ _ _)
  | endOfFile | endOfLine | keyword =>
    simp only [kind] at rest
    exact absurd rest (failAt_run_ne_ok _ _ _ _)

end Reading

/-- Every successful call, with any fuel, has read a derivation. -/
theorem reads (n : Nat) : Reads n := by
  induction n with
  | zero => exact reads_zero
  | succ n ih =>
    exact ⟨ih.expr_succ, ih.climb_succ, ih.atom_succ, ih.args_succ, ih.indexes_succ,
      ih.numeric_succ, ih.reference_succ⟩

/-! ## A derivation is what the parser finds

Each `…Finds n` says that from a sane state a derivation of the grammar with a well-typed
tree is what a call with fuel `n` returns, once `n` is at least four times what is left to
read plus a constant of the function: every call a function makes reads at least a token
before it needs more fuel than its caller had. -/

/-- What `exprAbove` finds. -/
def ExprFinds (n : Nat) : Prop :=
  ∀ ⦃m : Nat⦄ ⦃s : ParserState⦄ ⦃t : Tree⦄ ⦃s' : ParserState⦄,
    Stratified m s t s' → 1 ≤ m → m ≤ 6 → s.Sane → 4 * s.unread + 4 ≤ n →
    ∀ ⦃e : Expr⦄, t.typed = some e → (exprAbove n m).run s = .ok (e, s')

/-- What `climb` finds after an operand `t` for `x`, when the next token is no operator of
precedence `i` or more. -/
def ClimbFinds (n : Nat) : Prop :=
  ∀ ⦃i j : Nat⦄ ⦃s : ParserState⦄ ⦃t u : Tree⦄ ⦃s' : ParserState⦄,
    Tails i j s t u s' → 1 ≤ j → j < i → i ≤ 7 → HeadBelow i s → s.Sane →
    4 * s.unread + 4 ≤ n →
    ∀ ⦃x e : Expr⦄, t.typed = some x → u.typed = some e → (climb n j x).run s = .ok (e, s')

/-- What `atom` finds. -/
def AtomFinds (n : Nat) : Prop :=
  ∀ ⦃s : ParserState⦄ ⦃t : Tree⦄ ⦃s' : ParserState⦄,
    Operand s t s' → s.Sane → 4 * s.unread + 3 ≤ n →
    ∀ ⦃e : Expr⦄, t.typed = some e → (atom n).run s = .ok (e, s')

/-- What `callArgs` finds after the arguments `acc`. -/
def ArgsFinds (n : Nat) : Prop :=
  ∀ ⦃acc : List Expr⦄ ⦃s : ParserState⦄ ⦃ts : List Tree⦄ ⦃s' : ParserState⦄,
    Items s ts s' → s.Sane → 4 * s.unread + 5 ≤ n →
    ∀ ⦃es : List Expr⦄, Tree.typedAll ts = some es →
      (callArgs n acc).run s = .ok (acc.reverse ++ es, s')

/-- What `indexes` finds after the indexes `acc`. -/
def IndexesFinds (n : Nat) : Prop :=
  ∀ ⦃anchor : Token⦄ ⦃acc : List Expr⦄ ⦃s : ParserState⦄ ⦃ts : List Tree⦄ ⦃s' : ParserState⦄,
    Items s ts s' → s.Sane → 4 * s.unread + 6 ≤ n →
    ∀ ⦃es : List Expr⦄, Tree.typedAll ts = some es → (∀ x ∈ es, x.type = .number) →
      (indexes n anchor acc).run s = .ok (acc.reverse ++ es, s')

/-- What `numeric` finds. -/
def NumericFinds (n : Nat) : Prop :=
  ∀ ⦃anchor : Token⦄ ⦃what : String⦄ ⦃s : ParserState⦄ ⦃t : Tree⦄ ⦃s' : ParserState⦄,
    Stratified 1 s t s' → s.Sane → 4 * s.unread + 5 ≤ n →
    ∀ ⦃e : Expr⦄, t.typed = some e → e.type = .number →
      (numeric n anchor what).run s = .ok (e, s')

/-- What `reference` finds after a variable's name. -/
def ReferenceFinds (n : Nat) : Prop :=
  ∀ ⦃name : Token⦄ ⦃s : ParserState⦄ ⦃ts : List Tree⦄ ⦃s' : ParserState⦄,
    Subscripts s ts s' → s.Sane → 4 * s.unread + 6 ≤ n →
    ∀ ⦃idx : List Expr⦄, Tree.typedAll ts = some idx → (∀ x ∈ idx, x.type = .number) →
      (reference n name).run s = .ok (⟨name.text, idx⟩, s')

/-- Everything a call with fuel `n` finds. -/
structure Finds (n : Nat) : Prop where
  expr : ExprFinds n
  climb : ClimbFinds n
  atom : AtomFinds n
  args : ArgsFinds n
  indexes : IndexesFinds n
  numeric : NumericFinds n
  reference : ReferenceFinds n

/-- No fuel is enough for nothing, so with none there is nothing to find. -/
theorem finds_zero : Finds 0 where
  expr _ _ _ _ _ _ _ _ enough := absurd enough (by omega)
  climb _ _ _ _ _ _ _ _ _ _ _ _ enough := absurd enough (by omega)
  atom _ _ _ _ _ enough := absurd enough (by omega)
  args _ _ _ _ _ _ enough := absurd enough (by omega)
  indexes _ _ _ _ _ _ _ enough := absurd enough (by omega)
  numeric _ _ _ _ _ _ _ enough := absurd enough (by omega)
  reference _ _ _ _ _ _ enough := absurd enough (by omega)

section Finding

variable {n : Nat} (ih : Finds n)
include ih

theorem Finds.expr_succ : ExprFinds (n + 1) := by
  intro m s t s' derived one six sane enough e typed
  obtain ⟨a, s₁, operand, tails⟩ := (stratified_iff one six).mp derived
  obtain ⟨x, typedA⟩ := Option.ne_none_iff_exists'.mp (tails_typed_start tails (by simp [typed]))
  have atomRun := ih.atom operand sane (by omega) typedA
  obtain ⟨-, -, -, progress⟩ := reads n |>.atom atomRun
  obtain ⟨sane₁, lt₁⟩ := progress sane
  exact StateT.run_bind_eq_ok.mpr ⟨x, s₁, atomRun,
    ih.climb tails one (by omega) (Nat.le_refl 7) (headBelow_seven s₁) sane₁ (by omega) typedA
      typed⟩

theorem Finds.climb_succ : ClimbFinds (n + 1) := by
  intro i j s t u s' tails one ji i7 head sane enough x e typedT typedU
  obtain ⟨tok, s₁, peek⟩ := tails_peek_ok ji tails
  refine StateT.run_bind_eq_ok.mpr ⟨tok, s₁, peek, ?_⟩
  cases isOp : binOpOf tok with
  | none =>
    -- no operator follows: every loop stops here
    obtain ⟨rfl, rfl⟩ := (tails_stop ji peek (by simp [isOp])).mp tails
    obtain rfl : x = e := Option.some.inj (typedT.symm.trans typedU)
    simp
  | some op =>
    by_cases below : op.precedence < j
    · -- an operator binding too loosely: every loop stops here too
      have outside : ∀ op', binOpOf tok = some op' → op'.precedence < j ∨ i ≤ op'.precedence := by
        intro op' isOp'
        rw [isOp] at isOp'
        cases isOp'
        exact .inl below
      obtain ⟨rfl, rfl⟩ := (tails_stop ji peek outside).mp tails
      obtain rfl : x = e := Option.some.inj (typedT.symm.trans typedU)
      simp [below]
    · -- the loop of the operator's level takes it with its right operand
      have qi : op.precedence < i := head tok s₁ peek op isOp
      obtain ⟨s₂, r, s₃, take, right, rest⟩ := (tails_op (by omega) qi peek isOp).mp tails
      obtain ⟨y, typedJoin⟩ :=
        Option.ne_none_iff_exists'.mp (tails_typed_start rest (by simp [typedU]))
      obtain ⟨a, b, typedA, typedR, joined⟩ := Tree.typed_binary_iff.mp typedJoin
      obtain rfl : a = x := Option.some.inj (typedA.symm.trans typedT)
      have bounds := op.nextLevel_bounds
      obtain ⟨sane₁, le₁⟩ := peekToken_progress peek sane
      obtain ⟨sane₂, lt₂⟩ := nextToken_progress take (binOpOf_real isOp) sane₁
      have rightRun := ih.expr right bounds.2.2.1 bounds.2.2.2 sane₂ (by omega) typedR
      obtain ⟨-, -, -, headR, progressR⟩ := reads n |>.expr rightRun bounds.2.2.1 bounds.2.2.2
      obtain ⟨sane₃, lt₃⟩ := progressR sane₂
      have restRun := ih.climb rest one (by omega) (by omega) (headR.mono bounds.2.1) sane₃
        (by omega) typedJoin typedU
      simp only [below, if_false]
      exact StateT.run_bind_eq_ok.mpr ⟨tok, s₂, take, StateT.run_bind_eq_ok.mpr ⟨b, s₃, rightRun,
        StateT.run_bind_eq_ok.mpr ⟨y, s₃, combine_run_ok.mpr ⟨joined, rfl⟩, restRun⟩⟩⟩

theorem Finds.numeric_succ : NumericFinds (n + 1) := by
  intro anchor what s t s' derived sane enough e typed numberType
  exact StateT.run_bind_eq_ok.mpr ⟨e, s',
    ih.expr derived (Nat.le_refl 1) (by omega) sane (by omega) typed, by simp [numberType]⟩

theorem Finds.args_succ : ArgsFinds (n + 1) := by
  intro acc s ts s' items sane enough es typedAll
  cases items with
  | last item closing isClose =>
    obtain ⟨a, as, typedA, typedAs, rfl⟩ := Tree.typedAll_cons_iff.mp typedAll
    obtain rfl : as = [] := (Option.some.inj typedAs).symm
    have itemRun := ih.expr item (Nat.le_refl 1) (by omega) sane (by omega) typedA
    refine StateT.run_bind_eq_ok.mpr ⟨a, _, itemRun, StateT.run_bind_eq_ok.mpr ⟨_, s', closing, ?_⟩⟩
    simpa using separated_run_close isClose
  | more item comma isComma rest =>
    obtain ⟨a, as, typedA, typedAs, rfl⟩ := Tree.typedAll_cons_iff.mp typedAll
    have itemRun := ih.expr item (Nat.le_refl 1) (by omega) sane (by omega) typedA
    obtain ⟨-, -, -, -, progress⟩ := reads n |>.expr itemRun (Nat.le_refl 1) (by omega)
    obtain ⟨sane₁, lt₁⟩ := progress sane
    obtain ⟨sane₂, lt₂⟩ := nextToken_progress comma (Token.real_of_isA isComma nofun) sane₁
    have restRun : (callArgs n (a :: acc)).run _ = .ok ((a :: acc).reverse ++ as, s') :=
      ih.args rest sane₂ (by omega) typedAs
    refine StateT.run_bind_eq_ok.mpr ⟨a, _, itemRun, StateT.run_bind_eq_ok.mpr ⟨_, _, comma, ?_⟩⟩
    rw [separated_run_comma isComma]
    simpa using restRun

theorem Finds.indexes_succ : IndexesFinds (n + 1) := by
  intro anchor acc s ts s' items sane enough es typedAll numbers
  cases items with
  | last item closing isClose =>
    obtain ⟨a, as, typedA, typedAs, rfl⟩ := Tree.typedAll_cons_iff.mp typedAll
    obtain rfl : as = [] := (Option.some.inj typedAs).symm
    have itemRun : (Syntax.numeric n anchor "index").run s = .ok (a, _) :=
      ih.numeric item sane (by omega) typedA (numbers a (List.mem_cons_self ..))
    refine StateT.run_bind_eq_ok.mpr ⟨a, _, itemRun, StateT.run_bind_eq_ok.mpr ⟨_, s', closing, ?_⟩⟩
    simpa using separated_run_close isClose
  | more item comma isComma rest =>
    obtain ⟨a, as, typedA, typedAs, rfl⟩ := Tree.typedAll_cons_iff.mp typedAll
    obtain ⟨numberA, numbersAs⟩ := List.forall_mem_cons.mp numbers
    have itemRun : (Syntax.numeric n anchor "index").run s = .ok (a, _) :=
      ih.numeric item sane (by omega) typedA numberA
    obtain ⟨-, -, -, -, progress⟩ := reads n |>.numeric itemRun
    obtain ⟨sane₁, lt₁⟩ := progress sane
    obtain ⟨sane₂, lt₂⟩ := nextToken_progress comma (Token.real_of_isA isComma nofun) sane₁
    have restRun :
        (Syntax.indexes n anchor (a :: acc)).run _ = .ok ((a :: acc).reverse ++ as, s') :=
      ih.indexes rest sane₂ (by omega) typedAs numbersAs
    refine StateT.run_bind_eq_ok.mpr ⟨a, _, itemRun, StateT.run_bind_eq_ok.mpr ⟨_, _, comma, ?_⟩⟩
    rw [separated_run_comma isComma]
    simpa using restRun

theorem Finds.reference_succ : ReferenceFinds (n + 1) := by
  intro name s ts s' subscripts sane enough idx typedAll numbers
  cases subscripts with
  | absent peek notOpen =>
    obtain rfl : idx = [] := (Option.some.inj typedAll).symm
    exact StateT.run_bind_eq_ok.mpr ⟨_, s', peek, by simp [notOpen]⟩
  | @present _ p s₁ s₂ _ _ peek isOpen take list =>
    obtain ⟨sane₁, le₁⟩ := peekToken_progress peek sane
    obtain ⟨sane₂, lt₂⟩ := nextToken_progress take (Token.real_of_isA isOpen nofun) sane₁
    have indexesRun : (Syntax.indexes n p []).run s₂ = .ok ([].reverse ++ idx, s') :=
      ih.indexes list sane₂ (by omega) typedAll numbers
    simp only [List.reverse_nil, List.nil_append] at indexesRun
    refine StateT.run_bind_eq_ok.mpr ⟨_, _, peek, ?_⟩
    simp only [isOpen, if_true]
    exact StateT.run_bind_eq_ok.mpr ⟨_, _, take,
      StateT.run_bind_eq_ok.mpr ⟨idx, s', indexesRun, rfl⟩⟩

theorem Finds.atom_succ : AtomFinds (n + 1) := by
  intro s t s' operand sane enough e typed
  cases operand with
  | number take kind value =>
    obtain rfl : Expr.number _ = e := Option.some.inj typed
    refine StateT.run_bind_eq_ok.mpr ⟨_, _, take, ?_⟩
    simp only [kind]
    exact StateT.run_bind_eq_ok.mpr ⟨_, _, numberOf_run_ok.mpr ⟨value, rfl⟩, rfl⟩
  | text take kind =>
    obtain rfl : Expr.text _ = e := Option.some.inj typed
    refine StateT.run_bind_eq_ok.mpr ⟨_, _, take, ?_⟩
    simp [kind]
  | reference take kind subscripts =>
    obtain ⟨idx, typedAll, numbers, rfl⟩ := Tree.typed_ref_iff.mp typed
    obtain ⟨sane₁, lt₁⟩ := nextToken_progress take (by rw [kind]; nofun) sane
    refine StateT.run_bind_eq_ok.mpr ⟨_, _, take, ?_⟩
    simp only [kind]
    exact StateT.run_bind_eq_ok.mpr ⟨_, s',
      ih.reference subscripts sane₁ (by omega) typedAll numbers, rfl⟩
  | call take kind opening isOpen items =>
    obtain ⟨es, f, typedAll, found, rfl⟩ := Tree.typed_call_iff.mp typed
    obtain ⟨sane₁, lt₁⟩ := nextToken_progress take (by rw [kind]; nofun) sane
    obtain ⟨sane₂, lt₂⟩ := nextToken_progress opening (Token.real_of_isA isOpen nofun) sane₁
    have argsRun : (callArgs n []).run _ = .ok ([].reverse ++ es, s') :=
      ih.args items sane₂ (by omega) typedAll
    simp only [List.reverse_nil, List.nil_append] at argsRun
    refine StateT.run_bind_eq_ok.mpr ⟨_, _, take, ?_⟩
    simp only [kind]
    exact StateT.run_bind_eq_ok.mpr ⟨_, _, expectToken_run_ok.mpr ⟨opening, isOpen⟩,
      StateT.run_bind_eq_ok.mpr ⟨es, s', argsRun, by simp [found]⟩⟩
  | group take isOpen inner closing isClose =>
    obtain ⟨kind, text⟩ := Token.isA_eq_true.mp isOpen
    obtain ⟨sane₁, lt₁⟩ := nextToken_progress take (Token.real_of_isA isOpen nofun) sane
    refine StateT.run_bind_eq_ok.mpr ⟨_, _, take, ?_⟩
    simp only [kind, text]
    exact StateT.run_bind_eq_ok.mpr ⟨e, _,
      ih.expr inner (Nat.le_refl 1) (by omega) sane₁ (by omega) typed,
      StateT.run_bind_eq_ok.mpr ⟨_, _, expectToken_run_ok.mpr ⟨closing, isClose⟩, rfl⟩⟩
  | plus take sign operand =>
    obtain ⟨typedT, numberType⟩ := Tree.typed_plus_iff.mp typed
    obtain ⟨kind, text⟩ := Token.isA_eq_true.mp sign
    obtain ⟨sane₁, lt₁⟩ := nextToken_progress take (Token.real_of_isA sign nofun) sane
    refine StateT.run_bind_eq_ok.mpr ⟨_, _, take, ?_⟩
    simp only [kind, text]
    exact StateT.run_bind_eq_ok.mpr ⟨e, _,
      ih.expr operand (by decide) (Nat.le_refl 6) sane₁ (by omega) typedT, by simp [numberType]⟩
  | minus take sign operand =>
    obtain ⟨a, typedT, numberType, rfl⟩ := Tree.typed_neg_iff.mp typed
    obtain ⟨kind, text⟩ := Token.isA_eq_true.mp sign
    obtain ⟨sane₁, lt₁⟩ := nextToken_progress take (Token.real_of_isA sign nofun) sane
    refine StateT.run_bind_eq_ok.mpr ⟨_, _, take, ?_⟩
    simp only [kind, text]
    exact StateT.run_bind_eq_ok.mpr ⟨a, _,
      ih.expr operand (by decide) (Nat.le_refl 6) sane₁ (by omega) typedT, by simp [numberType]⟩

end Finding

/-- Every derivation with a well-typed tree is found, given the fuel. -/
theorem finds (n : Nat) : Finds n := by
  induction n with
  | zero => exact finds_zero
  | succ n ih =>
    exact ⟨ih.expr_succ, ih.climb_succ, ih.atom_succ, ih.args_succ, ih.indexes_succ,
      ih.numeric_succ, ih.reference_succ⟩

/-! ## The two readings agree -/

section Agreement

variable {fuel m : Nat} {s : ParserState} {e : Expr} {s' : ParserState}

/-- A successful parse at any level is a derivation of that level. -/
theorem exprAbove_derives (run : (exprAbove fuel m).run s = .ok (e, s')) (one : 1 ≤ m)
    (six : m ≤ 6) : ∃ t, Stratified m s t s' ∧ t.typed = some e := by
  obtain ⟨t, derived, typed, -⟩ := reads fuel |>.expr run one six
  exact ⟨t, derived, typed⟩

/-- A derivation with a well-typed tree is what the parser returns, given the fuel. -/
theorem exprAbove_of_derives {t : Tree} (derived : Stratified m s t s') (typed : t.typed = some e)
    (one : 1 ≤ m) (six : m ≤ 6) (sane : s.Sane) (enough : 4 * s.unread + 4 ≤ fuel) :
    (exprAbove fuel m).run s = .ok (e, s') :=
  finds fuel |>.expr derived one six sane enough typed

/-- Precedence climbing is the stratified parser: from a sane state and with fuel at least
four times what is left to read plus four, it returns an expression and a state exactly when
the stratified grammar derives a tree that type checks to that expression and stops in that
state, and it fails exactly when no tree it derives type checks. -/
theorem exprAbove_iff_stratified (sane : s.Sane) (enough : 4 * s.unread + 4 ≤ fuel) :
    (∀ e s', (exprAbove fuel 1).run s = .ok (e, s') ↔
      ∃ t, Stratified 1 s t s' ∧ t.typed = some e) ∧
    ((∃ err, (exprAbove fuel 1).run s = .error err) ↔
      ∀ t s', Stratified 1 s t s' → t.typed = none) := by
  refine ⟨fun e s' => ⟨fun run => exprAbove_derives run (Nat.le_refl 1) (by omega), ?_⟩, ?_⟩
  · rintro ⟨t, derived, typed⟩
    exact exprAbove_of_derives derived typed (Nat.le_refl 1) (by omega) sane enough
  constructor
  · -- a failed parse leaves no derivation a type
    rintro ⟨err, failed⟩ t s' derived
    cases typed : t.typed with
    | none => rfl
    | some e =>
      rw [exprAbove_of_derives derived typed (Nat.le_refl 1) (by omega) sane enough] at failed
      cases failed
  · -- without a well-typed derivation the parse cannot succeed
    intro illTyped
    cases run : (exprAbove fuel 1).run s with
    | error err => exact ⟨err, rfl⟩
    | ok r =>
      obtain ⟨t, derived, typed⟩ := exprAbove_derives run (Nat.le_refl 1) (by omega)
      rw [illTyped t r.2 derived] at typed
      cases typed

theorem exprAbove_iff_stratified_negPower :
    ((ParserState.start "-2^2").Sane ∧ 4 * (ParserState.start "-2^2").unread + 4 ≤ 24) ∧
    ((∀ e s', (exprAbove 24 1).run (ParserState.start "-2^2") = .ok (e, s') ↔
        ∃ t, Stratified 1 (ParserState.start "-2^2") t s' ∧ t.typed = some e) ∧
      ((∃ err, (exprAbove 24 1).run (ParserState.start "-2^2") = .error err) ↔
        ∀ t s', Stratified 1 (ParserState.start "-2^2") t s' → t.typed = none)) :=
  ⟨⟨ParserState.start_sane _, by decide⟩,
    exprAbove_iff_stratified (ParserState.start_sane _) (by decide)⟩

/-- A sign on a text is refused like a minus: `+"A"` is derived, as a plus over a text, and
the parser rejects it. -/
theorem unaryPlus_text_rejected :
    Stratified 1 (ParserState.start "+\"A\"") (.plus (.text "A"))
      { ParserState.start "+\"A\"" with pos := 4, peeked := some ⟨.endOfFile, "", 1, 4⟩ } ∧
    ∃ err, (exprAbove 24 1).run (ParserState.start "+\"A\"") = .error err := by
  have plusTaken : nextToken.run (ParserState.start "+\"A\"") =
      .ok (⟨.symbol, "+", 1, 0⟩, { ParserState.start "+\"A\"" with pos := 1 }) := by
    with_unfolding_all rfl
  have textTaken : nextToken.run { ParserState.start "+\"A\"" with pos := 1 } =
      .ok (⟨.string, "A", 1, 1⟩, { ParserState.start "+\"A\"" with pos := 4 }) := by
    with_unfolding_all rfl
  have atEnd : peekToken.run { ParserState.start "+\"A\"" with pos := 4 } =
      .ok (⟨.endOfFile, "", 1, 4⟩,
        { ParserState.start "+\"A\"" with pos := 4, peeked := some ⟨.endOfFile, "", 1, 4⟩ }) := by
    with_unfolding_all rfl
  have noOp : ∀ op, binOpOf ⟨.endOfFile, "", 1, 4⟩ ≠ some op := by
    simp [binOpOf]
  have operand : Stratified 6 { ParserState.start "+\"A\"" with pos := 1 } (.text "A")
      { ParserState.start "+\"A\"" with pos := 4, peeked := some ⟨.endOfFile, "", 1, 4⟩ } :=
    (stratified_iff (by decide) (Nat.le_refl 6)).mpr ⟨.text "A", _, .text textTaken rfl,
      (tails_stop (by decide) atEnd fun op isOp => absurd isOp (noOp op)).mpr ⟨rfl, rfl⟩⟩
  refine ⟨(stratified_iff (Nat.le_refl 1) (by decide)).mpr ⟨_, _, .plus plusTaken rfl operand,
    (tails_stop (by decide) (peekToken_again atEnd) fun op isOp => absurd isOp (noOp op)).mpr
      ⟨rfl, rfl⟩⟩, ?_⟩
  exact ⟨_, by with_unfolding_all rfl⟩

end Agreement

end BasicJvm.Syntax
