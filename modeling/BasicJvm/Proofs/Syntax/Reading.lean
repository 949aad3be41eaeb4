import BasicJvm.Proofs.Syntax.Statements

/-!
# Reading the pieces of a statement

The parser's functions below the statement, each tied to its relation of the grammar of
programs in both directions: a successful run has read what the relation derives, and what
the relation derives a run reads, once the fuel is at least four times what is left to read
plus a constant of the function.

* Progress.  `ParserState.Advances s s'` says that from a sane state reading reached a sane
  state with less left to read, `ParserState.Keeps` the same with no more left.
* Steps that return a value or change the state: `ParseM.run_pure_eq_ok`,
  `ParseM.run_bind_pure_eq_ok`, `ParseM.run_modify_eq_ok`.
* Expressions, indexes and sizes come from the equivalence of precedence climbing with the
  stratified grammar.
* Tokens: `acceptToken`, `expectToken`, labels (`labelOf_run_ok`), and the raw rest of a
  line that `REM` takes (`restOfLine_keeps`).
* Lists separated by commas.  The five loops of the parser that read them share one shape,
  `CommaLoop`, and one pair of theorems, `CommaLoop.sound` and `CommaLoop.complete`.
* The items of a `PRINT` statement, whose loop puts a space between two expressions.
-/

namespace BasicJvm.Syntax

open BasicJvm.Source BasicJvm.Number

/-! ## Progress -/

/-- From a sane state, reading reached a sane state with less left to read. -/
def ParserState.Advances (s s' : ParserState) : Prop :=
  s.Sane → s'.Sane ∧ s'.unread < s.unread

/-- From a sane state, reading reached a sane state with no more left to read. -/
def ParserState.Keeps (s s' : ParserState) : Prop :=
  s.Sane → s'.Sane ∧ s'.unread ≤ s.unread

section Progress

variable {s₁ s₂ s₃ : ParserState}

theorem ParserState.Advances.keeps (h : s₁.Advances s₂) : s₁.Keeps s₂ := fun sane =>
  have step := h sane
  ⟨step.1, Nat.le_of_lt step.2⟩

theorem ParserState.Advances.trans (h : s₁.Advances s₂) (h' : s₂.Advances s₃) :
    s₁.Advances s₃ := fun sane =>
  have first := h sane
  have second := h' first.1
  ⟨second.1, Nat.lt_trans second.2 first.2⟩

theorem ParserState.Advances.trans_keeps (h : s₁.Advances s₂) (h' : s₂.Keeps s₃) :
    s₁.Advances s₃ := fun sane =>
  have first := h sane
  have second := h' first.1
  ⟨second.1, Nat.lt_of_le_of_lt second.2 first.2⟩

theorem ParserState.Keeps.trans_advances (h : s₁.Keeps s₂) (h' : s₂.Advances s₃) :
    s₁.Advances s₃ := fun sane =>
  have first := h sane
  have second := h' first.1
  ⟨second.1, Nat.lt_of_lt_of_le second.2 first.2⟩

theorem ParserState.Keeps.trans (h : s₁.Keeps s₂) (h' : s₂.Keeps s₃) : s₁.Keeps s₃ :=
  fun sane =>
    have first := h sane
    have second := h' first.1
    ⟨second.1, Nat.le_trans second.2 first.2⟩

theorem ParserState.Keeps.refl (s : ParserState) : s.Keeps s := fun sane =>
  ⟨sane, Nat.le_refl _⟩

end Progress

/-- A step that returned a value without reading. -/
theorem ParseM.run_pure_eq_ok {α : Type} {a b : α} {s s' : ParserState} :
    (pure a : ParseM α).run s = .ok (b, s') ↔ a = b ∧ s = s' := by
  simp only [StateT.run_pure_except, Except.ok.injEq, Prod.mk.injEq]

/-- A step that only changed the state. -/
theorem ParseM.run_modify_eq_ok {f : ParserState → ParserState} {s s' : ParserState} {u : PUnit} :
    (modify f : ParseM PUnit).run s = .ok (u, s') ↔ f s = s' := by
  rw [StateT.run_modify]
  exact ⟨fun h => (Prod.mk.inj (Except.ok.inj h)).2, fun h => h ▸ rfl⟩

/-- A step that succeeded and then returned a value made of its result. -/
theorem ParseM.run_bind_pure_eq_ok {α β : Type} {x : ParseM α} {f : α → β} {s s' : ParserState}
    {b : β} : (x >>= fun a => pure (f a)).run s = .ok (b, s') ↔ ∃ a, x.run s = .ok (a, s') ∧ b = f a := by
  rw [StateT.run_bind_eq_ok]
  constructor
  · rintro ⟨a, s₁, first, rest⟩
    obtain ⟨rfl, rfl⟩ := ParseM.run_pure_eq_ok.mp rest
    exact ⟨a, first, rfl⟩
  · rintro ⟨a, first, rfl⟩
    exact ⟨a, s', first, rfl⟩

theorem peekToken_keeps {s s' : ParserState} {tok : Token}
    (peek : peekToken.run s = .ok (tok, s')) : s.Keeps s' :=
  peekToken_progress peek

theorem nextToken_advances {s s' : ParserState} {tok : Token}
    (take : nextToken.run s = .ok (tok, s')) (real : tok.kind ≠ .endOfFile) : s.Advances s' :=
  nextToken_progress take real

theorem nextToken_keeps {s s' : ParserState} {tok : Token}
    (take : nextToken.run s = .ok (tok, s')) : s.Keeps s' := fun sane =>
  have facts := nextToken_ok take sane
  ⟨facts.2.2.2.1, facts.2.2.2.2.1⟩

/-- Reading a token of a kind other than the end of the source makes progress. -/
theorem Expect.advances {k : TokenKind} {x : String} {s s' : ParserState}
    (h : Expect k x s s') (real : k ≠ .endOfFile) : s.Advances s' := by
  obtain ⟨tok, take, isA⟩ := h
  exact nextToken_advances take (Token.real_of_isA isA real)

/-! ## Expressions, indexes and sizes -/

section Expressions

variable {n : Nat} {s : ParserState} {e : Expr} {s' : ParserState}

theorem exprText_of_run (run : (exprAbove n 1).run s = .ok (e, s')) :
    ExprText s e s' ∧ s.Advances s' := by
  obtain ⟨t, derived, typed, -, progress⟩ := reads n |>.expr run (Nat.le_refl 1) (by omega)
  exact ⟨⟨t, derived, typed⟩, progress⟩

theorem ExprText.run (text : ExprText s e s') (sane : s.Sane) (enough : 4 * s.unread + 4 ≤ n) :
    (exprAbove n 1).run s = .ok (e, s') := by
  obtain ⟨t, derived, typed⟩ := text
  exact exprAbove_of_derives derived typed (Nat.le_refl 1) (by omega) sane enough

theorem ExprText.advances (text : ExprText s e s') : s.Advances s' := fun sane =>
  (exprText_of_run (text.run sane (Nat.le_refl _))).2 sane

theorem numericText_of_run {anchor : Token} {what : String}
    (run : (numeric n anchor what).run s = .ok (e, s')) :
    NumericText s e s' ∧ s.Advances s' := by
  obtain ⟨t, derived, typed, numberType, progress⟩ := reads n |>.numeric run
  exact ⟨⟨⟨t, derived, typed⟩, numberType⟩, progress⟩

theorem NumericText.run {anchor : Token} {what : String} (text : NumericText s e s')
    (sane : s.Sane) (enough : 4 * s.unread + 5 ≤ n) :
    (numeric n anchor what).run s = .ok (e, s') := by
  obtain ⟨⟨t, derived, typed⟩, numberType⟩ := text
  exact finds n |>.numeric derived sane enough typed numberType

theorem NumericText.advances (text : NumericText s e s') : s.Advances s' :=
  text.1.advances

theorem indexText_of_run {name : Token} {v : Variable}
    (run : (reference n name).run s = .ok (v, s')) :
    ∃ idx, IndexText s idx s' ∧ v = ⟨name.text, idx⟩ ∧ s.Keeps s' := by
  obtain ⟨ts, idx, subscripts, typedAll, numbers, rfl, progress⟩ := reads n |>.reference run
  exact ⟨idx, ⟨ts, subscripts, typedAll, numbers⟩, rfl, progress⟩

theorem IndexText.run {name : Token} {idx : List Expr} (text : IndexText s idx s')
    (sane : s.Sane) (enough : 4 * s.unread + 6 ≤ n) :
    (reference n name).run s = .ok (⟨name.text, idx⟩, s') := by
  obtain ⟨ts, subscripts, typedAll, numbers⟩ := text
  exact finds n |>.reference subscripts sane enough typedAll numbers

theorem IndexText.keeps {idx : List Expr} (text : IndexText s idx s') : s.Keeps s' := by
  intro sane
  have run : (reference (4 * s.unread + 6) ⟨.name, "", 0, 0⟩).run s = .ok (⟨"", idx⟩, s') :=
    text.run sane (Nat.le_refl _)
  obtain ⟨_, _, _, progress⟩ := indexText_of_run run
  exact progress sane

theorem sizesText_of_run {anchor : Token} {sizes : List Expr}
    (run : (indexes n anchor []).run s = .ok (sizes, s')) :
    SizesText s sizes s' ∧ s.Advances s' := by
  obtain ⟨ts, es, items, typedAll, numbers, listed, progress⟩ := reads n |>.indexes run
  simp only [List.reverse_nil, List.nil_append] at listed
  subst listed
  exact ⟨⟨ts, items, typedAll, numbers⟩, progress⟩

theorem SizesText.run {anchor : Token} {sizes : List Expr} (text : SizesText s sizes s')
    (sane : s.Sane) (enough : 4 * s.unread + 6 ≤ n) :
    (indexes n anchor []).run s = .ok (sizes, s') := by
  obtain ⟨ts, items, typedAll, numbers⟩ := text
  have run : (indexes n anchor []).run s = .ok ([].reverse ++ sizes, s') :=
    finds n |>.indexes items sane enough typedAll numbers
  simpa using run

theorem SizesText.advances {sizes : List Expr} (text : SizesText s sizes s') :
    s.Advances s' := fun sane =>
  have run : (indexes (4 * s.unread + 6) ⟨.symbol, "(", 0, 0⟩ []).run s = .ok (sizes, s') :=
    text.run sane (Nat.le_refl _)
  (sizesText_of_run run).2 sane

end Expressions

/-! ## Tokens and labels -/

theorem expectToken_iff_expect {k : TokenKind} {x : String} {s s' : ParserState} :
    (∃ tok, (expectToken k x).run s = .ok (tok, s')) ↔ Expect k x s s' := by
  simp only [expectToken_run_ok]
  rfl

theorem acceptToken_run_ok {k : TokenKind} {x : String} {s : ParserState} {b : Bool}
    {s' : ParserState} :
    (acceptToken k x).run s = .ok (b, s') ↔
      ∃ tok s₁, peekToken.run s = .ok (tok, s₁) ∧
        (tok.isA k x = true ∧ b = true ∧ nextToken.run s₁ = .ok (tok, s') ∨
          tok.isA k x = false ∧ b = false ∧ s' = s₁) := by
  unfold acceptToken
  rw [StateT.run_bind_eq_ok]
  constructor
  · rintro ⟨tok, s₁, peek, rest⟩
    refine ⟨tok, s₁, peek, ?_⟩
    by_cases isA : tok.isA k x = true
    · simp only [isA, if_true] at rest
      obtain ⟨tok', s₂, take, rest⟩ := StateT.run_bind_eq_ok.mp rest
      simp only [StateT.run_pure_except, Except.ok.injEq, Prod.mk.injEq] at rest
      obtain ⟨rfl, rfl⟩ := rest
      obtain ⟨same, -⟩ := nextToken_after_peek peek take
      subst same
      exact .inl ⟨isA, rfl, take⟩
    · simp only [isA, Bool.false_eq_true, if_false, StateT.run_pure_except, Except.ok.injEq,
        Prod.mk.injEq] at rest
      obtain ⟨rfl, rfl⟩ := rest
      exact .inr ⟨by simpa using isA, rfl, rfl⟩
  · rintro ⟨tok, s₁, peek, ⟨isA, rfl, take⟩ | ⟨isA, rfl, rfl⟩⟩
    · refine ⟨tok, s₁, peek, ?_⟩
      simp only [isA, if_true]
      exact StateT.run_bind_eq_ok.mpr ⟨tok, s', take, rfl⟩
    · refine ⟨tok, _, peek, ?_⟩
      simp [isA]

/-- The label check of `labelOf` is `Token.label?`, and it reads nothing. -/
theorem labelOf_run_ok {tok : Token} {label : String} {s s' : ParserState} :
    (labelOf tok).run s = .ok (label, s') ↔ tok.label? = some label ∧ s' = s := by
  unfold labelOf Token.label? decimalValue
  -- the Boolean test of `labelOf` is the condition of `Token.label?`
  have test : (!tok.text.toList.isEmpty &&
      tok.text.toList.all (fun c => decide ('0' ≤ c) && decide (c ≤ '9')) &&
      decide (0 < tok.text.toList.foldl (fun acc c => acc * 10 + (c.toNat - 48)) 0) &&
      decide (tok.text.toList.foldl (fun acc c => acc * 10 + (c.toNat - 48)) 0 < 2 ^ 63)) = true ↔
      tok.text.toList ≠ [] ∧ (∀ c ∈ tok.text.toList, '0' ≤ c ∧ c ≤ '9') ∧
        0 < tok.text.toList.foldl (fun acc c => acc * 10 + (c.toNat - 48)) 0 ∧
        tok.text.toList.foldl (fun acc c => acc * 10 + (c.toNat - 48)) 0 < 2 ^ 63 := by
    simp [and_assoc]
  by_cases kind : tok.kind = .number
  · have isNumber : ¬(tok.kind != .number) = true := by simp [kind]
    by_cases valid : tok.text.toList ≠ [] ∧ (∀ c ∈ tok.text.toList, '0' ≤ c ∧ c ≤ '9') ∧
        0 < tok.text.toList.foldl (fun acc c => acc * 10 + (c.toNat - 48)) 0 ∧
        tok.text.toList.foldl (fun acc c => acc * 10 + (c.toNat - 48)) 0 < 2 ^ 63
    · rw [if_neg isNumber, if_pos (test.mpr valid), if_pos ⟨kind, valid⟩]
      simp only [StateT.run_pure_except, Except.ok.injEq, Prod.mk.injEq, Option.some.injEq]
      exact ⟨fun ⟨h₁, h₂⟩ => ⟨h₁, h₂.symm⟩, fun ⟨h₁, h₂⟩ => ⟨h₁, h₂.symm⟩⟩
    · rw [if_neg isNumber, if_neg (mt test.mp valid), if_neg fun h => valid h.2]
      simp [failAt_run_ne_ok]
  · simp [kind, failAt_run_ne_ok]

theorem parseTarget_run_ok {s : ParserState} {label : String} {s' : ParserState} :
    parseTarget.run s = .ok (label, s') ↔ Target s label s' := by
  unfold parseTarget Target
  rw [StateT.run_bind_eq_ok]
  constructor
  · rintro ⟨tok, s₁, take, check⟩
    obtain ⟨labelled, rfl⟩ := labelOf_run_ok.mp check
    exact ⟨tok, take, labelled⟩
  · rintro ⟨tok, take, labelled⟩
    exact ⟨tok, s', take, labelOf_run_ok.mpr ⟨labelled, rfl⟩⟩

/-- A label is a number token, so reading one makes progress. -/
theorem Target.advances {s : ParserState} {label : String} {s' : ParserState}
    (h : Target s label s') : s.Advances s' := by
  obtain ⟨tok, take, labelled⟩ := h
  apply nextToken_advances take
  intro eof
  simp [Token.label?, eof] at labelled

/-- `REM` takes the rest of the line from where the next token would start, so reading it
leaves no more to read. -/
theorem restOfLine_keeps {s s' : ParserState} {text : String}
    (run : restOfLine.run s = .ok (text, s')) : s.Keeps s' := by
  intro sane
  -- the raw text starts where the next token would, which is no later than the position
  have within : s.nextStart ≤ s.pos ∧ s.pos ≤ s.src.size := by
    unfold ParserState.nextStart
    split
    · next t looked => exact ⟨sane.peeked_le t looked, sane.pos_le⟩
    · exact ⟨Nat.le_refl _, sane.pos_le⟩
  have stop := le_skipWhile (fun c => c != '\n') s.src s.nextStart
  have stopLe := skipWhile_le_max (fun c => c != '\n') s.src s.nextStart
  have moved : ∃ line, s' =
      { s with pos := skipWhile (fun c => c != '\n') s.src s.nextStart, line, peeked := none } := by
    simp only [restOfLine, StateT.run_bind, StateT.run_get, StateT.run_set, StateT.run_pure,
      Except.pure_eq_ok, Except.ok_bind, Except.ok.injEq, Prod.mk.injEq] at run
    unfold ParserState.nextStart
    cases looked : s.peeked <;> simp only [looked] at run ⊢ <;> exact ⟨_, run.2.symm⟩
  obtain ⟨line, rfl⟩ := moved
  refine ⟨⟨by simp only; omega, by simp, by simp⟩, ?_⟩
  show s.src.size - skipWhile (fun c => c != '\n') s.src s.nextStart ≤ s.src.size - s.nextStart
  omega

/-! ## Lists separated by commas -/

/-- What a loop does after reading an item `a`: go on after a comma, or end the list. -/
def commaTail {α : Type} (next : List α → ParseM (List α)) (acc : List α) (a : α) :
    ParseM (List α) := do
  if ← acceptToken .symbol "," then next (a :: acc) else return (a :: acc).reverse

theorem commaTail_run_ok {α : Type} {next : List α → ParseM (List α)} {acc : List α} {a : α}
    {s : ParserState} {r : List α} {s' : ParserState} :
    (commaTail next acc a).run s = .ok (r, s') ↔
      (∃ tok, peekToken.run s = .ok (tok, s') ∧ tok.isA .symbol "," = false ∧
        r = (a :: acc).reverse) ∨
      (∃ tok s₁ s₂, peekToken.run s = .ok (tok, s₁) ∧ tok.isA .symbol "," = true ∧
        nextToken.run s₁ = .ok (tok, s₂) ∧ (next (a :: acc)).run s₂ = .ok (r, s')) := by
  unfold commaTail
  rw [StateT.run_bind_eq_ok]
  constructor
  · rintro ⟨b, s₁, accept, rest⟩
    obtain ⟨tok, s₀, peek, ⟨isComma, rfl, take⟩ | ⟨notComma, rfl, rfl⟩⟩ :=
      acceptToken_run_ok.mp accept
    · exact .inr ⟨tok, s₀, s₁, peek, isComma, take, by simpa using rest⟩
    · simp only [Bool.false_eq_true, if_false, StateT.run_pure_except, Except.ok.injEq,
        Prod.mk.injEq] at rest
      obtain ⟨rfl, rfl⟩ := rest
      exact .inl ⟨tok, peek, notComma, rfl⟩
  · rintro (⟨tok, peek, notComma, rfl⟩ | ⟨tok, s₁, s₂, peek, isComma, take, rest⟩)
    · exact ⟨false, s', acceptToken_run_ok.mpr ⟨tok, s', peek, .inr ⟨notComma, rfl, rfl⟩⟩, rfl⟩
    · exact ⟨true, s₂, acceptToken_run_ok.mpr ⟨tok, s₁, peek, .inl ⟨isComma, rfl, take⟩⟩, rest⟩

/-- The shape of a loop of the parser that reads items separated by commas: with fuel
`n + 1` it reads one `item`, asking for no more fuel than `need` beyond four per character
left, and goes on as `commaTail` with fuel `n`. -/
structure CommaLoop {α : Type} (loop : Nat → List α → ParseM (List α))
    (item : ParserState → α → ParserState → Prop) (need : Nat) : Prop where
  zero : ∀ acc s r, (loop 0 acc).run s ≠ .ok r
  step_sound : ∀ n acc s r s', (loop (n + 1) acc).run s = .ok (r, s') →
    ∃ a s₁, item s a s₁ ∧ s.Advances s₁ ∧ (commaTail (loop n) acc a).run s₁ = .ok (r, s')
  step_complete : ∀ n acc s a s₁ r s', item s a s₁ → s.Sane → 4 * s.unread + need ≤ n + 1 →
    (commaTail (loop n) acc a).run s₁ = .ok (r, s') → (loop (n + 1) acc).run s = .ok (r, s')
  advances : ∀ s a s₁, item s a s₁ → s.Advances s₁

namespace CommaLoop

variable {α : Type} {loop : Nat → List α → ParseM (List α)}
  {item : ParserState → α → ParserState → Prop} {need : Nat}

/-- A successful loop has read a list of items separated by commas. -/
theorem sound (L : CommaLoop loop item need) {n : Nat} :
    ∀ {acc s r s'}, (loop n acc).run s = .ok (r, s') →
      ∃ as, CommaList item s as s' ∧ r = acc.reverse ++ as ∧ s.Advances s' := by
  induction n with
  | zero =>
    intro acc s r s' run
    exact absurd run (L.zero _ _ _)
  | succ n ih =>
    intro acc s r s' run
    obtain ⟨a, s₁, first, moved, tail⟩ := L.step_sound n acc s r s' run
    rcases commaTail_run_ok.mp tail with
      ⟨tok, peek, notComma, rfl⟩ | ⟨tok, s₂, s₃, peek, isComma, take, rest⟩
    · exact ⟨[a], .last first peek notComma, by simp, moved.trans_keeps (peekToken_keeps peek)⟩
    · obtain ⟨as, listed, rfl, moved'⟩ := ih rest
      refine ⟨a :: as, .more first peek isComma take listed, by simp, ?_⟩
      exact (moved.trans_keeps ((peekToken_keeps peek).trans (nextToken_keeps take))).trans
        moved'

/-- A list of items separated by commas is what the loop reads, given the fuel. -/
theorem complete (L : CommaLoop loop item need) (pos : 1 ≤ need) {s : ParserState}
    {as : List α} {s' : ParserState} (listed : CommaList item s as s') :
    ∀ {n acc}, s.Sane → 4 * s.unread + need ≤ n →
      (loop n acc).run s = .ok (acc.reverse ++ as, s') := by
  induction listed with
  | last first peek notComma =>
    intro n acc sane enough
    obtain ⟨m, rfl⟩ : ∃ m, n = m + 1 := ⟨n - 1, by omega⟩
    exact L.step_complete m acc _ _ _ _ _ first sane enough
      (commaTail_run_ok.mpr (.inl ⟨_, peek, notComma, by simp⟩))
  | @more s a s₁ tok s₂ s₃ as s' first peek isComma take rest ih =>
    intro n acc sane enough
    obtain ⟨m, rfl⟩ : ∃ m, n = m + 1 := ⟨n - 1, by omega⟩
    -- the rest of the list starts two tokens further on, with fuel to spare
    obtain ⟨sane₁, lt₁⟩ := L.advances _ _ _ first sane
    obtain ⟨sane₂, le₂⟩ := peekToken_keeps peek sane₁
    obtain ⟨sane₃, lt₃⟩ := nextToken_advances take (Token.real_of_isA isComma nofun) sane₂
    have restRun : (loop m (a :: acc)).run s₃ = .ok ((a :: acc).reverse ++ as, s') :=
      ih sane₃ (by omega)
    exact L.step_complete m acc _ _ _ _ _ first sane enough
      (commaTail_run_ok.mpr (.inr ⟨_, _, _, peek, isComma, take, by simpa using restRun⟩))

/-- A list of items separated by commas has been read past. -/
theorem advances_list (L : CommaLoop loop item need) {s : ParserState} {as : List α}
    {s' : ParserState} (listed : CommaList item s as s') : s.Advances s' := by
  induction listed with
  | last first peek _ => exact (L.advances _ _ _ first).trans_keeps (peekToken_keeps peek)
  | more first peek _ take _ ih =>
    exact ((L.advances _ _ _ first).trans_keeps
      ((peekToken_keeps peek).trans (nextToken_keeps take))).trans ih

end CommaLoop

/-- `ON … GO TO` reads its labels this way. -/
theorem labelList_commaLoop : CommaLoop labelList Target 1 where
  zero _ _ _ := outOfFuel_run_ne_ok _ _
  step_sound n acc s r s' run := by
    obtain ⟨label, s₁, targetRun, tail⟩ := StateT.run_bind_eq_ok.mp run
    have target := parseTarget_run_ok.mp targetRun
    exact ⟨label, s₁, target, target.advances, tail⟩
  step_complete n acc s a s₁ r s' target _ _ tail :=
    StateT.run_bind_eq_ok.mpr ⟨a, s₁, parseTarget_run_ok.mpr target, tail⟩
  advances _ _ _ target := target.advances

/-- `INPUT` and `READ` read their variables this way. -/
theorem variableList_commaLoop : CommaLoop variableList VariableText 3 where
  zero _ _ _ := outOfFuel_run_ne_ok _ _
  step_sound n acc s r s' run := by
    obtain ⟨name, s₁, take, rest⟩ := StateT.run_bind_eq_ok.mp run
    by_cases notName : (name.kind != .name) = true
    · simp only [notName, if_true] at rest
      exact absurd rest (failAt_run_ne_ok _ _ _ _)
    · simp only [notName, Bool.false_eq_true, if_false] at rest
      obtain ⟨v, s₂, referenceRun, tail⟩ := StateT.run_bind_eq_ok.mp rest
      obtain ⟨idx, indexed, rfl, keeps⟩ := indexText_of_run referenceRun
      have kind : name.kind = .name := by simpa using notName
      exact ⟨_, s₂, ⟨name, s₁, idx, take, kind, indexed, rfl⟩,
        (nextToken_advances take (by rw [kind]; nofun)).trans_keeps keeps, tail⟩
  step_complete n acc s a s₁ r s' target sane enough tail := by
    obtain ⟨name, s₀, idx, take, kind, indexed, rfl⟩ := target
    obtain ⟨sane₀, lt₀⟩ := nextToken_advances take (by rw [kind]; nofun) sane
    refine StateT.run_bind_eq_ok.mpr ⟨name, s₀, take, ?_⟩
    simp only [kind, bne_self_eq_false, Bool.false_eq_true, if_false]
    exact StateT.run_bind_eq_ok.mpr ⟨_, s₁, indexed.run sane₀ (by omega), tail⟩
  advances s a s₁ target := by
    obtain ⟨name, s₀, idx, take, kind, indexed, rfl⟩ := target
    exact (nextToken_advances take (by rw [kind]; nofun)).trans_keeps indexed.keeps

/-- `DIM` reads its arrays this way. -/
theorem dimArrays_commaLoop : CommaLoop dimArrays ArrayText 1 where
  zero _ _ _ := outOfFuel_run_ne_ok _ _
  step_sound n acc s r s' run := by
    obtain ⟨name, s₁, take, rest⟩ := StateT.run_bind_eq_ok.mp run
    by_cases notName : (name.kind != .name) = true
    · simp only [notName, if_true] at rest
      exact absurd rest (failAt_run_ne_ok _ _ _ _)
    · simp only [notName, Bool.false_eq_true, if_false] at rest
      obtain ⟨p, s₂, openRun, rest⟩ := StateT.run_bind_eq_ok.mp rest
      obtain ⟨sizes, s₃, sizesRun, tail⟩ := StateT.run_bind_eq_ok.mp rest
      have kind : name.kind = .name := by simpa using notName
      have opening : Expect .symbol "(" s₁ s₂ := expectToken_iff_expect.mp ⟨p, openRun⟩
      obtain ⟨sized, moved⟩ := sizesText_of_run sizesRun
      exact ⟨_, s₃, ⟨name, s₁, s₂, sizes, take, kind, opening, sized, rfl⟩,
        ((nextToken_advances take (by rw [kind]; nofun)).trans (opening.advances nofun)).trans
          moved, tail⟩
  step_complete n acc s a s₁ r s' array sane enough tail := by
    obtain ⟨name, s₀, s₂, sizes, take, kind, opening, sized, rfl⟩ := array
    obtain ⟨sane₀, lt₀⟩ := nextToken_advances take (by rw [kind]; nofun) sane
    obtain ⟨sane₂, lt₂⟩ := opening.advances nofun sane₀
    obtain ⟨p, openRun⟩ := expectToken_iff_expect.mpr opening
    refine StateT.run_bind_eq_ok.mpr ⟨name, s₀, take, ?_⟩
    simp only [kind, bne_self_eq_false, Bool.false_eq_true, if_false]
    exact StateT.run_bind_eq_ok.mpr ⟨p, s₂, openRun,
      StateT.run_bind_eq_ok.mpr ⟨sizes, s₁, sized.run sane₂ (by omega), tail⟩⟩
  advances s a s₁ array := by
    obtain ⟨name, s₀, s₂, sizes, take, kind, opening, sized, rfl⟩ := array
    exact ((nextToken_advances take (by rw [kind]; nofun)).trans (opening.advances nofun)).trans
      sized.advances

/-- `NEXT` reads its variables this way. -/
theorem nextVars_commaLoop : CommaLoop nextVars CounterText 1 where
  zero _ _ _ := outOfFuel_run_ne_ok _ _
  step_sound n acc s r s' run := by
    obtain ⟨name, s₁, take, rest⟩ := StateT.run_bind_eq_ok.mp run
    by_cases bad : (name.kind != .name || ValueType.ofName name.text != .number) = true
    · simp only [bad, if_true] at rest
      exact absurd rest (failAt_run_ne_ok _ _ _ _)
    · simp only [bad, Bool.false_eq_true, if_false] at rest
      have good : name.kind = .name ∧ ValueType.ofName name.text = .number := by simpa using bad
      exact ⟨name.text, s₁, ⟨name, take, good.1, good.2, rfl⟩,
        nextToken_advances take (by rw [good.1]; nofun), rest⟩
  step_complete n acc s a s₁ r s' counter _ _ tail := by
    obtain ⟨name, take, kind, numeric, rfl⟩ := counter
    refine StateT.run_bind_eq_ok.mpr ⟨name, s₁, take, ?_⟩
    simp only [kind, numeric, bne_self_eq_false, Bool.or_self, Bool.false_eq_true, if_false]
    exact tail
  advances s a s₁ counter := by
    obtain ⟨name, take, kind, -, rfl⟩ := counter
    exact nextToken_advances take (by rw [kind]; nofun)

/-- A token of another kind is no symbol. -/
theorem Token.isA_symbol_of_kind {tok : Token} {k : TokenKind} {x : String} (kind : tok.kind = k)
    (other : k ≠ .symbol) : tok.isA .symbol x = false := by
  simp only [Token.isA, kind, Bool.and_eq_false_iff, beq_eq_false_iff_ne, ne_eq]
  exact .inl other

/-- `DATA` reads its constants this way. -/
theorem dataValues_commaLoop : CommaLoop dataValues DataText 1 where
  zero _ _ _ := outOfFuel_run_ne_ok _ _
  step_sound n acc s r s' run := by
    obtain ⟨first, s₁, take, afterFirst⟩ := StateT.run_bind_eq_ok.mp run
    dsimp only at afterFirst
    by_cases negative : first.isA .symbol "-" = true
    · -- a minus, then the number it negates
      simp only [negative, if_true] at afterFirst
      obtain ⟨tok, s₂, signTake, afterSign⟩ := StateT.run_bind_eq_ok.mp afterFirst
      by_cases number : (tok.kind == .number) = true
      · simp only [number, if_true] at afterSign
        obtain ⟨v, s₃, numberRun, afterNumber⟩ := StateT.run_bind_eq_ok.mp afterSign
        obtain ⟨value, s₄, pureRun, tail⟩ := StateT.run_bind_eq_ok.mp afterNumber
        obtain ⟨readable, same⟩ := numberOf_run_ok.mp numberRun
        simp only [StateT.run_pure_except, Except.ok.injEq, Prod.mk.injEq] at pureRun
        obtain ⟨made, moved⟩ := pureRun
        subst same moved made
        have kind : tok.kind = .number := by simpa using number
        exact ⟨_, _, .negative take negative signTake kind readable,
          (nextToken_advances take (Token.real_of_isA negative nofun)).trans
            (nextToken_advances signTake (by rw [kind]; nofun)), tail⟩
      · simp only [number, Bool.false_eq_true, if_false, Bool.not_true,
          Bool.and_false] at afterSign
        obtain ⟨value, s₃, failed, -⟩ := StateT.run_bind_eq_ok.mp afterSign
        exact absurd failed (failAt_run_ne_ok _ _ _ _)
    · simp only [negative, Bool.false_eq_true, if_false] at afterFirst
      obtain ⟨tok, s₂, pureRun, afterSign⟩ := StateT.run_bind_eq_ok.mp afterFirst
      simp only [StateT.run_pure_except, Except.ok.injEq, Prod.mk.injEq] at pureRun
      obtain ⟨same, moved⟩ := pureRun
      subst same moved
      by_cases number : (first.kind == .number) = true
      · -- a number
        simp only [number, if_true] at afterSign
        obtain ⟨v, s₃, numberRun, afterNumber⟩ := StateT.run_bind_eq_ok.mp afterSign
        obtain ⟨value, s₄, pureRun, tail⟩ := StateT.run_bind_eq_ok.mp afterNumber
        obtain ⟨readable, same⟩ := numberOf_run_ok.mp numberRun
        simp only [StateT.run_pure_except, Except.ok.injEq, Prod.mk.injEq] at pureRun
        obtain ⟨made, moved⟩ := pureRun
        subst same moved made
        have kind : first.kind = .number := by simpa using number
        exact ⟨_, _, .number take kind readable, nextToken_advances take (by rw [kind]; nofun),
          tail⟩
      · by_cases text : (first.kind == .string) = true
        · -- a text
          simp only [number, text, Bool.false_eq_true, if_false, if_true, Bool.not_false,
            Bool.and_true] at afterSign
          obtain ⟨value, s₄, pureRun, tail⟩ := StateT.run_bind_eq_ok.mp afterSign
          simp only [StateT.run_pure_except, Except.ok.injEq, Prod.mk.injEq] at pureRun
          obtain ⟨made, moved⟩ := pureRun
          subst moved made
          have kind : first.kind = .string := by simpa using text
          exact ⟨_, _, .text take kind, nextToken_advances take (by rw [kind]; nofun), tail⟩
        · simp only [number, text, Bool.false_eq_true, if_false, Bool.false_and] at afterSign
          obtain ⟨value, s₃, failed, -⟩ := StateT.run_bind_eq_ok.mp afterSign
          exact absurd failed (failAt_run_ne_ok _ _ _ _)
  step_complete n acc s a s₁ r s' constant _ _ tail := by
    cases constant with
    | number take kind readable =>
      refine StateT.run_bind_eq_ok.mpr ⟨_, s₁, take, ?_⟩
      dsimp only
      simp only [Token.isA_symbol_of_kind kind nofun, Bool.false_eq_true, if_false]
      refine StateT.run_bind_eq_ok.mpr ⟨_, s₁, rfl, ?_⟩
      simp only [kind, beq_self_eq_true, if_true]
      exact StateT.run_bind_eq_ok.mpr ⟨_, s₁, numberOf_run_ok.mpr ⟨readable, rfl⟩,
        StateT.run_bind_eq_ok.mpr ⟨_, s₁, rfl, tail⟩⟩
    | negative first isSign take kind readable =>
      refine StateT.run_bind_eq_ok.mpr ⟨_, _, first, ?_⟩
      dsimp only
      simp only [isSign, if_true]
      refine StateT.run_bind_eq_ok.mpr ⟨_, s₁, take, ?_⟩
      simp only [kind, beq_self_eq_true, if_true]
      exact StateT.run_bind_eq_ok.mpr ⟨_, s₁, numberOf_run_ok.mpr ⟨readable, rfl⟩,
        StateT.run_bind_eq_ok.mpr ⟨_, s₁, rfl, tail⟩⟩
    | text take kind =>
      refine StateT.run_bind_eq_ok.mpr ⟨_, s₁, take, ?_⟩
      dsimp only
      simp only [Token.isA_symbol_of_kind kind nofun, Bool.false_eq_true, if_false]
      refine StateT.run_bind_eq_ok.mpr ⟨_, s₁, rfl, ?_⟩
      simp only [kind, beq_self_eq_true, Bool.not_false, Bool.and_self, if_true]
      exact StateT.run_bind_eq_ok.mpr ⟨_, s₁, rfl, tail⟩
  advances s a s₁ constant := by
    cases constant with
    | number take kind => exact nextToken_advances take (by rw [kind]; nofun)
    | negative first isSign take kind =>
      exact (nextToken_advances first (Token.real_of_isA isSign nofun)).trans
        (nextToken_advances take (by rw [kind]; nofun))
    | text take kind => exact nextToken_advances take (by rw [kind]; nofun)

/-! ## `PRINT` items -/

/-- What the `PRINT` loop returns when, after the items `acc` (newest first), it reads
`items`: a space joins an expression at the end of `acc` to one that starts `items`. -/
def attachItems (acc items : List PrintItem) : List PrintItem :=
  match acc with
  | .expr _ :: _ => acc.reverse ++ spaced items
  | _ => acc.reverse ++ items

@[simp] theorem attachItems_nil_left (items : List PrintItem) : attachItems [] items = items := by
  simp [attachItems]

@[simp] theorem attachItems_nil_right (acc : List PrintItem) : attachItems acc [] = acc.reverse := by
  unfold attachItems
  split <;> simp [spaced]

/-- A separator item moves from what is read to what was read. -/
theorem attachItems_separator (x : PrintItem) (notExpr : ∀ e, x ≠ .expr e)
    (acc items : List PrintItem) : attachItems (x :: acc) items = attachItems acc (x :: items) := by
  rcases acc with _ | ⟨y, acc⟩
  · cases x <;> simp_all [attachItems]
  · cases y <;> cases x <;> simp_all [attachItems, spaced]

/-- An expression moves from what is read to what was read, with the space before it: the
items read so far are kept newest first, so `spaced` puts the space after the expression
before. -/
theorem attachItems_expr (e : Expr) (acc items : List PrintItem) :
    attachItems (.expr e :: spaced acc) items = attachItems acc (.expr e :: spaced items) := by
  rcases acc with _ | ⟨y, acc⟩
  · simp [attachItems, spaced]
  · cases y <;> simp [attachItems, spaced]

theorem Token.isA_other {tok : Token} {k : TokenKind} {x y : String} (isA : tok.isA k x = true)
    (other : x ≠ y) : tok.isA k y = false := by
  obtain ⟨-, text⟩ := Token.isA_eq_true.mp isA
  simp [Token.isA, text, other]

theorem endsStatement_of_symbol {tok : Token} {x : String} (isA : tok.isA .symbol x = true)
    (notColon : x ≠ ":") : endsStatement tok = false := by
  obtain ⟨kind, text⟩ := Token.isA_eq_true.mp isA
  simp [endsStatement, Token.isA, kind, text, notColon]

/-- A successful `PRINT` loop has read items of the grammar. -/
theorem printItems_sound {n : Nat} :
    ∀ {acc s r s'}, (printItems n acc).run s = .ok (r, s') →
      ∃ items, PrintText s items s' ∧ r = attachItems acc items ∧ s.Keeps s' := by
  induction n with
  | zero =>
    intro acc s r s' run
    exact absurd run (outOfFuel_run_ne_ok _ _)
  | succ n ih =>
    intro acc s r s' run
    obtain ⟨tok, s₁, peek, afterPeek⟩ := StateT.run_bind_eq_ok.mp run
    by_cases ends : endsStatement tok = true
    · -- the end of the statement
      simp only [ends, if_true] at afterPeek
      obtain ⟨rfl, rfl⟩ := ParseM.run_pure_eq_ok.mp afterPeek
      exact ⟨[], .stop peek ends, by simp, peekToken_keeps peek⟩
    simp only [ends, Bool.false_eq_true, if_false] at afterPeek
    by_cases semicolon : tok.isA .symbol ";" = true
    · simp only [semicolon, if_true] at afterPeek
      obtain ⟨tok', s₂, take, restRun⟩ := StateT.run_bind_eq_ok.mp afterPeek
      obtain ⟨same, -⟩ := nextToken_after_peek peek take
      subst same
      obtain ⟨items, printed, made, keeps⟩ := ih restRun
      refine ⟨.semicolon :: items, .semicolon peek semicolon take printed, ?_,
        (peekToken_keeps peek).trans ((nextToken_keeps take).trans keeps)⟩
      rw [made, attachItems_separator .semicolon (by simp)]
    simp only [semicolon, Bool.false_eq_true, if_false] at afterPeek
    by_cases comma : tok.isA .symbol "," = true
    · simp only [comma, if_true] at afterPeek
      obtain ⟨tok', s₂, take, restRun⟩ := StateT.run_bind_eq_ok.mp afterPeek
      obtain ⟨same, -⟩ := nextToken_after_peek peek take
      subst same
      obtain ⟨items, printed, made, keeps⟩ := ih restRun
      refine ⟨.comma :: items, .comma peek comma take printed, ?_,
        (peekToken_keeps peek).trans ((nextToken_keeps take).trans keeps)⟩
      rw [made, attachItems_separator .comma (by simp)]
    -- an expression, after a space when it follows one
    simp only [comma, Bool.false_eq_true, if_false] at afterPeek
    obtain ⟨e, s₂, exprRun, restRun⟩ := StateT.run_bind_eq_ok.mp afterPeek
    obtain ⟨value, moved⟩ := exprText_of_run exprRun
    obtain ⟨items, printed, made, keeps⟩ := ih restRun
    refine ⟨.expr e :: spaced items,
      .expr peek (by simpa using ends) (by simpa using semicolon) (by simpa using comma) value
        printed, ?_, (peekToken_keeps peek).trans (moved.trans_keeps keeps).keeps⟩
    rw [made, ← attachItems_expr]
    -- the parser puts the space in with a match of its own: it is `spaced`
    congr 2
    rcases acc with _ | ⟨y, acc⟩
    · rfl
    · cases y <;> rfl

/-- The items of a `PRINT` statement are what the loop reads, given the fuel. -/
theorem PrintText.run {s : ParserState} {items : List PrintItem} {s' : ParserState}
    (printed : PrintText s items s') :
    ∀ {n acc}, s.Sane → 4 * s.unread + 5 ≤ n →
      (printItems n acc).run s = .ok (attachItems acc items, s') := by
  induction printed with
  | stop peek ends =>
    intro n acc sane enough
    obtain ⟨m, rfl⟩ : ∃ m, n = m + 1 := ⟨n - 1, by omega⟩
    exact StateT.run_bind_eq_ok.mpr ⟨_, _, peek, by simp [ends]⟩
  | semicolon peek isSemicolon take rest ih =>
    intro n acc sane enough
    obtain ⟨m, rfl⟩ : ∃ m, n = m + 1 := ⟨n - 1, by omega⟩
    obtain ⟨sane₁, le₁⟩ := peekToken_keeps peek sane
    obtain ⟨sane₂, lt₂⟩ := nextToken_advances take (Token.real_of_isA isSemicolon nofun) sane₁
    refine StateT.run_bind_eq_ok.mpr ⟨_, _, peek, ?_⟩
    simp only [endsStatement_of_symbol isSemicolon (by decide), isSemicolon, Bool.false_eq_true,
      if_false, if_true]
    rw [← attachItems_separator .semicolon (by simp)]
    exact StateT.run_bind_eq_ok.mpr ⟨_, _, take, ih sane₂ (by omega)⟩
  | comma peek isComma take rest ih =>
    intro n acc sane enough
    obtain ⟨m, rfl⟩ : ∃ m, n = m + 1 := ⟨n - 1, by omega⟩
    obtain ⟨sane₁, le₁⟩ := peekToken_keeps peek sane
    obtain ⟨sane₂, lt₂⟩ := nextToken_advances take (Token.real_of_isA isComma nofun) sane₁
    refine StateT.run_bind_eq_ok.mpr ⟨_, _, peek, ?_⟩
    simp only [endsStatement_of_symbol isComma (by decide), Token.isA_other (y := ";") isComma (by decide),
      isComma, Bool.false_eq_true, if_false, if_true]
    rw [← attachItems_separator .comma (by simp)]
    exact StateT.run_bind_eq_ok.mpr ⟨_, _, take, ih sane₂ (by omega)⟩
  | @expr s tok s₁ e s₂ items s' peek notEnd notSemicolon notComma value rest ih =>
    intro n acc sane enough
    obtain ⟨m, rfl⟩ : ∃ m, n = m + 1 := ⟨n - 1, by omega⟩
    obtain ⟨sane₁, le₁⟩ := peekToken_keeps peek sane
    obtain ⟨sane₂, lt₂⟩ := value.advances sane₁
    have restRun : (printItems m (.expr e :: spaced acc)).run s₂ =
        .ok (attachItems (.expr e :: spaced acc) items, s') := ih sane₂ (by omega)
    rw [attachItems_expr] at restRun
    refine StateT.run_bind_eq_ok.mpr ⟨_, _, peek, ?_⟩
    simp only [notEnd, notSemicolon, notComma, Bool.false_eq_true, if_false]
    refine StateT.run_bind_eq_ok.mpr ⟨e, s₂, value.run sane₁ (by omega), ?_⟩
    -- the parser's own match puts the space in as `spaced` does
    rcases acc with _ | ⟨y, acc⟩
    · exact restRun
    · cases y <;> exact restRun

/-- The items of a `PRINT` statement leave no more to read. -/
theorem PrintText.keeps {s : ParserState} {items : List PrintItem} {s' : ParserState}
    (printed : PrintText s items s') : s.Keeps s' := by
  intro sane
  have run : (printItems (4 * s.unread + 5) []).run s = .ok (attachItems [] items, s') :=
    printed.run sane (Nat.le_refl _)
  obtain ⟨-, -, -, keeps⟩ := printItems_sound run
  exact keeps sane

end BasicJvm.Syntax
