import BasicJvm.Proofs.Syntax.Reading

/-!
# Reading statements

`statement` against `StmtText`, in both directions:

* `statement_sound`: a successful run has read a statement of the grammar.  The proof follows
  the parser: the first token is a name (an assignment) or a keyword, and the keyword selects
  one branch, taken apart bind by bind.
* `StmtText.advances`: a statement always reads past its first token and never back.
* `StmtText.run`: what the grammar derives the parser reads, once the fuel is at least four
  times what is left to read plus three.  The induction is on the derivation; only `IF … THEN`
  with a statement after it uses the hypothesis, on a state with less left to read.
-/

namespace BasicJvm.Syntax

open BasicJvm.Source BasicJvm.Number

/-! ## Assignments -/

section Assignments

variable {n : Nat} {name : Token} {s : ParserState} {st : Stmt} {s' : ParserState}

theorem assignment_sound (run : (assignment n name).run s = .ok (st, s')) :
    AssignText name s st s' := by
  obtain ⟨v, s₁, referenceRun, rest⟩ := StateT.run_bind_eq_ok.mp run
  obtain ⟨eq, s₂, eqRun, rest⟩ := StateT.run_bind_eq_ok.mp rest
  obtain ⟨value, s₃, valueRun, rest⟩ := StateT.run_bind_eq_ok.mp rest
  obtain ⟨idx, indexed, rfl, -⟩ := indexText_of_run referenceRun
  by_cases mismatch : (value.type != (⟨name.text, idx⟩ : Variable).type) = true
  · simp only [mismatch, if_true] at rest
    exact absurd rest (failAt_run_ne_ok _ _ _ _)
  simp only [mismatch, Bool.false_eq_true, if_false] at rest
  obtain ⟨rfl, rfl⟩ := ParseM.run_pure_eq_ok.mp rest
  exact ⟨idx, s₁, s₂, value, indexed, expectToken_iff_expect.mp ⟨eq, eqRun⟩,
    (exprText_of_run valueRun).1, by simpa [Variable.type] using mismatch, rfl⟩

theorem AssignText.advances (body : AssignText name s st s') : s.Advances s' := by
  obtain ⟨idx, s₁, s₂, value, indexed, eq, valued, -, -⟩ := body
  exact (indexed.keeps.trans_advances (eq.advances nofun)).trans valued.advances

theorem AssignText.run (body : AssignText name s st s') (sane : s.Sane)
    (enough : 4 * s.unread + 6 ≤ n) : (assignment n name).run s = .ok (st, s') := by
  obtain ⟨idx, s₁, s₂, value, indexed, eq, valued, typed, rfl⟩ := body
  obtain ⟨sane₁, le₁⟩ := indexed.keeps sane
  obtain ⟨sane₂, lt₂⟩ := eq.advances nofun sane₁
  obtain ⟨eqTok, eqRun⟩ := expectToken_iff_expect.mpr eq
  refine StateT.run_bind_eq_ok.mpr ⟨_, s₁, indexed.run sane enough, ?_⟩
  refine StateT.run_bind_eq_ok.mpr ⟨eqTok, s₂, eqRun, ?_⟩
  refine StateT.run_bind_eq_ok.mpr ⟨value, s', valued.run sane₂ (by omega), ?_⟩
  simp [Variable.type, typed]

end Assignments

/-- A loop over a list separated by commas, started with nothing read, reads the list. -/
theorem CommaLoop.sound_nil {α : Type} {loop : Nat → List α → ParseM (List α)}
    {item : ParserState → α → ParserState → Prop} {need n : Nat} (L : CommaLoop loop item need)
    {s : ParserState} {r : List α} {s' : ParserState} (run : (loop n []).run s = .ok (r, s')) :
    CommaList item s r s' := by
  obtain ⟨as, listed, made, -⟩ := L.sound run
  rw [made, List.reverse_nil, List.nil_append]
  exact listed

theorem keyword_beq_name : (TokenKind.keyword == TokenKind.name) = false := rfl

theorem Expect.token {k : TokenKind} {x : String} {s s' : ParserState} (word : Expect k x s s') :
    ∃ tok, nextToken.run s = .ok (tok, s') ∧ tok.kind = k ∧ tok.text = x := by
  obtain ⟨tok, take, isA⟩ := word
  exact ⟨tok, take, Token.isA_eq_true.mp isA⟩

/-! ## Soundness -/

/-- A successful statement has read a statement of the grammar. -/
theorem statement_sound {n : Nat} :
    ∀ {s st s'}, (statement n).run s = .ok (st, s') → StmtText s st s' := by
  induction n with
  | zero =>
    intro s st s' run
    exact absurd run (outOfFuel_run_ne_ok _ _)
  | succ n ih =>
    intro s st s' run
    obtain ⟨tok, s₁, take, rest⟩ := StateT.run_bind_eq_ok.mp run
    by_cases name : (tok.kind == .name) = true
    · -- an assignment without `LET`
      simp only [name, if_true] at rest
      exact .assign take (by simpa using name) (assignment_sound rest)
    simp only [name, Bool.false_eq_true, if_false] at rest
    by_cases notKeyword : (tok.kind != .keyword) = true
    · simp only [notKeyword, if_true] at rest
      exact absurd rest (failAt_run_ne_ok _ _ _ _)
    simp only [notKeyword, Bool.false_eq_true, if_false] at rest
    have word : ∀ {x}, tok.text = x → Expect .keyword x s s₁ := fun text =>
      ⟨tok, take, Token.isA_eq_true.mpr ⟨by simpa using notKeyword, text⟩⟩
    -- one case per keyword, in the parser's order
    split at rest
    next _ text => -- PRINT
      obtain ⟨r, itemsRun, rfl⟩ := ParseM.run_bind_pure_eq_ok.mp rest
      obtain ⟨items, printed, made, -⟩ := printItems_sound itemsRun
      rw [attachItems_nil_left] at made
      subst made
      exact .print (word text) printed
    next _ text => -- GO TO, GO SUB
      obtain ⟨t, s₂, take₂, rest⟩ := StateT.run_bind_eq_ok.mp rest
      by_cases isTo : t.isA .keyword "TO" = true
      · simp only [isTo, if_true] at rest
        obtain ⟨label, target, rfl⟩ := ParseM.run_bind_pure_eq_ok.mp rest
        exact .goto (word text) ⟨t, take₂, isTo⟩ (parseTarget_run_ok.mp target)
      simp only [isTo, Bool.false_eq_true, if_false] at rest
      by_cases isSub : t.isA .keyword "SUB" = true
      · simp only [isSub, if_true] at rest
        obtain ⟨label, target, rfl⟩ := ParseM.run_bind_pure_eq_ok.mp rest
        exact .gosub (word text) ⟨t, take₂, isSub⟩ (parseTarget_run_ok.mp target)
      simp only [isSub, Bool.false_eq_true, if_false] at rest
      exact absurd rest (failAt_run_ne_ok _ _ _ _)
    next _ text => -- ON
      obtain ⟨e, s₂, selectorRun, rest⟩ := StateT.run_bind_eq_ok.mp rest
      obtain ⟨go, s₃, goRun, rest⟩ := StateT.run_bind_eq_ok.mp rest
      obtain ⟨toTok, s₄, toRun, rest⟩ := StateT.run_bind_eq_ok.mp rest
      obtain ⟨labels, listRun, rfl⟩ := ParseM.run_bind_pure_eq_ok.mp rest
      exact .onGoto (word text) (numericText_of_run selectorRun).1
        (expectToken_iff_expect.mp ⟨go, goRun⟩) (expectToken_iff_expect.mp ⟨toTok, toRun⟩)
        (labelList_commaLoop.sound_nil listRun)
    next _ text => -- RETURN
      obtain ⟨rfl, rfl⟩ := ParseM.run_pure_eq_ok.mp rest
      exact .ret (word text)
    next _ text => -- END
      obtain ⟨rfl, rfl⟩ := ParseM.run_pure_eq_ok.mp rest
      exact .finish (word text)
    next _ text => -- STOP
      obtain ⟨rfl, rfl⟩ := ParseM.run_pure_eq_ok.mp rest
      exact .stop (word text)
    next _ text => -- IF
      obtain ⟨cond, s₂, testRun, rest⟩ := StateT.run_bind_eq_ok.mp rest
      obtain ⟨thenTok, s₃, thenRun, rest⟩ := StateT.run_bind_eq_ok.mp rest
      obtain ⟨t, s₄, peek, rest⟩ := StateT.run_bind_eq_ok.mp rest
      have test := (numericText_of_run testRun).1
      have thenWord := expectToken_iff_expect.mp ⟨thenTok, thenRun⟩
      by_cases number : (t.kind == .number) = true
      · -- a line number after `THEN` is a jump
        simp only [number, if_true] at rest
        obtain ⟨label, target, rfl⟩ := ParseM.run_bind_pure_eq_ok.mp rest
        exact .ifGoto (word text) test thenWord peek (by simpa using number)
          (parseTarget_run_ok.mp target)
      · simp only [number, Bool.false_eq_true, if_false] at rest
        obtain ⟨body, innerRun, rfl⟩ := ParseM.run_bind_pure_eq_ok.mp rest
        exact .ifThen (word text) test thenWord peek (by simpa using number) (ih innerRun)
    next _ text => -- LET
      obtain ⟨target, s₂, take₂, rest⟩ := StateT.run_bind_eq_ok.mp rest
      by_cases notName : (target.kind != .name) = true
      · simp only [notName, if_true] at rest
        exact absurd rest (failAt_run_ne_ok _ _ _ _)
      simp only [notName, Bool.false_eq_true, if_false] at rest
      exact .letAssign (word text) take₂ (by simpa using notName) (assignment_sound rest)
    next _ text => -- DIM
      obtain ⟨arrays, listRun, rfl⟩ := ParseM.run_bind_pure_eq_ok.mp rest
      exact .dim (word text) (dimArrays_commaLoop.sound_nil listRun)
    next _ text => -- FOR
      obtain ⟨counter, s₂, take₂, rest⟩ := StateT.run_bind_eq_ok.mp rest
      by_cases bad : (counter.kind != .name || ValueType.ofName counter.text != .number) = true
      · simp only [bad, if_true] at rest
        exact absurd rest (failAt_run_ne_ok _ _ _ _)
      simp only [bad, Bool.false_eq_true, if_false] at rest
      have good : counter.kind = .name ∧ ValueType.ofName counter.text = .number := by
        simpa using bad
      obtain ⟨eq, s₃, eqRun, rest⟩ := StateT.run_bind_eq_ok.mp rest
      obtain ⟨start, s₄, startRun, rest⟩ := StateT.run_bind_eq_ok.mp rest
      obtain ⟨toTok, s₅, toRun, rest⟩ := StateT.run_bind_eq_ok.mp rest
      obtain ⟨limit, s₆, limitRun, rest⟩ := StateT.run_bind_eq_ok.mp rest
      obtain ⟨t, s₇, peek, rest⟩ := StateT.run_bind_eq_ok.mp rest
      by_cases isStep : t.isA .keyword "STEP" = true
      · simp only [isStep, if_true] at rest
        obtain ⟨t', s₈, stepTake, rest⟩ := StateT.run_bind_eq_ok.mp rest
        obtain ⟨step, stepRun, rfl⟩ := ParseM.run_bind_pure_eq_ok.mp rest
        obtain ⟨same, -⟩ := nextToken_after_peek peek stepTake
        subst same
        exact .forStep (word text) take₂ good.1 good.2 (expectToken_iff_expect.mp ⟨eq, eqRun⟩)
          (numericText_of_run startRun).1 (expectToken_iff_expect.mp ⟨toTok, toRun⟩)
          (numericText_of_run limitRun).1 peek isStep stepTake (numericText_of_run stepRun).1
      · simp only [isStep, Bool.false_eq_true, if_false] at rest
        obtain ⟨rfl, rfl⟩ := ParseM.run_pure_eq_ok.mp rest
        exact .forLoop (word text) take₂ good.1 good.2 (expectToken_iff_expect.mp ⟨eq, eqRun⟩)
          (numericText_of_run startRun).1 (expectToken_iff_expect.mp ⟨toTok, toRun⟩)
          (numericText_of_run limitRun).1 peek (by simpa using isStep)
    next _ text => -- NEXT
      obtain ⟨t, s₂, peek, rest⟩ := StateT.run_bind_eq_ok.mp rest
      by_cases ends : endsStatement t = true
      · simp only [ends, if_true] at rest
        obtain ⟨rfl, rfl⟩ := ParseM.run_pure_eq_ok.mp rest
        exact .nextAll (word text) peek ends
      · simp only [ends, Bool.false_eq_true, if_false] at rest
        obtain ⟨xs, listRun, rfl⟩ := ParseM.run_bind_pure_eq_ok.mp rest
        exact .next (word text) peek (by simpa using ends) (nextVars_commaLoop.sound_nil listRun)
    next _ text => -- INPUT
      obtain ⟨t, s₂, peek, rest⟩ := StateT.run_bind_eq_ok.mp rest
      by_cases isString : (t.kind == .string) = true
      · -- a prompt, then a semicolon
        simp only [isString, if_true, pure_bind] at rest
        obtain ⟨t', s₃, promptTake, rest⟩ := StateT.run_bind_eq_ok.mp rest
        obtain ⟨semicolon, s₄, semicolonRun, rest⟩ := StateT.run_bind_eq_ok.mp rest
        obtain ⟨vs, listRun, rfl⟩ := ParseM.run_bind_pure_eq_ok.mp rest
        obtain ⟨same, -⟩ := nextToken_after_peek peek promptTake
        subst same
        exact .inputPrompt (word text) peek (by simpa using isString) promptTake
          (expectToken_iff_expect.mp ⟨semicolon, semicolonRun⟩)
          (variableList_commaLoop.sound_nil listRun)
      · simp only [isString, Bool.false_eq_true, if_false, pure_bind] at rest
        obtain ⟨vs, listRun, rfl⟩ := ParseM.run_bind_pure_eq_ok.mp rest
        exact .input (word text) peek (by simpa using isString)
          (variableList_commaLoop.sound_nil listRun)
    next _ text => -- DATA
      obtain ⟨values, listRun, rfl⟩ := ParseM.run_bind_pure_eq_ok.mp rest
      exact .data (word text) (dataValues_commaLoop.sound_nil listRun)
    next _ text => -- READ
      obtain ⟨vs, listRun, rfl⟩ := ParseM.run_bind_pure_eq_ok.mp rest
      exact .read (word text) (variableList_commaLoop.sound_nil listRun)
    next _ text => -- RESTORE
      obtain ⟨t, s₂, peek, rest⟩ := StateT.run_bind_eq_ok.mp rest
      by_cases ends : endsStatement t = true
      · simp only [ends, if_true] at rest
        obtain ⟨rfl, rfl⟩ := ParseM.run_pure_eq_ok.mp rest
        exact .restoreAll (word text) peek ends
      · simp only [ends, Bool.false_eq_true, if_false] at rest
        obtain ⟨label, target, rfl⟩ := ParseM.run_bind_pure_eq_ok.mp rest
        exact .restore (word text) peek (by simpa using ends) (parseTarget_run_ok.mp target)
    next _ text => -- REM
      obtain ⟨remark, remarkRun, rfl⟩ := ParseM.run_bind_pure_eq_ok.mp rest
      exact .rem (word text) remarkRun
    next => -- any other keyword
      exact absurd rest (failAt_run_ne_ok _ _ _ _)

/-! ## Progress -/

/-- A statement reads past its first token, and never back. -/
theorem StmtText.advances {s : ParserState} {st : Stmt} {s' : ParserState}
    (read : StmtText s st s') : s.Advances s' := by
  induction read with
  | assign take kind body =>
    exact (nextToken_advances take (by rw [kind]; nofun)).trans body.advances
  | letAssign word take kind body =>
    exact (word.advances nofun).trans
      ((nextToken_advances take (by rw [kind]; nofun)).trans body.advances)
  | print word body => exact (word.advances nofun).trans_keeps body.keeps
  | goto word toWord target =>
    exact ((word.advances nofun).trans (toWord.advances nofun)).trans target.advances
  | gosub word subWord target =>
    exact ((word.advances nofun).trans (subWord.advances nofun)).trans target.advances
  | onGoto word selector goWord toWord targets =>
    exact ((((word.advances nofun).trans selector.advances).trans (goWord.advances nofun)).trans
      (toWord.advances nofun)).trans (labelList_commaLoop.advances_list targets)
  | ret word | finish word | stop word => exact word.advances nofun
  | ifGoto word test thenWord peek _ target =>
    exact ((((word.advances nofun).trans test.advances).trans (thenWord.advances nofun)).trans_keeps
      (peekToken_keeps peek)).trans target.advances
  | ifThen word test thenWord peek _ _ ih =>
    exact ((((word.advances nofun).trans test.advances).trans (thenWord.advances nofun)).trans_keeps
      (peekToken_keeps peek)).trans ih
  | dim word body => exact (word.advances nofun).trans (dimArrays_commaLoop.advances_list body)
  | forLoop word take kind _ eq first toWord bound peek _ =>
    exact ((((((word.advances nofun).trans (nextToken_advances take (by rw [kind]; nofun))).trans
      (eq.advances nofun)).trans first.advances).trans (toWord.advances nofun)).trans
      bound.advances).trans_keeps (peekToken_keeps peek)
  | forStep word take kind _ eq first toWord bound peek isStep stepWord increment =>
    exact (((((((word.advances nofun).trans (nextToken_advances take (by rw [kind]; nofun))).trans
      (eq.advances nofun)).trans first.advances).trans (toWord.advances nofun)).trans
      bound.advances).trans_keeps ((peekToken_keeps peek).trans (nextToken_keeps stepWord))).trans
      increment.advances
  | nextAll word peek _ => exact (word.advances nofun).trans_keeps (peekToken_keeps peek)
  | next word peek _ counters =>
    exact ((word.advances nofun).trans_keeps (peekToken_keeps peek)).trans
      (nextVars_commaLoop.advances_list counters)
  | input word peek _ targets =>
    exact ((word.advances nofun).trans_keeps (peekToken_keeps peek)).trans
      (variableList_commaLoop.advances_list targets)
  | inputPrompt word peek _ take semicolon targets =>
    exact ((((word.advances nofun).trans_keeps ((peekToken_keeps peek).trans
      (nextToken_keeps take))).trans (semicolon.advances nofun))).trans
      (variableList_commaLoop.advances_list targets)
  | data word body => exact (word.advances nofun).trans (dataValues_commaLoop.advances_list body)
  | read word targets =>
    exact (word.advances nofun).trans (variableList_commaLoop.advances_list targets)
  | restoreAll word peek _ => exact (word.advances nofun).trans_keeps (peekToken_keeps peek)
  | restore word peek _ target =>
    exact ((word.advances nofun).trans_keeps (peekToken_keeps peek)).trans target.advances
  | rem word rest => exact (word.advances nofun).trans_keeps (restOfLine_keeps rest)

/-! ## Completeness -/

/-- What the grammar derives as a statement the parser reads, with one step of fuel taken. -/
theorem StmtText.run_succ {s : ParserState} {st : Stmt} {s' : ParserState}
    (read : StmtText s st s') :
    ∀ {m}, s.Sane → 4 * s.unread + 2 ≤ m → (statement (m + 1)).run s = .ok (st, s') := by
  induction read with
  | assign take kind body =>
    intro m sane enough
    obtain ⟨sane₁, lt₁⟩ := nextToken_advances take (by rw [kind]; nofun) sane
    refine StateT.run_bind_eq_ok.mpr ⟨_, _, take, ?_⟩
    simp only [kind, beq_self_eq_true, if_true]
    exact body.run sane₁ (by omega)
  | letAssign word take kind body =>
    intro m sane enough
    obtain ⟨tok, first, isKeyword, text⟩ := word.token
    obtain ⟨sane₁, lt₁⟩ := word.advances nofun sane
    obtain ⟨sane₂, lt₂⟩ := nextToken_advances take (by rw [kind]; nofun) sane₁
    refine StateT.run_bind_eq_ok.mpr ⟨tok, _, first, ?_⟩
    simp only [isKeyword, text, keyword_beq_name, bne_self_eq_false, Bool.false_eq_true, if_false]
    refine StateT.run_bind_eq_ok.mpr ⟨_, _, take, ?_⟩
    simp only [kind, bne_self_eq_false, Bool.false_eq_true, if_false]
    exact body.run sane₂ (by omega)
  | print word body =>
    intro m sane enough
    obtain ⟨tok, first, isKeyword, text⟩ := word.token
    obtain ⟨sane₁, lt₁⟩ := word.advances nofun sane
    refine StateT.run_bind_eq_ok.mpr ⟨tok, _, first, ?_⟩
    simp only [isKeyword, text, keyword_beq_name, bne_self_eq_false, Bool.false_eq_true, if_false]
    exact ParseM.run_bind_pure_eq_ok.mpr ⟨_, body.run sane₁ (by omega), by simp⟩
  | goto word toWord target =>
    intro m sane enough
    obtain ⟨tok, first, isKeyword, text⟩ := word.token
    obtain ⟨t, second, isTo⟩ := toWord
    refine StateT.run_bind_eq_ok.mpr ⟨tok, _, first, ?_⟩
    simp only [isKeyword, text, keyword_beq_name, bne_self_eq_false, Bool.false_eq_true, if_false]
    refine StateT.run_bind_eq_ok.mpr ⟨t, _, second, ?_⟩
    simp only [isTo, if_true]
    exact ParseM.run_bind_pure_eq_ok.mpr ⟨_, parseTarget_run_ok.mpr target, rfl⟩
  | gosub word subWord target =>
    intro m sane enough
    obtain ⟨tok, first, isKeyword, text⟩ := word.token
    obtain ⟨t, second, isSub⟩ := subWord
    refine StateT.run_bind_eq_ok.mpr ⟨tok, _, first, ?_⟩
    simp only [isKeyword, text, keyword_beq_name, bne_self_eq_false, Bool.false_eq_true, if_false]
    refine StateT.run_bind_eq_ok.mpr ⟨t, _, second, ?_⟩
    simp only [Token.isA_other (y := "TO") isSub (by decide), isSub, Bool.false_eq_true, if_false,
      if_true]
    exact ParseM.run_bind_pure_eq_ok.mpr ⟨_, parseTarget_run_ok.mpr target, rfl⟩
  | onGoto word selector goWord toWord targets =>
    intro m sane enough
    obtain ⟨tok, first, isKeyword, text⟩ := word.token
    obtain ⟨sane₁, lt₁⟩ := word.advances nofun sane
    obtain ⟨sane₂, lt₂⟩ := selector.advances sane₁
    obtain ⟨sane₃, lt₃⟩ := goWord.advances nofun sane₂
    obtain ⟨sane₄, lt₄⟩ := toWord.advances nofun sane₃
    obtain ⟨go, goRun⟩ := expectToken_iff_expect.mpr goWord
    obtain ⟨toTok, toRun⟩ := expectToken_iff_expect.mpr toWord
    refine StateT.run_bind_eq_ok.mpr ⟨tok, _, first, ?_⟩
    simp only [isKeyword, text, keyword_beq_name, bne_self_eq_false, Bool.false_eq_true, if_false]
    refine StateT.run_bind_eq_ok.mpr ⟨_, _, selector.run sane₁ (by omega), ?_⟩
    refine StateT.run_bind_eq_ok.mpr ⟨go, _, goRun, ?_⟩
    refine StateT.run_bind_eq_ok.mpr ⟨toTok, _, toRun, ?_⟩
    exact ParseM.run_bind_pure_eq_ok.mpr
      ⟨_, labelList_commaLoop.complete (Nat.le_refl 1) targets sane₄ (by omega), by simp⟩
  | ret word | finish word | stop word =>
    intro m sane enough
    obtain ⟨tok, first, isKeyword, text⟩ := word.token
    refine StateT.run_bind_eq_ok.mpr ⟨tok, _, first, ?_⟩
    simp [isKeyword, text, keyword_beq_name]
  | ifGoto word test thenWord peek kind target =>
    intro m sane enough
    obtain ⟨tok, first, isKeyword, text⟩ := word.token
    obtain ⟨sane₁, lt₁⟩ := word.advances nofun sane
    obtain ⟨thenTok, thenRun⟩ := expectToken_iff_expect.mpr thenWord
    refine StateT.run_bind_eq_ok.mpr ⟨tok, _, first, ?_⟩
    simp only [isKeyword, text, keyword_beq_name, bne_self_eq_false, Bool.false_eq_true, if_false]
    refine StateT.run_bind_eq_ok.mpr ⟨_, _, test.run sane₁ (by omega), ?_⟩
    refine StateT.run_bind_eq_ok.mpr ⟨thenTok, _, thenRun, ?_⟩
    refine StateT.run_bind_eq_ok.mpr ⟨_, _, peek, ?_⟩
    simp only [kind, beq_self_eq_true, if_true]
    exact ParseM.run_bind_pure_eq_ok.mpr ⟨_, parseTarget_run_ok.mpr target, rfl⟩
  | ifThen word test thenWord peek kind inner ih =>
    intro m sane enough
    obtain ⟨tok, first, isKeyword, text⟩ := word.token
    obtain ⟨sane₁, lt₁⟩ := word.advances nofun sane
    obtain ⟨sane₂, lt₂⟩ := test.advances sane₁
    obtain ⟨sane₃, lt₃⟩ := thenWord.advances nofun sane₂
    obtain ⟨sane₄, le₄⟩ := peekToken_keeps peek sane₃
    obtain ⟨thenTok, thenRun⟩ := expectToken_iff_expect.mpr thenWord
    refine StateT.run_bind_eq_ok.mpr ⟨tok, _, first, ?_⟩
    simp only [isKeyword, text, keyword_beq_name, bne_self_eq_false, Bool.false_eq_true, if_false]
    refine StateT.run_bind_eq_ok.mpr ⟨_, _, test.run sane₁ (by omega), ?_⟩
    refine StateT.run_bind_eq_ok.mpr ⟨thenTok, _, thenRun, ?_⟩
    refine StateT.run_bind_eq_ok.mpr ⟨_, _, peek, ?_⟩
    simp only [beq_eq_false_iff_ne.mpr kind, Bool.false_eq_true, if_false]
    -- the statement after `THEN` has less left to read, so one step of fuel is to spare
    obtain ⟨k, rfl⟩ : ∃ k, m = k + 1 := ⟨m - 1, by omega⟩
    exact ParseM.run_bind_pure_eq_ok.mpr ⟨_, ih sane₄ (by omega), rfl⟩
  | dim word body =>
    intro m sane enough
    obtain ⟨tok, first, isKeyword, text⟩ := word.token
    obtain ⟨sane₁, lt₁⟩ := word.advances nofun sane
    refine StateT.run_bind_eq_ok.mpr ⟨tok, _, first, ?_⟩
    simp only [isKeyword, text, keyword_beq_name, bne_self_eq_false, Bool.false_eq_true, if_false]
    exact ParseM.run_bind_pure_eq_ok.mpr
      ⟨_, dimArrays_commaLoop.complete (Nat.le_refl 1) body sane₁ (by omega), by simp⟩
  | forLoop word take kind numeric eq first toWord bound peek noStep =>
    intro m sane enough
    obtain ⟨tok, firstTake, isKeyword, text⟩ := word.token
    obtain ⟨sane₁, lt₁⟩ := word.advances nofun sane
    obtain ⟨sane₂, lt₂⟩ := nextToken_advances take (by rw [kind]; nofun) sane₁
    obtain ⟨sane₃, lt₃⟩ := eq.advances nofun sane₂
    obtain ⟨sane₄, lt₄⟩ := first.advances sane₃
    obtain ⟨sane₅, lt₅⟩ := toWord.advances nofun sane₄
    obtain ⟨eqTok, eqRun⟩ := expectToken_iff_expect.mpr eq
    obtain ⟨toTok, toRun⟩ := expectToken_iff_expect.mpr toWord
    refine StateT.run_bind_eq_ok.mpr ⟨tok, _, firstTake, ?_⟩
    simp only [isKeyword, text, keyword_beq_name, bne_self_eq_false, Bool.false_eq_true, if_false]
    refine StateT.run_bind_eq_ok.mpr ⟨_, _, take, ?_⟩
    simp only [kind, numeric, bne_self_eq_false, Bool.or_self, Bool.false_eq_true, if_false]
    refine StateT.run_bind_eq_ok.mpr ⟨eqTok, _, eqRun, ?_⟩
    refine StateT.run_bind_eq_ok.mpr ⟨_, _, first.run sane₃ (by omega), ?_⟩
    refine StateT.run_bind_eq_ok.mpr ⟨toTok, _, toRun, ?_⟩
    refine StateT.run_bind_eq_ok.mpr ⟨_, _, bound.run sane₅ (by omega), ?_⟩
    refine StateT.run_bind_eq_ok.mpr ⟨_, _, peek, ?_⟩
    simp [noStep]
  | forStep word take kind numeric eq first toWord bound peek isStep stepWord increment =>
    intro m sane enough
    obtain ⟨tok, firstTake, isKeyword, text⟩ := word.token
    obtain ⟨sane₁, lt₁⟩ := word.advances nofun sane
    obtain ⟨sane₂, lt₂⟩ := nextToken_advances take (by rw [kind]; nofun) sane₁
    obtain ⟨sane₃, lt₃⟩ := eq.advances nofun sane₂
    obtain ⟨sane₄, lt₄⟩ := first.advances sane₃
    obtain ⟨sane₅, lt₅⟩ := toWord.advances nofun sane₄
    obtain ⟨sane₆, lt₆⟩ := bound.advances sane₅
    obtain ⟨sane₇, le₇⟩ := peekToken_keeps peek sane₆
    obtain ⟨sane₈, le₈⟩ := nextToken_keeps stepWord sane₇
    obtain ⟨eqTok, eqRun⟩ := expectToken_iff_expect.mpr eq
    obtain ⟨toTok, toRun⟩ := expectToken_iff_expect.mpr toWord
    refine StateT.run_bind_eq_ok.mpr ⟨tok, _, firstTake, ?_⟩
    simp only [isKeyword, text, keyword_beq_name, bne_self_eq_false, Bool.false_eq_true, if_false]
    refine StateT.run_bind_eq_ok.mpr ⟨_, _, take, ?_⟩
    simp only [kind, numeric, bne_self_eq_false, Bool.or_self, Bool.false_eq_true, if_false]
    refine StateT.run_bind_eq_ok.mpr ⟨eqTok, _, eqRun, ?_⟩
    refine StateT.run_bind_eq_ok.mpr ⟨_, _, first.run sane₃ (by omega), ?_⟩
    refine StateT.run_bind_eq_ok.mpr ⟨toTok, _, toRun, ?_⟩
    refine StateT.run_bind_eq_ok.mpr ⟨_, _, bound.run sane₅ (by omega), ?_⟩
    refine StateT.run_bind_eq_ok.mpr ⟨_, _, peek, ?_⟩
    simp only [isStep, if_true]
    refine StateT.run_bind_eq_ok.mpr ⟨_, _, stepWord, ?_⟩
    exact ParseM.run_bind_pure_eq_ok.mpr ⟨_, increment.run sane₈ (by omega), rfl⟩
  | nextAll word peek ends =>
    intro m sane enough
    obtain ⟨tok, first, isKeyword, text⟩ := word.token
    refine StateT.run_bind_eq_ok.mpr ⟨tok, _, first, ?_⟩
    simp only [isKeyword, text, keyword_beq_name, bne_self_eq_false, Bool.false_eq_true, if_false]
    refine StateT.run_bind_eq_ok.mpr ⟨_, _, peek, ?_⟩
    simp [ends]
  | next word peek notEnd counters =>
    intro m sane enough
    obtain ⟨tok, first, isKeyword, text⟩ := word.token
    obtain ⟨sane₁, lt₁⟩ := word.advances nofun sane
    obtain ⟨sane₂, le₂⟩ := peekToken_keeps peek sane₁
    refine StateT.run_bind_eq_ok.mpr ⟨tok, _, first, ?_⟩
    simp only [isKeyword, text, keyword_beq_name, bne_self_eq_false, Bool.false_eq_true, if_false]
    refine StateT.run_bind_eq_ok.mpr ⟨_, _, peek, ?_⟩
    simp only [notEnd, Bool.false_eq_true, if_false]
    exact ParseM.run_bind_pure_eq_ok.mpr
      ⟨_, nextVars_commaLoop.complete (Nat.le_refl 1) counters sane₂ (by omega), by simp⟩
  | input word peek noPrompt targets =>
    intro m sane enough
    obtain ⟨tok, first, isKeyword, text⟩ := word.token
    obtain ⟨sane₁, lt₁⟩ := word.advances nofun sane
    obtain ⟨sane₂, le₂⟩ := peekToken_keeps peek sane₁
    refine StateT.run_bind_eq_ok.mpr ⟨tok, _, first, ?_⟩
    simp only [isKeyword, text, keyword_beq_name, bne_self_eq_false, Bool.false_eq_true, if_false]
    refine StateT.run_bind_eq_ok.mpr ⟨_, _, peek, ?_⟩
    simp only [beq_eq_false_iff_ne.mpr noPrompt, Bool.false_eq_true, if_false, pure_bind]
    exact ParseM.run_bind_pure_eq_ok.mpr
      ⟨_, variableList_commaLoop.complete (by decide) targets sane₂ (by omega), by simp⟩
  | inputPrompt word peek prompt take semicolon targets =>
    intro m sane enough
    obtain ⟨tok, first, isKeyword, text⟩ := word.token
    obtain ⟨sane₁, lt₁⟩ := word.advances nofun sane
    obtain ⟨sane₂, le₂⟩ := peekToken_keeps peek sane₁
    obtain ⟨sane₃, le₃⟩ := nextToken_keeps take sane₂
    obtain ⟨sane₄, lt₄⟩ := semicolon.advances nofun sane₃
    obtain ⟨semicolonTok, semicolonRun⟩ := expectToken_iff_expect.mpr semicolon
    refine StateT.run_bind_eq_ok.mpr ⟨tok, _, first, ?_⟩
    simp only [isKeyword, text, keyword_beq_name, bne_self_eq_false, Bool.false_eq_true, if_false]
    refine StateT.run_bind_eq_ok.mpr ⟨_, _, peek, ?_⟩
    simp only [prompt, beq_self_eq_true, if_true, pure_bind]
    refine StateT.run_bind_eq_ok.mpr ⟨_, _, take, ?_⟩
    refine StateT.run_bind_eq_ok.mpr ⟨semicolonTok, _, semicolonRun, ?_⟩
    exact ParseM.run_bind_pure_eq_ok.mpr
      ⟨_, variableList_commaLoop.complete (by decide) targets sane₄ (by omega), by simp⟩
  | data word body =>
    intro m sane enough
    obtain ⟨tok, first, isKeyword, text⟩ := word.token
    obtain ⟨sane₁, lt₁⟩ := word.advances nofun sane
    refine StateT.run_bind_eq_ok.mpr ⟨tok, _, first, ?_⟩
    simp only [isKeyword, text, keyword_beq_name, bne_self_eq_false, Bool.false_eq_true, if_false]
    exact ParseM.run_bind_pure_eq_ok.mpr
      ⟨_, dataValues_commaLoop.complete (Nat.le_refl 1) body sane₁ (by omega), by simp⟩
  | read word targets =>
    intro m sane enough
    obtain ⟨tok, first, isKeyword, text⟩ := word.token
    obtain ⟨sane₁, lt₁⟩ := word.advances nofun sane
    refine StateT.run_bind_eq_ok.mpr ⟨tok, _, first, ?_⟩
    simp only [isKeyword, text, keyword_beq_name, bne_self_eq_false, Bool.false_eq_true, if_false]
    exact ParseM.run_bind_pure_eq_ok.mpr
      ⟨_, variableList_commaLoop.complete (by decide) targets sane₁ (by omega), by simp⟩
  | restoreAll word peek ends =>
    intro m sane enough
    obtain ⟨tok, first, isKeyword, text⟩ := word.token
    refine StateT.run_bind_eq_ok.mpr ⟨tok, _, first, ?_⟩
    simp only [isKeyword, text, keyword_beq_name, bne_self_eq_false, Bool.false_eq_true, if_false]
    refine StateT.run_bind_eq_ok.mpr ⟨_, _, peek, ?_⟩
    simp [ends]
  | restore word peek notEnd target =>
    intro m sane enough
    obtain ⟨tok, first, isKeyword, text⟩ := word.token
    refine StateT.run_bind_eq_ok.mpr ⟨tok, _, first, ?_⟩
    simp only [isKeyword, text, keyword_beq_name, bne_self_eq_false, Bool.false_eq_true, if_false]
    refine StateT.run_bind_eq_ok.mpr ⟨_, _, peek, ?_⟩
    simp only [notEnd, Bool.false_eq_true, if_false]
    exact ParseM.run_bind_pure_eq_ok.mpr ⟨_, parseTarget_run_ok.mpr target, rfl⟩
  | rem word rest =>
    intro m sane enough
    obtain ⟨tok, first, isKeyword, text⟩ := word.token
    refine StateT.run_bind_eq_ok.mpr ⟨tok, _, first, ?_⟩
    simp only [isKeyword, text, keyword_beq_name, bne_self_eq_false, Bool.false_eq_true, if_false]
    exact ParseM.run_bind_pure_eq_ok.mpr ⟨_, rest, rfl⟩

/-- What the grammar derives as a statement the parser reads, given the fuel. -/
theorem StmtText.run {s : ParserState} {st : Stmt} {s' : ParserState} (read : StmtText s st s')
    {n : Nat} (sane : s.Sane) (enough : 4 * s.unread + 3 ≤ n) :
    (statement n).run s = .ok (st, s') := by
  obtain ⟨m, rfl⟩ : ∃ m, n = m + 1 := ⟨n - 1, by omega⟩
  exact read.run_succ sane (by omega)

end BasicJvm.Syntax
