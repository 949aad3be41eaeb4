import BasicJvm.Proofs.Syntax.Commands

/-!
# What `parseProgram` accepts

The whole parser against the grammar of programs:

* `lineStatements_sound`, `LineText.run`: the statements of a line, separated by colons, up to
  the end of the line or of the source.
* `programLines_sound`, `ProgramText.run`: the lines to the end of the source.  The loop
  carries the label numbers read so far; a line whose number is among them stops the parse,
  so what it returns has distinct numbers, and a derivation with distinct numbers is what it
  returns.
* `parseProgram_iff_programText`: `parseProgram` succeeds exactly on the sources the grammar
  derives with distinct label numbers, and returns their lines sorted by number, which is then
  strictly ascending, each label the decimal spelling of a number from 1 to 2^63 - 1.
-/

namespace BasicJvm.Syntax

open BasicJvm.Source BasicJvm.Number

/-! ## Lines -/

/-- A successful line has read statements separated by colons, up to its end. -/
theorem lineStatements_sound {n : Nat} :
    ∀ {acc s r s'}, (lineStatements n acc).run s = .ok (r, s') →
      ∃ sts, LineText s sts s' ∧ r = acc.reverse ++ sts := by
  induction n with
  | zero =>
    intro acc s r s' run
    exact absurd run (outOfFuel_run_ne_ok _ _)
  | succ n ih =>
    intro acc s r s' run
    obtain ⟨st, s₁, stmtRun, rest⟩ := StateT.run_bind_eq_ok.mp run
    obtain ⟨tok, s₂, take, rest⟩ := StateT.run_bind_eq_ok.mp rest
    by_cases colon : tok.isA .symbol ":" = true
    · simp only [colon, if_true] at rest
      obtain ⟨sts, line, made⟩ := ih rest
      exact ⟨st :: sts, .more (statement_sound stmtRun) take colon line, by simp [made]⟩
    simp only [colon, Bool.false_eq_true, if_false] at rest
    by_cases other : (tok.kind != .endOfLine && tok.kind != .endOfFile) = true
    · simp only [other, if_true] at rest
      exact absurd rest (failAt_run_ne_ok _ _ _ _)
    simp only [other, Bool.false_eq_true, if_false] at rest
    obtain ⟨rfl, rfl⟩ := ParseM.run_pure_eq_ok.mp rest
    have ends : tok.kind = .endOfLine ∨ tok.kind = .endOfFile := by
      simp only [Bool.and_eq_true, bne_iff_ne, ne_eq] at other
      tauto
    exact ⟨[st], .last (statement_sound stmtRun) take ends, by simp⟩

/-- A line reads past its first statement, and never back. -/
theorem LineText.advances {s : ParserState} {sts : List Stmt} {s' : ParserState}
    (line : LineText s sts s') : s.Advances s' := by
  induction line with
  | last first take _ => exact first.advances.trans_keeps (nextToken_keeps take)
  | more first take _ _ ih => exact (first.advances.trans_keeps (nextToken_keeps take)).trans ih

/-- The statements of a line are what the loop reads, given the fuel. -/
theorem LineText.run {s : ParserState} {sts : List Stmt} {s' : ParserState}
    (line : LineText s sts s') :
    ∀ {n acc}, s.Sane → 4 * s.unread + 4 ≤ n →
      (lineStatements n acc).run s = .ok (acc.reverse ++ sts, s') := by
  induction line with
  | @last s st s₁ tok s' first take ends =>
    intro n acc sane enough
    obtain ⟨m, rfl⟩ : ∃ m, n = m + 1 := ⟨n - 1, by omega⟩
    refine StateT.run_bind_eq_ok.mpr ⟨_, _, first.run sane (by omega), ?_⟩
    refine StateT.run_bind_eq_ok.mpr ⟨_, _, take, ?_⟩
    rcases ends with eol | eof
    · simp [Token.isA_symbol_of_kind (x := ":") eol nofun, eol]
    · simp [Token.isA_symbol_of_kind (x := ":") eof nofun, eof]
  | more first take colon rest ih =>
    intro n acc sane enough
    obtain ⟨m, rfl⟩ : ∃ m, n = m + 1 := ⟨n - 1, by omega⟩
    obtain ⟨sane₁, lt₁⟩ := first.advances sane
    obtain ⟨sane₂, le₂⟩ := nextToken_keeps take sane₁
    refine StateT.run_bind_eq_ok.mpr ⟨_, _, first.run sane (by omega), ?_⟩
    refine StateT.run_bind_eq_ok.mpr ⟨_, _, take, ?_⟩
    simp only [colon, if_true]
    rw [ih sane₂ (by omega)]
    simp

/-! ## Programs -/

theorem lookup_cons_eq_none {k v x : Nat} {seen : List (Nat × Nat)} :
    ((k, v) :: seen).lookup x = none ↔ x ≠ k ∧ seen.lookup x = none := by
  rw [List.lookup_cons]
  cases h : x == k <;> simp_all

/-- A successful loop over the lines has read lines of the grammar to the end of the source,
with label numbers that differ from each other and from those already seen. -/
theorem programLines_sound {n : Nat} :
    ∀ {seen acc s r s'}, (programLines n seen acc).run s = .ok (r, s') →
      ∃ ls, ProgramText s ls ∧ r = acc.reverse ++ ls ∧ (ls.map Line.number).Nodup ∧
        ∀ l ∈ ls, seen.lookup l.number = none := by
  induction n with
  | zero =>
    intro seen acc s r s' run
    exact absurd run (outOfFuel_run_ne_ok _ _)
  | succ n ih =>
    intro seen acc s r s' run
    obtain ⟨tok, s₁, take, rest⟩ := StateT.run_bind_eq_ok.mp run
    by_cases eof : (tok.kind == .endOfFile) = true
    · simp only [eof, if_true] at rest
      obtain ⟨rfl, -⟩ := ParseM.run_pure_eq_ok.mp rest
      exact ⟨[], .done take (by simpa using eof), by simp, by simp, by simp⟩
    simp only [eof, Bool.false_eq_true, if_false] at rest
    by_cases eol : (tok.kind == .endOfLine) = true
    · -- a blank line
      simp only [eol, if_true] at rest
      obtain ⟨ls, text, made, distinct, fresh⟩ := ih rest
      exact ⟨ls, .blank take (by simpa using eol) text, made, distinct, fresh⟩
    simp only [eol, Bool.false_eq_true, if_false] at rest
    -- a numbered line: its label, checked against those seen, then its statements
    obtain ⟨u, s₂, cleared, afterClear⟩ := StateT.run_bind_eq_ok.mp rest
    obtain ⟨label, s₃, labelRun, afterLabel⟩ := StateT.run_bind_eq_ok.mp afterClear
    obtain ⟨u', s₄, relabelled, afterRelabel⟩ := StateT.run_bind_eq_ok.mp afterLabel
    obtain ⟨labelled, same⟩ := labelOf_run_ok.mp labelRun
    rw [← ParseM.run_modify_eq_ok.mp relabelled, same, ← ParseM.run_modify_eq_ok.mp cleared]
      at afterRelabel
    split at afterRelabel
    · exact absurd afterRelabel (failAt_run_ne_ok _ _ _ _)
    next unseen =>
      obtain ⟨sts, s₅, stmtsRun, rest⟩ := StateT.run_bind_eq_ok.mp afterRelabel
      obtain ⟨sts', line, made⟩ := lineStatements_sound stmtsRun
      rw [List.reverse_nil, List.nil_append] at made
      subst made
      obtain ⟨ls, text, made, distinct, fresh⟩ := ih rest
      refine ⟨_ :: ls, .line take labelled line text, by simp [made], ?_, ?_⟩
      · -- the line's number is not among those of the lines after it
        refine List.nodup_cons.mpr ⟨fun mem => ?_, distinct⟩
        obtain ⟨l, mem, same⟩ := List.mem_map.mp mem
        exact (lookup_cons_eq_none.mp (fresh l mem)).1 same
      · intro l mem
        rcases List.mem_cons.mp mem with rfl | mem
        · exact unseen
        · exact (lookup_cons_eq_none.mp (fresh l mem)).2

/-- A label is read from a number token. -/
theorem Token.kind_of_label {tok : Token} {label : String} (labelled : tok.label? = some label) :
    tok.kind = .number := by
  unfold Token.label? at labelled
  split at labelled
  · next valid => exact valid.1
  · exact absurd labelled nofun

/-- The lines the grammar derives, with label numbers that differ from each other and from
those already seen, are what the loop returns, given the fuel. -/
theorem ProgramText.run {s : ParserState} {ls : List Line} (text : ProgramText s ls) :
    ∀ {n seen acc}, (ls.map Line.number).Nodup → (∀ l ∈ ls, seen.lookup l.number = none) →
      s.Sane → 4 * s.unread + 1 ≤ n →
      ∃ s', (programLines n seen acc).run s = .ok (acc.reverse ++ ls, s') := by
  induction text with
  | @done s tok s' take eof =>
    intro n seen acc _ _ sane enough
    obtain ⟨m, rfl⟩ : ∃ m, n = m + 1 := ⟨n - 1, by omega⟩
    exact ⟨s', StateT.run_bind_eq_ok.mpr ⟨_, _, take, by simp [eof]⟩⟩
  | blank take eol rest ih =>
    intro n seen acc distinct fresh sane enough
    obtain ⟨m, rfl⟩ : ∃ m, n = m + 1 := ⟨n - 1, by omega⟩
    obtain ⟨sane₁, lt₁⟩ := nextToken_advances take (by rw [eol]; nofun) sane
    obtain ⟨s', restRun⟩ := ih (n := m) distinct fresh sane₁ (by omega)
    exact ⟨s', StateT.run_bind_eq_ok.mpr ⟨_, _, take, by simpa [eol] using restRun⟩⟩
  | @line s tok s₁ label sts s₂ ls take labelled stmts rest ih =>
    intro n seen acc distinct fresh sane enough
    obtain ⟨m, rfl⟩ : ∃ m, n = m + 1 := ⟨n - 1, by omega⟩
    have kind := Token.kind_of_label labelled
    obtain ⟨sane₁, lt₁⟩ := nextToken_advances take (by rw [kind]; nofun) sane
    -- the label the state carries plays no part in reading
    have saneLabelled : ({ s₁ with label := label } : ParserState).Sane :=
      ⟨sane₁.pos_le, sane₁.peeked_le, sane₁.peeked_lt⟩
    have unreadLabelled : ({ s₁ with label := label } : ParserState).unread = s₁.unread := rfl
    obtain ⟨sane₂, lt₂⟩ := stmts.advances saneLabelled
    rw [List.map_cons, List.nodup_cons] at distinct
    have unseen : seen.lookup ((decimalValue? label).getD 0) = none :=
      fresh ⟨label, sts, tok.line⟩ List.mem_cons_self
    have fresh' : ∀ l ∈ ls, (((decimalValue? label).getD 0, tok.line) :: seen).lookup l.number = none :=
      fun l mem => lookup_cons_eq_none.mpr ⟨fun same => distinct.1 (List.mem_map.mpr ⟨l, mem, same⟩),
        fresh l (List.mem_cons_of_mem _ mem)⟩
    have restRun : ∃ s', (programLines m (((decimalValue? label).getD 0, tok.line) :: seen)
        (⟨label, sts, tok.line⟩ :: acc)).run s₂ =
          .ok ((⟨label, sts, tok.line⟩ :: acc).reverse ++ ls, s') :=
      ih distinct.2 fresh' sane₂ (by omega)
    obtain ⟨s', restRun⟩ := restRun
    refine ⟨s', StateT.run_bind_eq_ok.mpr ⟨tok, s₁, take, ?_⟩⟩
    simp only [kind]
    refine StateT.run_bind_eq_ok.mpr ⟨(), _, rfl, ?_⟩
    refine StateT.run_bind_eq_ok.mpr ⟨label, _, labelOf_run_ok.mpr ⟨labelled, rfl⟩, ?_⟩
    refine StateT.run_bind_eq_ok.mpr ⟨(), _, rfl, ?_⟩
    simp only [unseen]
    have lineRun : (lineStatements m []).run { s₁ with label := label } =
        .ok (([] : List Stmt).reverse ++ sts, s₂) := stmts.run saneLabelled (by omega)
    rw [List.reverse_nil, List.nil_append] at lineRun
    refine StateT.run_bind_eq_ok.mpr ⟨sts, s₂, lineRun, ?_⟩
    simpa using restRun

/-- A label is the decimal spelling of a number from 1 to 2^63 - 1. -/
theorem Token.label_canonical {tok : Token} {label : String} (labelled : tok.label? = some label) :
    ∃ v, 0 < v ∧ v < 2 ^ 63 ∧ label = toString v := by
  unfold Token.label? at labelled
  split at labelled
  · next valid => exact ⟨_, valid.2.2.2.1, valid.2.2.2.2, (Option.some.inj labelled).symm⟩
  · exact absurd labelled nofun

/-- Every line of a program is labelled by the decimal spelling of a number from 1 to
2^63 - 1. -/
theorem ProgramText.labels {s : ParserState} {ls : List Line} (text : ProgramText s ls) :
    ∀ l ∈ ls, ∃ v, 0 < v ∧ v < 2 ^ 63 ∧ l.label = toString v := by
  induction text with
  | done => simp
  | blank _ _ _ ih => exact ih
  | line _ labelled _ _ ih =>
    intro l mem
    rcases List.mem_cons.mp mem with rfl | mem
    · exact Token.label_canonical labelled
    · exact ih l mem

/-- Lines with distinct numbers, sorted by number, are in strictly ascending order. -/
theorem pairwise_lt_mergeSort {ls : List Line} (distinct : (ls.map Line.number).Nodup) :
    (ls.mergeSort fun a b => a.number ≤ b.number).Pairwise (fun a b => a.number < b.number) := by
  have sorted : (ls.mergeSort fun a b => a.number ≤ b.number).Pairwise
      (fun a b => decide (a.number ≤ b.number)) :=
    List.pairwise_mergeSort (fun a b c => by simp only [decide_eq_true_eq]; omega)
      (fun a b => by simp only [Bool.or_eq_true, decide_eq_true_eq]; omega) ls
  have apart : (ls.mergeSort fun a b => a.number ≤ b.number).Pairwise
      (fun a b => a.number ≠ b.number) :=
    List.pairwise_map.mp (((List.mergeSort_perm ls _).map Line.number).nodup_iff.mpr distinct)
  exact (sorted.and apart).imp fun ⟨le, ne⟩ => Nat.lt_of_le_of_ne (by simpa using le) ne

/-- `parseProgram` succeeds exactly on the sources whose lines the grammar derives with
distinct label numbers, and returns those lines sorted by number. -/
theorem parseProgram_eq_ok {src : String} {prog : Program} :
    parseProgram src = .ok prog ↔
      ∃ ls, ProgramText (ParserState.start src) ls ∧ (ls.map Line.number).Nodup ∧
        prog.lines = ls.mergeSort fun a b => a.number ≤ b.number := by
  constructor
  · intro parsed
    unfold parseProgram at parsed
    dsimp only at parsed
    split at parsed
    · next lines ran =>
      rw [StateT.run'_eq] at ran
      obtain ⟨⟨r, s'⟩, run, made⟩ := Except.map_eq_ok.mp ran
      obtain ⟨ls, text, listed, distinct, -⟩ := programLines_sound run
      refine ⟨ls, text, distinct, ?_⟩
      simp only [List.reverse_nil, List.nil_append] at listed
      simp only [Except.ok.injEq] at parsed
      rw [← parsed, ← made, listed]
    · exact absurd parsed nofun
  · rintro ⟨ls, text, distinct, sorted⟩
    have run : ∃ s', (programLines (4 * (src.toList.toArray.size + 8)) [] []).run
        (ParserState.start src) = .ok (([] : List Line).reverse ++ ls, s') :=
      text.run distinct (by simp) (ParserState.start_sane src)
        (by simp only [ParserState.unread_start, List.size_toArray]; omega)
    obtain ⟨s', run⟩ := run
    rw [List.reverse_nil, List.nil_append] at run
    unfold parseProgram
    dsimp only
    rw [show (programLines (4 * (src.toList.toArray.size + 8)) [] []).run'
        ⟨src.toList.toArray, sourceLinesOf src, 0, 1, none, ""⟩ = .ok ls by
      rw [StateT.run'_eq]
      exact Except.map_eq_ok.mpr ⟨(ls, s'), run, rfl⟩]
    cases prog
    simp_all

/-- `parseProgram` succeeds exactly on the sources the grammar of programs derives with
distinct label numbers (`ProgramText`: the grammar with the parser's checks of types, labels
and the longest expression read at each point) and fails on all others; the program it
returns lists those lines sorted by number, strictly ascending, each labelled by the decimal
spelling of a number from 1 to 2^63 - 1. -/
theorem parseProgram_iff_programText (src : String) :
    (∀ prog, parseProgram src = .ok prog ↔
      ∃ ls, ProgramText (ParserState.start src) ls ∧ (ls.map Line.number).Nodup ∧
        prog.lines = ls.mergeSort fun a b => a.number ≤ b.number) ∧
    ((∃ err, parseProgram src = .error err) ↔
      ¬∃ ls, ProgramText (ParserState.start src) ls ∧ (ls.map Line.number).Nodup) ∧
    (∀ prog, parseProgram src = .ok prog →
      prog.lines.Pairwise (fun a b => a.number < b.number) ∧
      ∀ l ∈ prog.lines, ∃ v, 0 < v ∧ v < 2 ^ 63 ∧ l.label = toString v) := by
  refine ⟨fun _ => parseProgram_eq_ok, ⟨?_, ?_⟩, ?_⟩
  · rintro ⟨err, failed⟩ ⟨ls, text, distinct⟩
    have parsed := parseProgram_eq_ok.mpr ⟨ls, text, distinct, rfl⟩
    rw [failed] at parsed
    exact absurd parsed nofun
  · intro underived
    cases parsed : parseProgram src with
    | error err => exact ⟨err, rfl⟩
    | ok prog =>
      obtain ⟨ls, text, distinct, -⟩ := parseProgram_eq_ok.mp parsed
      exact absurd ⟨ls, text, distinct⟩ underived
  · intro prog parsed
    obtain ⟨ls, text, distinct, sorted⟩ := parseProgram_eq_ok.mp parsed
    rw [sorted]
    exact ⟨pairwise_lt_mergeSort distinct,
      fun l mem => text.labels l (List.mem_mergeSort.mp mem)⟩

/-- `PRINT "A" -1` is no pair of items: the longest expression takes the minus as an operator,
and `"A" - 1` does not type check, so the parse fails. -/
theorem print_text_then_negative_rejected :
    ∃ err, parseProgram "10 PRINT \"A\" -1\n" = .error err := by
  have rejected : (parseProgram "10 PRINT \"A\" -1\n").toBool = false := by with_unfolding_all rfl
  cases parsed : parseProgram "10 PRINT \"A\" -1\n" with
  | ok prog => simp [parsed, Except.toBool] at rejected
  | error err => exact ⟨err, rfl⟩

end BasicJvm.Syntax
