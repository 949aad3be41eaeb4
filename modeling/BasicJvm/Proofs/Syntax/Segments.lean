import BasicJvm.Proofs.Syntax.Lexemes

/-!
# How the tokens of a source segment it

A run of the tokenizer is described by `Scanned line pos cs toks`: each token is some blanks,
then its text as the lexical grammar `Lexed` derives it, then the rest of the source, from which
the next tokens are read; the last token is the end of the file. `tokenize_eq_iff` says that the
tokenizer accepts a source with exactly the tokens of such a trace, and the facts about the
tokens are proved once on the trace, by induction on it:

* `Scanned.written`: the tokens written out one after another (a string literal inside its
  quotes, an end of line as a newline) are the source without the blanks outside string
  literals (`stripBlanks`);
* `Scanned.lines`: a token's line is one more than the newlines before it;
* `Scanned.respace`: the tokens written out with one blank between each two are scanned as the
  same tokens on the same lines. This is where the locality of a token (`Lexed.reread`) is used:
  a name never takes the start of a word, and each word and symbol is the longest one there,
  whatever follows it.

`tokenize_segments` puts the three together for an accepted source.
-/

namespace BasicJvm.Source

/-! ## Blanks outside string literals -/

/-- The text with the blanks outside string literals removed; `quoted` says whether it begins
inside a literal. -/
def stripBlanks : Bool → List Char → List Char
  | _, [] => []
  | quoted, c :: cs =>
    if c = '"' then c :: stripBlanks (!quoted) cs
    else if !quoted && isBlank c then stripBlanks quoted cs
    else c :: stripBlanks quoted cs

theorem stripBlanks_blanks {pre : List Char} (blanks : ∀ b ∈ pre, isBlank b = true)
    (r : List Char) : stripBlanks false (pre ++ r) = stripBlanks false r := by
  induction pre with
  | nil => rfl
  | cons b pre ih =>
    have blank := blanks b List.mem_cons_self
    have notQuote : b ≠ '"' := (blank_classes blank).2.2.2.2.1
    simp only [List.cons_append, stripBlanks, notQuote, ↓reduceIte, Bool.not_false, blank,
      Bool.and_self]
    exact ih fun x hx => blanks x (List.mem_cons_of_mem b hx)

theorem stripBlanks_plain {w : List Char} (plain : ∀ c ∈ w, isBlank c = false ∧ c ≠ '"')
    (r : List Char) : stripBlanks false (w ++ r) = w ++ stripBlanks false r := by
  induction w with
  | nil => rfl
  | cons c w ih =>
    obtain ⟨notBlank, notQuote⟩ := plain c List.mem_cons_self
    simp only [List.cons_append, stripBlanks, notQuote, ↓reduceIte, Bool.not_false, notBlank,
      Bool.and_false, Bool.false_eq_true]
    rw [ih fun x hx => plain x (List.mem_cons_of_mem c hx)]

theorem stripBlanks_inside {body : List Char} (noQuote : ∀ c ∈ body, c ≠ '"') (r : List Char) :
    stripBlanks true (body ++ r) = body ++ stripBlanks true r := by
  induction body with
  | nil => rfl
  | cons c body ih =>
    simp only [List.cons_append, stripBlanks, noQuote c List.mem_cons_self, ↓reduceIte,
      Bool.not_true, Bool.false_and, Bool.false_eq_true]
    rw [ih fun x hx => noQuote x (List.mem_cons_of_mem c hx)]

/-- A string literal is kept whole, its blanks with it. -/
theorem stripBlanks_string {body : List Char} (noQuote : ∀ c ∈ body, c ≠ '"') (r : List Char) :
    stripBlanks false ('"' :: body ++ '"' :: r) = '"' :: body ++ '"' :: stripBlanks false r := by
  simp only [List.cons_append, stripBlanks, ↓reduceIte, Bool.not_false]
  rw [stripBlanks_inside noQuote]
  simp [stripBlanks]

/-! ## The text of a token -/

/-- A token as the source writes it: a string literal inside its quotes, an end of line as a
newline, the end of the file as nothing. -/
def Token.written (t : Token) : List Char := sourceChars t.kind t.text

/-- What a token says, without the place where its scanning began. -/
def Token.reading (t : Token) : TokenKind × String × Nat := (t.kind, t.text, t.line)

/-- The tokens written out again, with one blank between each two. -/
def respaced (toks : List Token) : String :=
  String.ofList ([' '].intercalate (toks.map Token.written))

theorem isOrdinary_of_classes {c : Char} (notBlank : isBlank c = false) (notQuote : c ≠ '"')
    (notNewline : c ≠ '\n') : isOrdinary c = true := by
  simp [isOrdinary, notBlank, notQuote, notNewline]

/-- The letters that `lettersRun` counts are capital letters. -/
theorem lettersRun_upper {tail : List Char} : ∀ {letters : List Char},
    lettersRun (letters ++ tail) = letters.length → ∀ c ∈ letters, isUpperLetter c = true
  | [], _ => by simp
  | c :: letters, h => by
    simp only [List.cons_append, lettersRun] at h
    split at h
    next pass =>
      simp only [Bool.and_eq_true] at pass
      intro x hx
      rcases List.mem_cons.mp hx with rfl | later
      · exact pass.1
      · exact lettersRun_upper (by simpa using h) x later
    next => simp at h

section Derived

variable {kind : TokenKind} {text : String} {rest : List Char}

theorem Lexed.word_kind {w : String} (found : wordIn (w.toList ++ rest) = some (w, kind)) :
    kind = .keyword ∨ kind = .function := by
  obtain ⟨mem, -, -⟩ := wordIn_eq_some_iff.mp found
  exact words_kind _ mem

theorem Lexed.endOfFile_inv (h : Lexed .endOfFile text rest) : text = "" ∧ rest = [] := by
  cases h with
  | endOfFile => exact ⟨rfl, rfl⟩
  | word found => rcases Lexed.word_kind found with same | same <;> cases same

theorem Lexed.endOfLine_text (h : Lexed .endOfLine text rest) : text = "\n" := by
  cases h with
  | endOfLine => rfl
  | word found => rcases Lexed.word_kind found with same | same <;> cases same

/-- Only the end of the file is read from no text. -/
theorem Lexed.written_ne_nil (h : Lexed kind text rest) (notEnd : kind ≠ .endOfFile) :
    sourceChars kind text ≠ [] := by
  cases h with
  | endOfFile => exact absurd rfl notEnd
  | endOfLine => decide
  | word found =>
    obtain ⟨mem, -, -⟩ := wordIn_eq_some_iff.mp found
    rw [sourceChars_of_wordIn found]
    exact (words_head_upper _ mem).1
  | name => simp [sourceChars]
  | number nonempty => simpa [sourceChars] using nonempty
  | string => simp [sourceChars]
  | symbol found => exact (symbols_head _ (List.mem_of_find?_eq_some found)).1

/-- A token other than a string literal or an end of line is written in ordinary characters:
no blank, quote or newline. -/
theorem Lexed.ordinary (h : Lexed kind text rest) (notLine : kind ≠ .endOfLine)
    (notString : kind ≠ .string) : ∀ c ∈ sourceChars kind text, isOrdinary c = true := by
  cases h with
  | endOfFile => simp [sourceChars]
  | endOfLine => exact absurd rfl notLine
  | word found =>
    obtain ⟨mem, -, -⟩ := wordIn_eq_some_iff.mp found
    rw [sourceChars_of_wordIn found]
    exact words_ordinary _ mem
  | @name c letters digits dollar rest upper _ lettersStop numeric _ sign =>
    have letters_upper := lettersRun_upper
      (by simpa using lettersStop : lettersRun (letters ++ (digits ++ (dollar ++ rest))) =
        letters.length)
    intro x hx
    simp only [sourceChars, String.toList_ofList, List.mem_append, List.mem_cons] at hx
    rcases hx with ((rfl | inLetters) | inDigits) | inDollar
    · exact isOrdinary_of_upper upper
    · exact isOrdinary_of_upper (letters_upper x inLetters)
    · exact isOrdinary_of_digit (numeric x inDigits)
    · rcases sign with rfl | ⟨rfl, -⟩
      · simp only [List.mem_singleton] at inDollar
        subst inDollar
        decide
      · cases inDollar
  | number _ numeric =>
    intro x hx
    simp only [sourceChars, String.toList_ofList] at hx
    obtain ⟨notBlank, notNewline, notQuote, -⟩ := numeric_classes (numeric x hx)
    exact isOrdinary_of_classes notBlank notQuote notNewline
  | string => exact absurd rfl notString
  | symbol found => exact symbols_ordinary _ (List.mem_of_find?_eq_some found)

/-- Only an end of line writes a newline. -/
theorem Lexed.count_newline (h : Lexed kind text rest) :
    (sourceChars kind text).count '\n' = if kind = .endOfLine then 1 else 0 := by
  by_cases line : kind = .endOfLine
  · subst line
    rw [h.endOfLine_text]
    rfl
  · rw [if_neg line, List.count_eq_zero]
    intro mem
    by_cases str : kind = .string
    · subst str
      cases h with
      | string plain =>
        simp only [sourceChars, String.toList_ofList] at mem
        rcases List.mem_cons.mp mem with quote | inner
        · exact absurd quote (by decide)
        · rcases List.mem_append.mp inner with inBody | quote
          · exact (plain _ inBody).2 rfl
          · exact absurd (List.mem_singleton.mp quote) (by decide)
      | word found => rcases Lexed.word_kind found with same | same <;> cases same
    · have := h.ordinary line str '\n' mem
      simp [isOrdinary] at this

/-- A token keeps its text when the blanks are removed, and what follows it loses its own. -/
theorem Lexed.stripBlanks (h : Lexed kind text rest) :
    stripBlanks false (sourceChars kind text ++ rest) =
      sourceChars kind text ++ stripBlanks false rest := by
  by_cases str : kind = .string
  · subst str
    cases h with
    | string plain =>
      simp only [sourceChars, String.toList_ofList, List.append_assoc, List.singleton_append]
      exact stripBlanks_string (fun c hc => (plain c hc).1) rest
    | word found => rcases Lexed.word_kind found with same | same <;> cases same
  · apply stripBlanks_plain
    by_cases line : kind = .endOfLine
    · subst line
      rw [h.endOfLine_text]
      intro c hc
      have newline : c = '\n' := by simpa [sourceChars] using hc
      subst newline
      decide
    · intro c hc
      have ord := h.ordinary line str c hc
      simp only [isOrdinary, Bool.and_eq_true, Bool.not_eq_true', bne_iff_ne, ne_eq] at ord
      exact ⟨ord.1.1, ord.1.2⟩

end Derived

/-! ## One step of the tokenizer -/

/-- What one successful scan reads: blanks, then a token of the grammar, after which the scan
goes on, on the next line after an end of line. -/
theorem scanAt_inv {src : Array Char} {pos line next line' : Nat} {tok : Token}
    (within : pos ≤ src.size) (h : scanAt src pos line = .ok (tok, next, line')) :
    ∃ pre rest, (∀ b ∈ pre, isBlank b = true) ∧
      src.toList.drop pos = pre ++ sourceChars tok.kind tok.text ++ rest ∧
      Lexed tok.kind tok.text rest ∧ tok.line = line ∧ tok.start = pos ∧
      next = pos + pre.length + (sourceChars tok.kind tok.text).length ∧
      line' = if tok.kind = .endOfLine then line + 1 else line := by
  rw [scanAt_eq_lexeme src line within] at h
  cases read : lexeme line (src.toList.drop pos) with
  | error e => simp [read, Except.map] at h
  | ok r =>
    obtain ⟨kind, text, rest⟩ := r
    simp only [read, Except.map, Except.ok.injEq, Prod.mk.injEq] at h
    obtain ⟨rfl, rfl, rfl⟩ := h
    obtain ⟨pre, blanks, split, lexed⟩ := lexeme_inv read
    refine ⟨pre, rest, blanks, split, lexed, rfl, rfl, ?_, rfl⟩
    have total := congrArg List.length split
    simp only [List.length_drop, Array.length_toList, List.length_append] at total
    dsimp only
    omega

/-- The scan of a token of the grammar, after blanks. -/
theorem scanAt_of_lexed {src : Array Char} {pos line : Nat} {pre rest : List Char}
    {kind : TokenKind} {text : String} (blanks : ∀ b ∈ pre, isBlank b = true)
    (lexed : Lexed kind text rest) (within : pos ≤ src.size)
    (split : src.toList.drop pos = pre ++ sourceChars kind text ++ rest) :
    scanAt src pos line = .ok (⟨kind, text, line, pos⟩,
      pos + pre.length + (sourceChars kind text).length,
      if kind = .endOfLine then line + 1 else line) := by
  rw [scanAt_eq_lexeme src line within, split, lexeme_of_lexed lexed blanks line]
  have total := congrArg List.length split
  simp only [List.length_drop, Array.length_toList, List.length_append] at total
  simp only [Except.map, Except.ok.injEq, Prod.mk.injEq, and_true, true_and]
  omega

theorem drop_after_token {src : Array Char} {pos : Nat} {pre w rest : List Char}
    (split : src.toList.drop pos = pre ++ w ++ rest) :
    src.toList.drop (pos + pre.length + w.length) = rest := by
  rw [Nat.add_assoc, ← List.drop_drop, split, ← List.length_append, List.drop_left]

theorem end_within {src : Array Char} {pos : Nat} {pre w rest : List Char}
    (within : pos ≤ src.size) (split : src.toList.drop pos = pre ++ w ++ rest) :
    pos + pre.length + w.length ≤ src.size := by
  have total := congrArg List.length split
  simp only [List.length_drop, Array.length_toList, List.length_append] at total
  omega

/-! ## A whole run -/

/-- `Scanned line pos cs toks`: reading `cs`, which begins at offset `pos` of the source on line
`line`, gives the tokens `toks`. Each token is some blanks, then its text, then the rest of the
source, from which the tokens after it are read; the last is the end of the file. -/
inductive Scanned : Nat → Nat → List Char → List Token → Prop
  /-- Only blanks are left. -/
  | last {line pos : Nat} {pre : List Char} (blanks : ∀ b ∈ pre, isBlank b = true) :
      Scanned line pos pre [⟨.endOfFile, "", line, pos⟩]
  /-- A token, and the tokens of what follows it. -/
  | next {line pos : Nat} {pre rest : List Char} {kind : TokenKind} {text : String}
      {toks : List Token} (blanks : ∀ b ∈ pre, isBlank b = true) (lexed : Lexed kind text rest)
      (notEnd : kind ≠ .endOfFile)
      (more : Scanned (if kind = .endOfLine then line + 1 else line)
        (pos + pre.length + (sourceChars kind text).length) rest toks) :
      Scanned line pos (pre ++ sourceChars kind text ++ rest) (⟨kind, text, line, pos⟩ :: toks)

theorem Scanned.ne_nil {line pos : Nat} {cs : List Char} {toks : List Token}
    (h : Scanned line pos cs toks) : toks ≠ [] := by
  cases h <;> simp

/-- Soundness of the tokenizer's loop: the tokens it returns without an error are a trace of
what is left of the source. -/
theorem tokensFrom_scanned {src : Array Char} {pos line : Nat} {acc toks : List Token}
    (within : pos ≤ src.size) (h : tokensFrom src pos line acc = (toks, none)) :
    ∃ out, toks = acc.reverse ++ out ∧ Scanned line pos (src.toList.drop pos) out := by
  fun_induction tokensFrom src pos line acc with
  | case1 _ _ _ _ _ => cases h
  | case2 pos line acc tok next line' scan isEnd =>
    obtain ⟨pre, rest, blanks, split, lexed, atLine, atStart, -, -⟩ := scanAt_inv within scan
    obtain ⟨kind, text, l, start⟩ := tok
    simp only at isEnd split lexed atLine atStart
    subst atLine atStart
    rw [beq_iff_eq.mp isEnd] at split lexed
    obtain ⟨rfl, rfl⟩ := lexed.endOfFile_inv
    simp only [Prod.mk.injEq, and_true] at h
    refine ⟨_, by rw [← h, List.reverse_cons], ?_⟩
    rw [beq_iff_eq.mp isEnd, split]
    simpa [sourceChars] using Scanned.last blanks
  | case3 pos line acc tok next line' scan notEnd progress ih =>
    obtain ⟨out, rfl, more⟩ := ih progress.2 h
    obtain ⟨pre, rest, blanks, split, lexed, atLine, atStart, atNext, atLine'⟩ :=
      scanAt_inv within scan
    obtain ⟨kind, text, l, start⟩ := tok
    simp only at notEnd split lexed atLine atStart atNext atLine'
    subst atLine atStart atNext atLine'
    refine ⟨⟨kind, text, l, start⟩ :: out, by simp, ?_⟩
    rw [split]
    rw [drop_after_token split] at more
    exact .next blanks lexed (by simpa using notEnd) more
  | case4 pos line acc tok next line' scan notEnd stuck =>
    -- a token other than the end of the file is never empty, so the scan moved on
    obtain ⟨pre, rest, _, split, lexed, -, -, atNext, -⟩ := scanAt_inv within scan
    have nonempty := lexed.written_ne_nil (by simpa using notEnd)
    have bound := end_within within split
    have : 0 < (sourceChars tok.kind tok.text).length := List.length_pos_iff.mpr nonempty
    exact absurd ⟨by omega, by omega⟩ stuck

/-- Completeness of the tokenizer's loop: from a trace of what is left of the source, it
returns the trace's tokens, with no error. -/
theorem Scanned.tokensFrom_eq {line pos : Nat} {cs : List Char} {toks : List Token}
    (h : Scanned line pos cs toks) {src : Array Char} (acc : List Token) (within : pos ≤ src.size)
    (here : src.toList.drop pos = cs) : tokensFrom src pos line acc = (acc.reverse ++ toks, none) := by
  induction h generalizing acc with
  | @last line pos pre blanks =>
    have scan : scanAt src pos line = _ := scanAt_of_lexed blanks .endOfFile within
      (by simpa [sourceChars] using here)
    rw [tokensFrom, scan]
    simp
  | @next line pos pre rest kind text toks blanks lexed notEnd more ih =>
    have scan : scanAt src pos line = _ := scanAt_of_lexed blanks lexed within here
    have progress : pos < pos + pre.length + (sourceChars kind text).length ∧
        pos + pre.length + (sourceChars kind text).length ≤ src.size := by
      have := List.length_pos_iff.mpr (lexed.written_ne_nil notEnd)
      exact ⟨by omega, end_within within here⟩
    rw [tokensFrom, scan]
    simp only [beq_iff_eq, notEnd, ↓reduceIte, dif_pos progress]
    rw [ih _ progress.2 (drop_after_token here)]
    simp

/-- The tokenizer accepts a source, with the tokens `toks`, exactly when they are a trace of
it from its first character on its first line. -/
theorem tokenize_eq_iff {s : String} {toks : List Token} :
    tokenize s = (toks, none) ↔ Scanned 1 0 s.toList toks := by
  constructor
  · intro h
    obtain ⟨out, rfl, scanned⟩ := tokensFrom_scanned (Nat.zero_le _) h
    simpa using scanned
  · intro h
    simpa [tokenize] using h.tokensFrom_eq [] (Nat.zero_le _) (by simp)

/-! ## What a run reads -/

/-- The tokens of a trace, written out one after another, are its text without the blanks
outside string literals. -/
theorem Scanned.written {line pos : Nat} {cs : List Char} {toks : List Token}
    (h : Scanned line pos cs toks) : toks.flatMap Token.written = stripBlanks false cs := by
  induction h with
  | last blanks =>
    simpa [Token.written, sourceChars, stripBlanks] using stripBlanks_blanks blanks []
  | next blanks lexed _ _ ih =>
    rw [List.flatMap_cons, ih, List.append_assoc, stripBlanks_blanks blanks, lexed.stripBlanks]
    rfl

/-- A token's line is the trace's first line plus the newlines between the trace's start and
the place where the token's scanning began. -/
theorem Scanned.lines {line pos : Nat} {cs : List Char} {toks : List Token}
    (h : Scanned line pos cs toks) :
    ∀ t ∈ toks, pos ≤ t.start ∧ t.line = line + (cs.take (t.start - pos)).count '\n' := by
  induction h with
  | last => simp
  | @next line pos pre rest kind text toks blanks lexed _ _ ih =>
    intro t mem
    rcases List.mem_cons.mp mem with rfl | later
    · simp
    · obtain ⟨after, atLine⟩ := ih t later
      -- the token's text comes between the two starts, after blanks that hold no newline
      have skip : t.start - pos = (pre ++ sourceChars kind text).length +
          (t.start - (pos + pre.length + (sourceChars kind text).length)) := by
        simp only [List.length_append]
        omega
      have noNewline : pre.count '\n' = 0 :=
        List.count_eq_zero.mpr fun inPre => by
          have := (blank_classes (blanks '\n' inPre)).2.2.2.1
          exact this rfl
      refine ⟨by omega, ?_⟩
      rw [skip, List.take_length_add_append, List.count_append, List.count_append, noNewline,
        lexed.count_newline, atLine]
      split <;> omega

/-- Written out again with one blank between each two, the tokens of a trace are scanned as
the same tokens on the same lines, whatever blanks come first and wherever the text begins. -/
theorem Scanned.respace {line pos : Nat} {cs : List Char} {toks : List Token}
    (h : Scanned line pos cs toks) :
    ∀ (pos' : Nat) {pre : List Char}, (∀ b ∈ pre, isBlank b = true) →
      ∃ toks', Scanned line pos' (pre ++ [' '].intercalate (toks.map Token.written)) toks' ∧
        toks'.map Token.reading = toks.map Token.reading := by
  induction h with
  | @last line _ _ _ =>
    intro pos' pre blanks
    have last : Scanned line pos' pre [⟨.endOfFile, "", line, pos'⟩] := .last blanks
    exact ⟨[⟨.endOfFile, "", line, pos'⟩], by simpa [Token.written, sourceChars] using last, rfl⟩
  | @next line pos pre rest kind text toks _ lexed notEnd more ih =>
    intro pos' pre' blanks'
    -- the token reads the same before the blank that now follows it
    obtain ⟨toks', again, same⟩ :=
      @ih (pos' + pre'.length + (sourceChars kind text).length) [' '] (by simp [isBlank])
    obtain ⟨t, ts, rfl⟩ := List.exists_cons_of_ne_nil more.ne_nil
    have lexed' : Lexed kind text ([' '] ++ [' '].intercalate ((t :: ts).map Token.written)) :=
      lexed.reread notEnd (BlankHeaded.cons (by decide))
    have step := Scanned.next blanks' lexed' notEnd again
    refine ⟨⟨kind, text, line, pos'⟩ :: toks', ?_, ?_⟩
    · simpa [Token.written, List.intercalate_cons_cons] using step
    · simp only [List.map_cons, same]
      rfl

/-! ## The tokens of a source -/

/-- The tokens of an accepted source segment it exactly. Written out one after another, they
are the source without its blanks outside string literals; each token's line is one more than
the newlines before the place its scanning began (which only blanks separate from the token);
and written out again with one blank between each two, they are scanned as the same tokens on
the same lines, so no token reaches past the next blank. -/
theorem tokenize_segments {s : String} {toks : List Token} (accepted : tokenize s = (toks, none)) :
    toks.flatMap Token.written = stripBlanks false s.toList ∧
      (∀ t ∈ toks, t.line = (s.toList.take t.start).count '\n' + 1) ∧
      ∃ again, tokenize (respaced toks) = (again, none) ∧
        again.map Token.reading = toks.map Token.reading := by
  have scanned := tokenize_eq_iff.mp accepted
  refine ⟨scanned.written, fun t mem => ?_, ?_⟩
  · obtain ⟨-, atLine⟩ := scanned.lines t mem
    simpa [Nat.add_comm] using atLine
  · obtain ⟨again, spaced, same⟩ := @Scanned.respace _ _ _ _ scanned 0 [] (by simp)
    exact ⟨again, tokenize_eq_iff.mpr (by simpa [respaced] using spaced), same⟩

theorem tokenize_segments_spaced_loop :
    tokenize "10 FORI=1TO10:PRINT \"A, B\"\n" =
        ((tokenize "10 FORI=1TO10:PRINT \"A, B\"\n").1, none) ∧
      ((tokenize "10 FORI=1TO10:PRINT \"A, B\"\n").1.flatMap Token.written =
          stripBlanks false "10 FORI=1TO10:PRINT \"A, B\"\n".toList ∧
        (∀ t ∈ (tokenize "10 FORI=1TO10:PRINT \"A, B\"\n").1,
          t.line = ("10 FORI=1TO10:PRINT \"A, B\"\n".toList.take t.start).count '\n' + 1) ∧
        ∃ again, tokenize (respaced (tokenize "10 FORI=1TO10:PRINT \"A, B\"\n").1) =
            (again, none) ∧
          again.map Token.reading =
            (tokenize "10 FORI=1TO10:PRINT \"A, B\"\n").1.map Token.reading) :=
  have accepted : tokenize "10 FORI=1TO10:PRINT \"A, B\"\n" =
      ((tokenize "10 FORI=1TO10:PRINT \"A, B\"\n").1, none) := by with_unfolding_all rfl
  ⟨accepted, tokenize_segments accepted⟩

example : respaced (tokenize "10 FORI=1TO10:PRINT \"A, B\"\n").1 =
    "10 FOR I = 1 TO 10 : PRINT \"A, B\" \n " := by
  with_unfolding_all rfl

end BasicJvm.Source
