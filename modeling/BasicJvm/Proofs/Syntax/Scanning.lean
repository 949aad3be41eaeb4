import BasicJvm.Syntax.Parser
import BasicJvm.Proofs.Except

/-!
# How the parser moves through the source

The scanner reads one token from a position and answers the position after it.  The token
records where scanning began, the position never moves back or past the end of the source,
and every token but `endOfFile` takes at least one character (`scanAt_bounds`).

The parser reads tokens through `peekToken` and `nextToken`.  What is left to read of a
parser state (`ParserState.unread`) counts the characters from the token looked at, or from
the scanning position when none is: looking at a token leaves it as it is, consuming a token
never raises it, and consuming any token but `endOfFile` lowers it.  These facts hold of every
`Sane` state (the position within the source, a token looked at starting no later than it),
and every state reading leaves is sane again.
-/

namespace BasicJvm.Source

/-! ## Runs of characters -/

section Runs

variable (p : Char → Bool) (src : Array Char)

theorem le_skipWhile (pos : Nat) : pos ≤ skipWhile p src pos := by
  fun_induction skipWhile p src pos <;> omega

theorem skipWhile_le_max (pos : Nat) : skipWhile p src pos ≤ max pos src.size := by
  fun_induction skipWhile p src pos <;> omega

/-- A run that starts on a character of the class takes that character. -/
theorem lt_skipWhile {pos : Nat} (h : pos < src.size) (hp : p src[pos] = true) :
    pos < skipWhile p src pos := by
  rw [skipWhile, dif_pos h, if_pos hp]
  have := le_skipWhile p src (pos + 1)
  omega

theorem le_nameLettersEnd (pos : Nat) : pos ≤ nameLettersEnd src pos := by
  fun_induction nameLettersEnd src pos <;> omega

theorem nameLettersEnd_le_max (pos : Nat) : nameLettersEnd src pos ≤ max pos src.size := by
  fun_induction nameLettersEnd src pos <;> omega

end Runs

/-- A variable name takes its first letter and stays within the source. -/
theorem nameEnd_bounds {src : Array Char} {here : Nat} (h : here < src.size) :
    here < nameEnd src here ∧ nameEnd src here ≤ src.size := by
  have letters := le_nameLettersEnd src (here + 1)
  have lettersLe := nameLettersEnd_le_max src (here + 1)
  have digits := le_skipWhile isDigitChar src (nameLettersEnd src (here + 1))
  have digitsLe := skipWhile_le_max isDigitChar src (nameLettersEnd src (here + 1))
  unfold nameEnd
  dsimp only
  split
  · rename_i dollar
    simp only [beq_iff_eq] at dollar
    have inside := (Array.getElem?_eq_some_iff.mp dollar).1
    omega
  · omega

/-- A word found in the source stands there whole. -/
theorem matchesAt_le {src : Array Char} {here : Nat} {w : String} (h : matchesAt src here w = true)
    (nonempty : 0 < w.length) : here + w.length ≤ src.size := by
  have within : w.length - 1 < w.toList.length := by
    rw [String.length_toList]
    omega
  have last : (w.toList[w.length - 1], w.length - 1) ∈ w.toList.zipIdx :=
    List.mem_zipIdx_iff_getElem?.mpr (by simp)
  have found := List.all_eq_true.mp h _ last
  simp only [beq_iff_eq] at found
  have inside := (Array.getElem?_eq_some_iff.mp found).1
  omega

/-- A fold whose step either keeps what it holds or takes the element, taking only elements
with `P`, ends with what it started from or with an element of the list that has `P`. -/
theorem foldl_keeps_or_takes {α : Type} {P : α → Prop} {step : Option α → α → Option α}
    (takes : ∀ best x, step best x = best ∨ (step best x = some x ∧ P x)) {w : α} :
    ∀ (xs : List α) (best : Option α), xs.foldl step best = some w →
      best = some w ∨ (w ∈ xs ∧ P w)
  | [], _, h => .inl h
  | x :: xs, best, h => by
    rcases foldl_keeps_or_takes takes xs _ h with h | h
    · rcases takes best x with kept | ⟨took, hx⟩
      · rw [kept] at h
        exact .inl h
      · rw [took] at h
        cases h
        exact .inr ⟨List.mem_cons_self, hx⟩
    · exact .inr ⟨List.mem_cons_of_mem _ h.1, h.2⟩

/-- The longest word found at a position is one of the words, and stands there. -/
theorem wordAt_mem {src : Array Char} {here : Nat} {w : String × TokenKind}
    (h : wordAt src here = some w) : w ∈ words ∧ matchesAt src here w.1 = true := by
  unfold wordAt at h
  refine (foldl_keeps_or_takes (P := fun x => matchesAt src here x.1 = true) ?_ words none h
    ).resolve_left (by simp)
  -- each step keeps the longest word so far or takes a word that stands at the position
  intro best x
  by_cases hx : matchesAt src here x.1 = true
  · rw [if_pos hx]
    split
    · split
      · exact .inr ⟨rfl, hx⟩
      · exact .inl rfl
    · exact .inr ⟨rfl, hx⟩
  · simp [hx]

theorem words_length_pos : ∀ w ∈ words, 0 < w.1.length := by decide

theorem symbols_length_pos : ∀ w ∈ symbols, 0 < w.length := by decide

/-! ## One token -/

/-- A token records where scanning began; the position after it is within the source and not
before the start, and past it for every token but the end of the source. -/
theorem scanAt_bounds {src : Array Char} {pos line : Nat} {t : Token} {pos' line' : Nat}
    (h : scanAt src pos line = .ok (t, pos', line')) (within : pos ≤ src.size) :
    t.start = pos ∧ pos ≤ pos' ∧ pos' ≤ src.size ∧ (t.kind ≠ .endOfFile → pos < pos') := by
  have start := le_skipWhile isBlank src pos
  have startLe := skipWhile_le_max isBlank src pos
  unfold scanAt at h
  generalize skipWhile isBlank src pos = here at h start startLe
  dsimp only at h
  split at h
  · simp only [Except.ok.injEq, Prod.mk.injEq] at h
    obtain ⟨rfl, rfl, rfl⟩ := h
    refine ⟨rfl, start, by omega, fun ne => absurd rfl ne⟩
  · rename_i c found
    obtain ⟨inside, rfl⟩ := Array.getElem?_eq_some_iff.mp found
    split at h
    · simp only [Except.ok.injEq, Prod.mk.injEq] at h
      obtain ⟨rfl, rfl, rfl⟩ := h
      exact ⟨rfl, by omega, by omega, fun _ => by omega⟩
    split at h
    · split at h
      · rename_i w kind hw
        simp only [Except.ok.injEq, Prod.mk.injEq] at h
        obtain ⟨rfl, rfl, rfl⟩ := h
        obtain ⟨mem, matched⟩ := wordAt_mem hw
        have pos' := words_length_pos _ mem
        have fits := matchesAt_le matched pos'
        exact ⟨rfl, by omega, fits, fun _ => by simp at pos' ⊢; omega⟩
      · simp only [Except.ok.injEq, Prod.mk.injEq] at h
        obtain ⟨rfl, rfl, rfl⟩ := h
        have bounds := nameEnd_bounds inside
        exact ⟨rfl, by omega, bounds.2, fun _ => by omega⟩
    split at h
    · simp only [Except.ok.injEq, Prod.mk.injEq] at h
      obtain ⟨rfl, rfl, rfl⟩ := h
      rename_i numeric
      have runs := lt_skipWhile (fun d => isDigitChar d || d == '.') src inside numeric
      have runsLe := skipWhile_le_max (fun d => isDigitChar d || d == '.') src here
      exact ⟨rfl, by omega, by omega, fun _ => by omega⟩
    split at h
    · split at h
      · rename_i closing
        simp only [Except.ok.injEq, Prod.mk.injEq] at h
        obtain ⟨rfl, rfl, rfl⟩ := h
        have after : here + 1 ≤ stringEnd src (here + 1) := le_skipWhile _ src (here + 1)
        simp only [beq_iff_eq] at closing
        have inside' := (Array.getElem?_eq_some_iff.mp closing).1
        exact ⟨rfl, by omega, by omega, fun _ => by omega⟩
      · cases h
    · split at h
      · rename_i s found
        simp only [Except.ok.injEq, Prod.mk.injEq] at h
        obtain ⟨rfl, rfl, rfl⟩ := h
        have nonempty := symbols_length_pos _ (List.mem_of_find?_eq_some found)
        have fits := matchesAt_le (List.find?_some found) nonempty
        exact ⟨rfl, by omega, fits, fun _ => by omega⟩
      · cases h

end BasicJvm.Source

namespace BasicJvm.Syntax

open BasicJvm.Source

/-! ## What is left to read -/

/-- Where the next token starts: at the token looked at, or else at the scanning position. -/
def ParserState.nextStart (s : ParserState) : Nat :=
  match s.peeked with
  | some t => t.start
  | none => s.pos

/-- The characters left to read. -/
def ParserState.unread (s : ParserState) : Nat := s.src.size - s.nextStart

/-- A state reading can be in: the position within the source, and a token looked at starting
no later than it, and before it unless it is the end of the source. -/
structure ParserState.Sane (s : ParserState) : Prop where
  pos_le : s.pos ≤ s.src.size
  peeked_le : ∀ t, s.peeked = some t → t.start ≤ s.pos
  peeked_lt : ∀ t, s.peeked = some t → t.kind ≠ .endOfFile → t.start < s.pos

/-- The state `parseProgram` starts reading a source from. -/
def ParserState.start (src : String) : ParserState :=
  ⟨src.toList.toArray, sourceLinesOf src, 0, 1, none, ""⟩

/-- Reading starts sane, with the whole source left to read. -/
theorem ParserState.start_sane (src : String) : (ParserState.start src).Sane :=
  ⟨Nat.zero_le _, fun _ none => (nomatch none), fun _ none => (nomatch none)⟩

@[simp] theorem ParserState.unread_start (src : String) :
    (ParserState.start src).unread = src.toList.length :=
  rfl

/-! ## Looking at a token -/

theorem peekToken_of_peeked {s : ParserState} {t : Token} (h : s.peeked = some t) :
    peekToken.run s = .ok (t, s) := by
  simp [peekToken, h]

theorem peekToken_of_scan {s : ParserState} {tok : Token} {pos line : Nat}
    (h : s.peeked = none) (scan : scanAt s.src s.pos s.line = .ok (tok, pos, line)) :
    peekToken.run s = .ok (tok, { s with pos := pos, line := line, peeked := some tok }) := by
  simp [peekToken, h, scan]

theorem peekToken_of_error {s : ParserState} {e : LexError}
    (h : s.peeked = none) (scan : scanAt s.src s.pos s.line = .error e) :
    peekToken.run s = .error (.lex e) := by
  simp [peekToken, h, scan]

/-- After looking at a token the state holds it. -/
theorem peekToken_peeked {s s' : ParserState} {t : Token} (h : peekToken.run s = .ok (t, s')) :
    s'.peeked = some t := by
  cases hp : s.peeked with
  | some u =>
    rw [peekToken_of_peeked hp] at h
    simp only [Except.ok.injEq, Prod.mk.injEq] at h
    obtain ⟨rfl, rfl⟩ := h
    exact hp
  | none =>
    cases scan : scanAt s.src s.pos s.line with
    | error e => rw [peekToken_of_error hp scan] at h; cases h
    | ok r =>
      rw [peekToken_of_scan hp scan] at h
      simp only [Except.ok.injEq, Prod.mk.injEq] at h
      obtain ⟨rfl, rfl⟩ := h
      rfl

/-- What looking at a token gives: the state now holds the token, reads the same source with
the same label, and has as much left to read. -/
theorem peekToken_ok {s s' : ParserState} {t : Token} (h : peekToken.run s = .ok (t, s'))
    (sane : s.Sane) :
    s'.peeked = some t ∧ s'.src = s.src ∧ s'.sourceLines = s.sourceLines ∧
      s'.label = s.label ∧ s'.Sane ∧ s'.unread = s.unread := by
  cases hp : s.peeked with
  | some u =>
    rw [peekToken_of_peeked hp] at h
    simp only [Except.ok.injEq, Prod.mk.injEq] at h
    obtain ⟨rfl, rfl⟩ := h
    exact ⟨hp, rfl, rfl, rfl, sane, rfl⟩
  | none =>
    cases scan : scanAt s.src s.pos s.line with
    | error e => rw [peekToken_of_error hp scan] at h; cases h
    | ok r =>
      obtain ⟨tok, pos, line⟩ := r
      rw [peekToken_of_scan hp scan] at h
      simp only [Except.ok.injEq, Prod.mk.injEq] at h
      obtain ⟨rfl, rfl⟩ := h
      obtain ⟨start, ge, le, lt⟩ := scanAt_bounds scan sane.pos_le
      refine ⟨rfl, rfl, rfl, rfl, ⟨le, ?_, ?_⟩, ?_⟩
      · intro u hu; cases hu; show tok.start ≤ pos; omega
      · intro u hu ne; cases hu; show tok.start < pos; exact start ▸ lt ne
      · simp [ParserState.unread, ParserState.nextStart, hp, start]

/-- Looking again at a token looked at gives it once more and changes nothing. -/
theorem peekToken_again {s s' : ParserState} {t : Token} (h : peekToken.run s = .ok (t, s')) :
    peekToken.run s' = .ok (t, s') :=
  peekToken_of_peeked (peekToken_peeked h)

/-! ## Consuming a token -/

theorem nextToken_run (s : ParserState) :
    nextToken.run s = (do let (t, s₁) ← peekToken.run s; pure (t, { s₁ with peeked := none })) := by
  simp [nextToken]

theorem nextToken_eq_ok {s s' : ParserState} {t : Token} :
    nextToken.run s = .ok (t, s') ↔
      ∃ s₁, peekToken.run s = .ok (t, s₁) ∧ s' = { s₁ with peeked := none } := by
  rw [nextToken_run]
  cases peekToken.run s with
  | error e => simp [bind, Except.bind]
  | ok r =>
    obtain ⟨u, s₁⟩ := r
    simp only [bind, Except.bind, pure, Except.pure, Except.ok.injEq, Prod.mk.injEq]
    constructor
    · rintro ⟨rfl, rfl⟩; exact ⟨s₁, ⟨rfl, rfl⟩, rfl⟩
    · rintro ⟨_, ⟨rfl, rfl⟩, rfl⟩; exact ⟨rfl, rfl⟩

/-- Consuming the token looked at gives that token. -/
theorem nextToken_of_peek {s s₁ : ParserState} {t : Token} (h : peekToken.run s = .ok (t, s₁)) :
    nextToken.run s₁ = .ok (t, { s₁ with peeked := none }) :=
  nextToken_eq_ok.mpr ⟨s₁, peekToken_again h, rfl⟩

/-- What consuming a token gives: the same source and label, a sane state, no more left to
read, and less for every token but the end of the source. -/
theorem nextToken_ok {s s' : ParserState} {t : Token} (h : nextToken.run s = .ok (t, s'))
    (sane : s.Sane) :
    s'.src = s.src ∧ s'.sourceLines = s.sourceLines ∧ s'.label = s.label ∧ s'.Sane ∧
      s'.unread ≤ s.unread ∧ (t.kind ≠ .endOfFile → s'.unread < s.unread) := by
  obtain ⟨s₁, peek, rfl⟩ := nextToken_eq_ok.mp h
  obtain ⟨held, src, lines, label, sane₁, unread⟩ := peekToken_ok peek sane
  have le := sane₁.peeked_le t held
  have lt := sane₁.peeked_lt t held
  have posLe := sane₁.pos_le
  refine ⟨src, lines, label, ⟨posLe, by simp, by simp⟩, ?_, ?_⟩
  · have : s₁.unread = s₁.src.size - t.start := by
      simp [ParserState.unread, ParserState.nextStart, held]
    simp only [ParserState.unread, ParserState.nextStart] at unread this ⊢
    omega
  · intro ne
    have lt := lt ne
    have : s₁.unread = s₁.src.size - t.start := by
      simp [ParserState.unread, ParserState.nextStart, held]
    simp only [ParserState.unread, ParserState.nextStart] at unread this ⊢
    omega

end BasicJvm.Syntax
