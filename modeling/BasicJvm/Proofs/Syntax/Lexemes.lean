import BasicJvm.Proofs.Syntax.Scanning

/-!
# One token, read from the characters that are left

The scanner works on an array of characters and positions in it.  What it reads from a
position depends only on the characters from there on, so `lexeme` reads a token from that
list of characters: the token's kind, its text, and the characters after it.  `scanAt` is
`lexeme` on `src.toList.drop pos`, with the position after the token counted back from the
end (`scanAt_eq_lexeme`).

Each piece of the scanner has its list form: `wordIn` for the longest word at the front of a
text, `lettersRun` for the letters of a variable name that no word interrupts, `nameLength`
for a whole name.  The longest word is characterised without the fold that finds it
(`wordIn_eq_some_iff`, `wordIn_eq_none_iff`).

The lexical grammar is stated once, as the relation `Lexed kind text rest`: which token
stands at the front of `text ++ rest`, for each kind the condition the scanner checks (the
longest word, a name that no word interrupts, the longest run of digits, a literal closed on
its line, the first symbol of the list). The scanner reads exactly the tokens of the grammar:
`lexeme_of_lexed` (completeness) and `lexeme_inv` (soundness, with the blanks before the token
as a witness), where a token stands in the source as `sourceChars` (a string literal with its
quotes, anything else as its text).

Reading again (`Lexed.reread`, `lexeme_reread`): a token of the grammar stays the same token
when what follows it is replaced by anything that begins with a blank. Words and symbols are
written without blanks, so one that fits before the blank fits inside the token's own text;
this is why the longest word or symbol is found again, and why a name is not cut shorter by a
word it did not meet before.
-/

namespace BasicJvm.Source

/-! ## Characters -/

/-- A character that is neither a blank, nor a double quote, nor a newline: a token's text
may be made of these alone. -/
def isOrdinary (c : Char) : Bool := !isBlank c && c != '"' && c != '\n'

theorem words_ordinary : ∀ w ∈ words, ∀ c ∈ w.1.toList, isOrdinary c = true := by
  have check : (words.all fun w => w.1.toList.all isOrdinary) = true := by decide
  simpa [List.all_eq_true] using check

theorem symbols_ordinary : ∀ s ∈ symbols, ∀ c ∈ s.toList, isOrdinary c = true := by
  have check : (symbols.all fun s => s.toList.all isOrdinary) = true := by decide
  simpa [List.all_eq_true] using check

theorem words_text_nodup : (words.map Prod.fst).Nodup := by decide

theorem words_not_endOfLine : ∀ w ∈ words, w.2 ≠ .endOfLine := by decide

theorem isOrdinary_of_upper {c : Char} (h : isUpperLetter c = true) : isOrdinary c = true := by
  simp only [isUpperLetter, Bool.and_eq_true, decide_eq_true_eq] at h
  have : c ≠ ' ' ∧ c ≠ '\t' ∧ c ≠ '\r' ∧ c ≠ '"' ∧ c ≠ '\n' := by
    refine ⟨?_, ?_, ?_, ?_, ?_⟩ <;> (rintro rfl; simp at h)
  simp [isOrdinary, isBlank, this]

theorem isOrdinary_of_digit {c : Char} (h : isDigitChar c = true) : isOrdinary c = true := by
  simp only [isDigitChar, Bool.and_eq_true, decide_eq_true_eq] at h
  have : c ≠ ' ' ∧ c ≠ '\t' ∧ c ≠ '\r' ∧ c ≠ '"' ∧ c ≠ '\n' := by
    refine ⟨?_, ?_, ?_, ?_, ?_⟩ <;> (rintro rfl; simp at h)
  simp [isOrdinary, isBlank, this]

/-- A text that starts with a blank, or is empty: what may follow a token that is read
again. -/
def BlankHeaded (r : List Char) : Prop := ∀ c ∈ r.head?, isBlank c = true

theorem BlankHeaded.nil : BlankHeaded [] := fun _ h => nomatch h

theorem BlankHeaded.cons {c : Char} {r : List Char} (h : isBlank c = true) :
    BlankHeaded (c :: r) := by
  intro d hd
  cases hd
  exact h

/-- Ordinary characters followed by a blank-headed text: a prefix made of ordinary characters
stops within them. -/
theorem prefix_of_ordinary {w u r : List Char} (ord : ∀ c ∈ w, isOrdinary c = true)
    (blank : BlankHeaded r) (h : w <+: u ++ r) : w <+: u := by
  by_cases short : w.length ≤ u.length
  · exact List.prefix_of_prefix_length_le h (List.prefix_append u r) short
  · -- a longer prefix would take the blank that starts `r`
    exfalso
    obtain ⟨t, ht⟩ := h
    have hu : u.length < w.length := by omega
    cases r with
    | nil =>
      have := congrArg List.length ht
      simp at this
      omega
    | cons c r =>
      have at_u : w[u.length]? = some c := by
        have := congrArg (·[u.length]?) ht
        simp only [List.getElem?_append_left (by omega : u.length < w.length)] at this
        simpa using this
      have mem : c ∈ w := List.mem_of_getElem? at_u
      have ordc := ord c mem
      have blankc := blank c rfl
      simp [isOrdinary, blankc] at ordc

/-! ## Runs of characters -/

theorem drop_takeWhile_length (p : Char → Bool) (cs : List Char) :
    cs.drop (cs.takeWhile p).length = cs.dropWhile p := by
  have split := List.takeWhile_append_dropWhile (p := p) (l := cs)
  calc cs.drop (cs.takeWhile p).length
      = (cs.takeWhile p ++ cs.dropWhile p).drop (cs.takeWhile p).length := by rw [split]
    _ = cs.dropWhile p := List.drop_left

section Views

variable (src : Array Char)

theorem getElem?_eq_head_drop (pos : Nat) : src[pos]? = (src.toList.drop pos).head? := by
  rw [List.head?_drop, Array.getElem?_toList]

/-- A run of characters of a class, counted on the characters that are left. -/
theorem skipWhile_eq (p : Char → Bool) (pos : Nat) :
    skipWhile p src pos = pos + ((src.toList.drop pos).takeWhile p).length := by
  fun_induction skipWhile p src pos with
  | case1 pos inside hp ih =>
    have inside' : pos < src.toList.length := by simpa using inside
    rw [ih, List.drop_eq_getElem_cons inside', List.takeWhile_cons]
    simp [hp]
    omega
  | case2 pos inside hp =>
    have inside' : pos < src.toList.length := by simpa using inside
    rw [List.drop_eq_getElem_cons inside', List.takeWhile_cons]
    simp [hp]
  | case3 pos outside =>
    rw [List.drop_eq_nil_of_le (by simpa using Nat.le_of_not_lt outside)]
    simp

/-- Skipping a run leaves the characters after it. -/
theorem drop_skipWhile (p : Char → Bool) (pos : Nat) :
    src.toList.drop (skipWhile p src pos) = (src.toList.drop pos).dropWhile p := by
  rw [skipWhile_eq, ← List.drop_drop, drop_takeWhile_length]

/-- The characters of a word, numbered from `k`, all stand in the source from `here` on
exactly when the word is a prefix of the characters left from `here + k`. -/
theorem zipIdx_all_eq_isPrefixOf (here : Nat) : ∀ (ws : List Char) (k : Nat),
    ((ws.zipIdx k).all fun (c, i) => src[here + i]? == some c) =
      ws.isPrefixOf (src.toList.drop (here + k))
  | [], _ => by simp
  | a :: ws, k => by
    rw [List.zipIdx_cons, List.all_cons, zipIdx_all_eq_isPrefixOf here ws (k + 1)]
    by_cases inside : here + k < src.toList.length
    · rw [List.drop_eq_getElem_cons inside, List.isPrefixOf_cons_cons]
      simp only [← Array.getElem?_toList, List.getElem?_eq_getElem inside, Option.some_beq_some,
        ← Nat.add_assoc]
      rw [BEq.comm]
    · rw [List.drop_eq_nil_of_le (by omega : src.toList.length ≤ here + k)]
      simp [← Array.getElem?_toList, List.getElem?_eq_none (by omega : src.toList.length ≤ here + k)]

/-- Whether a word stands in the source at a position is whether it is a prefix of the
characters left there. -/
theorem matchesAt_eq (here : Nat) (w : String) :
    matchesAt src here w = w.toList.isPrefixOf (src.toList.drop here) := by
  unfold matchesAt
  simpa using zipIdx_all_eq_isPrefixOf src here w.toList 0

/-- The same, as a test on words. -/
theorem matchesAt_fun (here : Nat) :
    matchesAt src here = fun w => w.toList.isPrefixOf (src.toList.drop here) :=
  funext (matchesAt_eq src here)

end Views

/-! ## The longest word -/

/-- The step of the search for the longest word at the front of a text: a word that stands
there replaces a shorter one found before. -/
def longerWord (cs : List Char) (best : Option (String × TokenKind)) (w : String × TokenKind) :
    Option (String × TokenKind) :=
  if w.1.toList.isPrefixOf cs then
    match best with
    | some b => if b.1.length < w.1.length then some w else best
    | none => some w
  else best

/-- The longest keyword or function name at the front of a text. -/
def wordIn (cs : List Char) : Option (String × TokenKind) :=
  words.foldl (longerWord cs) none

theorem wordAt_eq (src : Array Char) (here : Nat) :
    wordAt src here = wordIn (src.toList.drop here) := by
  unfold wordAt wordIn
  rw [matchesAt_fun]
  rfl

/-- The search never gives up a word for a shorter one. -/
theorem foldl_longerWord_le (cs : List Char) :
    ∀ (ws : List (String × TokenKind)) (best : Option (String × TokenKind)) (b₀ : String × TokenKind),
      best = some b₀ → ∃ b, ws.foldl (longerWord cs) best = some b ∧ b₀.1.length ≤ b.1.length
  | [], _, b₀, h => ⟨b₀, h, Nat.le_refl _⟩
  | x :: xs, best, b₀, h => by
    subst h
    -- one step keeps a word at least as long as `b₀`
    have step : ∃ b₁, longerWord cs (some b₀) x = some b₁ ∧ b₀.1.length ≤ b₁.1.length := by
      unfold longerWord
      by_cases shorter : b₀.1.length < x.1.length
      · by_cases hx : x.1.toList.isPrefixOf cs = true
        · exact ⟨x, by simp [hx, shorter], by omega⟩
        · exact ⟨b₀, by simp [hx], Nat.le_refl _⟩
      · exact ⟨b₀, by simp [shorter], Nat.le_refl _⟩
    obtain ⟨b₁, hb₁, le₁⟩ := step
    obtain ⟨b, hb, le⟩ := foldl_longerWord_le cs xs _ b₁ hb₁
    exact ⟨b, by rw [List.foldl_cons]; exact hb, Nat.le_trans le₁ le⟩

/-- Every word met that stands at the front of the text is at most as long as the word
found. -/
theorem foldl_longerWord_ge (cs : List Char) :
    ∀ (ws : List (String × TokenKind)) (best : Option (String × TokenKind)),
      ∀ w ∈ ws, w.1.toList <+: cs →
        ∃ b, ws.foldl (longerWord cs) best = some b ∧ w.1.length ≤ b.1.length
  | [], _, w, hw, _ => nomatch hw
  | x :: xs, best, w, hw, hp => by
    rw [List.foldl_cons]
    rcases List.mem_cons.mp hw with rfl | later
    · -- the word itself is kept, or one at least as long
      have step : ∃ b₁, longerWord cs best w = some b₁ ∧ w.1.length ≤ b₁.1.length := by
        unfold longerWord
        rw [if_pos (List.isPrefixOf_iff_prefix.mpr hp)]
        cases best with
        | none => exact ⟨w, rfl, Nat.le_refl _⟩
        | some b₀ =>
          by_cases shorter : b₀.1.length < w.1.length
          · exact ⟨w, by simp [shorter], Nat.le_refl _⟩
          · exact ⟨b₀, by simp [shorter], by omega⟩
      obtain ⟨b₁, hb₁, le₁⟩ := step
      obtain ⟨b, hb, le⟩ := foldl_longerWord_le cs xs _ b₁ hb₁
      exact ⟨b, hb, Nat.le_trans le₁ le⟩
    · exact foldl_longerWord_ge cs xs _ w later hp

/-- The word found was found before, or is one of the words met and stands at the front of
the text. -/
theorem foldl_longerWord_mem (cs : List Char) :
    ∀ (ws : List (String × TokenKind)) (best : Option (String × TokenKind)) (b : String × TokenKind),
      ws.foldl (longerWord cs) best = some b → best = some b ∨ (b ∈ ws ∧ b.1.toList <+: cs)
  | [], _, _, h => .inl h
  | x :: xs, best, b, h => by
    rw [List.foldl_cons] at h
    rcases foldl_longerWord_mem cs xs _ b h with found | later
    · unfold longerWord at found
      split at found
      · rename_i hx
        split at found
        · split at found
          · cases found
            exact .inr ⟨List.mem_cons_self, List.isPrefixOf_iff_prefix.mp hx⟩
          · exact .inl found
        · cases found
          exact .inr ⟨List.mem_cons_self, List.isPrefixOf_iff_prefix.mp hx⟩
      · exact .inl found
    · exact .inr ⟨List.mem_cons_of_mem x later.1, later.2⟩

/-- The word found is a word standing at the front of the text, and none standing there is
longer. -/
theorem wordIn_spec (cs : List Char) :
    match wordIn cs with
    | some b => b ∈ words ∧ b.1.toList <+: cs ∧ ∀ w ∈ words, w.1.toList <+: cs → w.1.length ≤ b.1.length
    | none => ∀ w ∈ words, ¬ w.1.toList <+: cs := by
  unfold wordIn
  split
  · rename_i b found
    rcases foldl_longerWord_mem cs words none b found with absurd | ⟨mem, pre⟩
    · cases absurd
    refine ⟨mem, pre, fun w hw hp => ?_⟩
    obtain ⟨b', hb', le⟩ := foldl_longerWord_ge cs words none w hw hp
    rw [found] at hb'
    cases hb'
    exact le
  · rename_i empty
    intro w hw hp
    obtain ⟨b, hb, -⟩ := foldl_longerWord_ge cs words none w hw hp
    rw [empty] at hb
    cases hb

theorem wordIn_eq_none_iff {cs : List Char} :
    wordIn cs = none ↔ ∀ w ∈ words, ¬ w.1.toList <+: cs := by
  have spec := wordIn_spec cs
  constructor
  · intro h
    rw [h] at spec
    exact spec
  · intro none
    cases h : wordIn cs with
    | none => rfl
    | some b =>
      rw [h] at spec
      exact absurd spec.2.1 (none b spec.1)

/-- Two words of the same text are the same word. -/
theorem words_eq_of_text {a b : String × TokenKind} (ha : a ∈ words) (hb : b ∈ words)
    (text : a.1 = b.1) : a = b := by
  obtain ⟨i, hi, rfl⟩ := List.getElem_of_mem ha
  obtain ⟨j, hj, rfl⟩ := List.getElem_of_mem hb
  have same : i = j := by
    have inside : ∀ k, k < words.length → k < (words.map Prod.fst).length := by simp
    exact (@List.getElem_inj _ i j _ (inside i hi) (inside j hj) words_text_nodup).mp
      (by simpa using text)
  subst same
  rfl

theorem wordIn_eq_some_iff {cs : List Char} {b : String × TokenKind} :
    wordIn cs = some b ↔
      b ∈ words ∧ b.1.toList <+: cs ∧ ∀ w ∈ words, w.1.toList <+: cs → w.1.length ≤ b.1.length := by
  have spec := wordIn_spec cs
  constructor
  · intro h
    rw [h] at spec
    exact spec
  · rintro ⟨mem, pre, longest⟩
    cases h : wordIn cs with
    | none =>
      rw [h] at spec
      exact absurd pre (spec b mem)
    | some b' =>
      rw [h] at spec
      obtain ⟨mem', pre', longest'⟩ := spec
      -- both are the longest word standing there, so they have one length and one text
      have len : b'.1.length = b.1.length :=
        Nat.le_antisymm (longest b' mem' pre') (longest' b mem pre)
      have text : b'.1.toList = b.1.toList := by
        rw [List.prefix_iff_eq_take] at pre pre'
        rw [pre, pre', String.length_toList, String.length_toList, len]
      exact congrArg some (words_eq_of_text mem' mem (String.toList_inj.mp text))

/-! ## Names -/

/-- How many letters of a variable name follow its first one: upper-case letters, up to one
where a word starts. -/
def lettersRun : List Char → Nat
  | [] => 0
  | c :: cs => if isUpperLetter c && (wordIn (c :: cs)).isNone then lettersRun cs + 1 else 0

/-- The length of a variable name at the front of a text: its first letter, the letters
that follow up to the start of a word, digits, then an optional `$`. -/
def nameLength (cs : List Char) : Nat :=
  let letters := lettersRun (cs.drop 1) + 1
  let digits := letters + ((cs.drop letters).takeWhile isDigitChar).length
  if (cs.drop digits).head? = some '$' then digits + 1 else digits

theorem lettersRun_le : ∀ cs : List Char, lettersRun cs ≤ cs.length
  | [] => Nat.le_refl _
  | c :: cs => by
    unfold lettersRun
    have := lettersRun_le cs
    split <;> simp only [List.length_cons] <;> omega

/-- A name takes no more than the characters there are, when there is one. -/
theorem nameLength_le {c : Char} {rest : List Char} : nameLength (c :: rest) ≤ (c :: rest).length := by
  have letters := lettersRun_le rest
  unfold nameLength
  dsimp only
  generalize hL : lettersRun ((c :: rest).drop 1) + 1 = L
  have hL' : L ≤ (c :: rest).length := by simp at hL ⊢; omega
  have digits := (List.takeWhile_prefix isDigitChar (l := (c :: rest).drop L)).length_le
  simp only [List.length_drop] at digits
  split
  · rename_i dollar
    have inside : L + ((c :: rest).drop L |>.takeWhile isDigitChar).length < (c :: rest).length := by
      by_contra outside
      rw [List.drop_eq_nil_of_le (by omega)] at dollar
      cases dollar
    omega
  · omega

section Views

variable (src : Array Char)

theorem nameLettersEnd_eq (pos : Nat) :
    nameLettersEnd src pos = pos + lettersRun (src.toList.drop pos) := by
  fun_induction nameLettersEnd src pos with
  | case1 pos inside letter ih =>
    have inside' : pos < src.toList.length := by simpa using inside
    rw [wordAt_eq, List.drop_eq_getElem_cons inside'] at letter
    rw [ih, List.drop_eq_getElem_cons inside', lettersRun]
    simp only [Array.getElem_toList] at letter ⊢
    rw [if_pos letter]
    omega
  | case2 pos inside letter =>
    have inside' : pos < src.toList.length := by simpa using inside
    rw [wordAt_eq, List.drop_eq_getElem_cons inside'] at letter
    rw [List.drop_eq_getElem_cons inside', lettersRun]
    simp only [Array.getElem_toList] at letter ⊢
    rw [if_neg letter]
    omega
  | case3 pos outside =>
    rw [List.drop_eq_nil_of_le (by simpa using Nat.le_of_not_lt outside)]
    rfl

theorem nameEnd_eq (pos : Nat) : nameEnd src pos = pos + nameLength (src.toList.drop pos) := by
  unfold nameEnd nameLength
  simp only [nameLettersEnd_eq, skipWhile_eq, getElem?_eq_head_drop, List.drop_drop,
    beq_iff_eq]
  have assoc : pos + 1 + lettersRun (src.toList.drop (pos + 1)) =
      pos + (lettersRun (src.toList.drop (pos + 1)) + 1) := by omega
  rw [assoc]
  simp only [Nat.add_assoc]
  split <;> omega

/-- The characters between two positions. -/
theorem slice_eq {first last : Nat} : slice src first last =
    String.ofList ((src.toList.drop first).take (last - first)) := by
  simp [slice, Array.toList_extract, List.extract_eq_take_drop]

/-- A position `k` characters into what is left, counted back from the end. -/
theorem add_eq_size_sub {here k : Nat} {cs : List Char} (within : here ≤ src.size)
    (left : src.toList.drop here = cs) (le : k ≤ cs.length) :
    here + k = src.size - (cs.drop k).length := by
  have total := congrArg List.length left
  simp only [List.length_drop, Array.length_toList] at total ⊢
  omega

end Views

/-! ## One token -/

/-- Read one token from the front of a text, on line `line`: its kind, its text, and the
characters after it. -/
def lexeme (line : Nat) (cs : List Char) : Except LexError (TokenKind × String × List Char) :=
  match cs.dropWhile isBlank with
  | [] => .ok (.endOfFile, "", [])
  | c :: rest =>
    if c == '\n' then .ok (.endOfLine, "\n", rest)
    else if isUpperLetter c then
      match wordIn (c :: rest) with
      | some (w, kind) => .ok (kind, w, (c :: rest).drop w.length)
      | none =>
        let n := nameLength (c :: rest)
        .ok (.name, String.ofList ((c :: rest).take n), (c :: rest).drop n)
    else if isDigitChar c || c == '.' then
      let run := (c :: rest).takeWhile fun d => isDigitChar d || d == '.'
      .ok (.number, String.ofList run, (c :: rest).drop run.length)
    else if c == '"' then
      let body := rest.takeWhile fun d => d != '"' && d != '\n'
      match rest.drop body.length with
      | '"' :: after => .ok (.string, String.ofList body, after)
      | _ => .error (.unterminatedString line)
    else
      match symbols.find? fun s => s.toList.isPrefixOf (c :: rest) with
      | some s => .ok (.symbol, s, (c :: rest).drop s.length)
      | none => .error (.unexpectedChar line c)

/-- `scanAt` reads `lexeme` from the characters left at the position: the position after the
token is counted back from the end, and the line moves on after a newline. -/
theorem scanAt_eq_lexeme (src : Array Char) {pos : Nat} (line : Nat) (within : pos ≤ src.size) :
    scanAt src pos line = (lexeme line (src.toList.drop pos)).map fun r =>
      (⟨r.1, r.2.1, line, pos⟩, src.size - r.2.2.length,
        if r.1 = .endOfLine then line + 1 else line) := by
  have hereLe : skipWhile isBlank src pos ≤ src.size := by
    have := skipWhile_le_max isBlank src pos
    omega
  unfold scanAt lexeme
  rw [← drop_skipWhile]
  dsimp only
  generalize skipWhile isBlank src pos = here at hereLe
  simp only [wordAt_eq, nameEnd_eq, slice_eq, stringEnd, skipWhile_eq, getElem?_eq_head_drop,
    matchesAt_fun, Nat.add_assoc]
  cases hd : src.toList.drop here with
  | nil =>
    have atEnd := add_eq_size_sub src hereLe hd (Nat.le_refl 0)
    simp only [Nat.add_zero, List.drop_zero, List.length_nil, Nat.sub_zero] at atEnd
    simp [atEnd, Except.map]
  | cons c rest =>
    -- each branch ends its token inside what is left, so the end is counted back from there
    have back : ∀ k, k ≤ (c :: rest).length → here + k = src.size - ((c :: rest).drop k).length :=
      fun k le => add_eq_size_sub src hereLe hd le
    have dropAt : ∀ k, src.toList.drop (here + k) = (c :: rest).drop k := fun k => by
      rw [← List.drop_drop, hd]
    simp only [dropAt, List.head?_cons]
    by_cases nl : c = '\n'
    · subst nl
      have next := back 1 (by simp)
      simp only [List.drop_succ_cons, List.drop_zero] at next
      simp [Except.map, next]
    have nl' : (c == '\n') = false := by simpa using nl
    simp only [nl', Bool.false_eq_true, ↓reduceIte]
    by_cases up : isUpperLetter c = true
    · simp only [up, ↓reduceIte]
      cases hw : wordIn (c :: rest) with
      | some b =>
        obtain ⟨w, kind⟩ := b
        obtain ⟨mem, pre, -⟩ := wordIn_eq_some_iff.mp hw
        have le : w.length ≤ (c :: rest).length := String.length_toList ▸ pre.length_le
        have notEnd := words_not_endOfLine _ mem
        simp only at notEnd
        simp [Except.map, back w.length le, notEnd]
      | none =>
        have le : nameLength (c :: rest) ≤ (c :: rest).length := nameLength_le
        simp only [Except.map, Nat.add_sub_cancel_left]
        rw [back _ le]
        simp
    simp only [up, Bool.false_eq_true, ↓reduceIte]
    by_cases dg : (isDigitChar c || c == '.') = true
    · simp only [dg, ↓reduceIte, Except.map, Nat.add_sub_cancel_left]
      have pre := List.takeWhile_prefix (fun d => isDigitChar d || d == '.') (l := c :: rest)
      rw [← List.prefix_iff_eq_take.mp pre, back _ pre.length_le]
      simp
    simp only [dg, Bool.false_eq_true, ↓reduceIte]
    by_cases qt : c = '"'
    · subst qt
      simp only [beq_self_eq_true, ↓reduceIte, List.drop_one, List.tail_cons]
      generalize hb : (rest.takeWhile fun d => d != '"' && d != '\n') = body
      have pre : body <+: rest := hb ▸ List.takeWhile_prefix _
      have skip : ('"' :: rest).drop (1 + body.length) = rest.drop body.length := by
        rw [Nat.add_comm]
        rfl
      have width : here + (1 + body.length) - (here + 1) = body.length := by omega
      rw [skip, width, ← List.prefix_iff_eq_take.mp pre]
      cases ha : rest.drop body.length with
      | nil => simp [Except.map]
      | cons x after =>
        by_cases closing : x = '"'
        · subst closing
          -- the closing quote is the last character of the token
          have closed := back (1 + body.length + 1) (by
            have := congrArg List.length ha
            simp only [List.length_drop, List.length_cons] at this ⊢
            omega)
          have rest' : ('"' :: rest).drop (1 + body.length + 1) = after := by
            rw [show 1 + body.length + 1 = body.length + 1 + 1 by omega, List.drop_succ_cons,
              ← List.drop_drop, ha]
            rfl
          rw [rest'] at closed
          simp only [List.head?_cons, beq_self_eq_true, ↓reduceIte, Except.map]
          rw [← closed, Nat.add_assoc]
          simp
        · simp [closing, Except.map]
    · have qt' : (c == '"') = false := by simpa using qt
      simp only [qt', Bool.false_eq_true, ↓reduceIte]
      cases hs : symbols.find? fun s => s.toList.isPrefixOf (c :: rest) with
      | none => simp [Except.map]
      | some sym =>
        have found := List.find?_some hs
        have le : sym.length ≤ (c :: rest).length :=
          String.length_toList ▸ (List.isPrefixOf_iff_prefix.mp found).length_le
        simp [Except.map, back sym.length le]

/-! ## The lexical grammar -/

/-- The source text of a token: a string literal with its quotes, anything else as its
text. -/
def sourceChars (kind : TokenKind) (text : String) : List Char :=
  match kind with
  | .string => '"' :: text.toList ++ ['"']
  | _ => text.toList

/-- The tokens as the lexical grammar has them: `Lexed kind text rest` says that the token of
that kind and text is what is read from its source text followed by `rest`. -/
inductive Lexed : TokenKind → String → List Char → Prop
  /-- Nothing is left. -/
  | endOfFile : Lexed .endOfFile "" []
  | endOfLine (rest : List Char) : Lexed .endOfLine "\n" rest
  /-- The longest keyword or function name standing there. -/
  | word {w : String} {kind : TokenKind} {rest : List Char}
      (found : wordIn (w.toList ++ rest) = some (w, kind)) : Lexed kind w rest
  /-- A letter where no word starts, the letters that follow up to the start of a word,
  digits, and perhaps a `$`. -/
  | name {c : Char} {letters digits dollar rest : List Char}
      (upper : isUpperLetter c = true)
      (noWord : wordIn (c :: letters ++ digits ++ dollar ++ rest) = none)
      (lettersStop : lettersRun (letters ++ digits ++ dollar ++ rest) = letters.length)
      (numeric : ∀ d ∈ digits, isDigitChar d = true)
      (digitsStop : ∀ d ∈ (dollar ++ rest).head?, isDigitChar d = false)
      (sign : dollar = ['$'] ∨ (dollar = [] ∧ rest.head? ≠ some '$')) :
      Lexed .name (String.ofList (c :: letters ++ digits ++ dollar)) rest
  /-- The longest run of digits and points. -/
  | number {run rest : List Char} (nonempty : run ≠ [])
      (numeric : ∀ d ∈ run, (isDigitChar d || d == '.') = true)
      (stop : ∀ d ∈ rest.head?, (isDigitChar d || d == '.') = false) :
      Lexed .number (String.ofList run) rest
  /-- The text up to the closing quote, on one line. -/
  | string {body rest : List Char} (plain : ∀ d ∈ body, d ≠ '"' ∧ d ≠ '\n') :
      Lexed .string (String.ofList body) rest
  /-- The first symbol of the list standing there. -/
  | symbol {s : String} {rest : List Char}
      (found : symbols.find? (fun t => t.toList.isPrefixOf (s.toList ++ rest)) = some s) :
      Lexed .symbol s rest

/-! ## Character classes -/

section Classes

variable {c : Char}

theorem upper_classes (h : isUpperLetter c = true) :
    isBlank c = false ∧ c ≠ '\n' ∧ c ≠ '"' ∧ (isDigitChar c || c == '.') = false ∧ c ≠ '$' := by
  simp only [isUpperLetter, Bool.and_eq_true, decide_eq_true_eq] at h
  have ne : c ≠ ' ' ∧ c ≠ '\t' ∧ c ≠ '\r' ∧ c ≠ '\n' ∧ c ≠ '"' ∧ c ≠ '.' ∧ c ≠ '$' := by
    refine ⟨?_, ?_, ?_, ?_, ?_, ?_, ?_⟩ <;> (rintro rfl; simp at h)
  have notDigit : isDigitChar c = false := by
    simp only [isDigitChar, Bool.and_eq_false_iff, decide_eq_false_iff_not]
    right
    intro le
    have := h.1
    exact absurd (Char.le_trans this le) (by decide)
  simp [isBlank, ne, notDigit]

theorem isDigitChar_not_upper (h : isDigitChar c = true) : isUpperLetter c = false := by
  cases up : isUpperLetter c
  · rfl
  · have := (upper_classes up).2.2.2.1
    simp [h] at this

theorem numeric_classes (h : (isDigitChar c || c == '.') = true) :
    isBlank c = false ∧ c ≠ '\n' ∧ c ≠ '"' ∧ isUpperLetter c = false := by
  have notUpper : isUpperLetter c = false := by
    cases up : isUpperLetter c
    · rfl
    · have := (upper_classes up).2.2.2.1
      rw [this] at h
      cases h
  have ne : c ≠ ' ' ∧ c ≠ '\t' ∧ c ≠ '\r' ∧ c ≠ '\n' ∧ c ≠ '"' := by
    simp only [Bool.or_eq_true, isDigitChar, Bool.and_eq_true, decide_eq_true_eq, beq_iff_eq] at h
    refine ⟨?_, ?_, ?_, ?_, ?_⟩ <;> (rintro rfl; simp at h)
  simp [isBlank, ne, notUpper]

theorem blank_classes (h : isBlank c = true) :
    isUpperLetter c = false ∧ (isDigitChar c || c == '.') = false ∧ c ≠ '$' ∧ c ≠ '\n' ∧
      c ≠ '"' ∧ isDigitChar c = false := by
  simp only [isBlank, Bool.or_eq_true, beq_iff_eq] at h
  rcases h with (rfl | rfl) | rfl <;> decide

end Classes

theorem words_head_upper :
    ∀ w ∈ words, w.1.toList ≠ [] ∧ ∀ c ∈ w.1.toList.take 1, isUpperLetter c = true := by
  have check : (words.all fun w =>
      !w.1.toList.isEmpty && (w.1.toList.take 1).all isUpperLetter) = true := by
    decide
  simpa [List.all_eq_true, List.isEmpty_iff] using check

theorem words_kind : ∀ w ∈ words, w.2 = .keyword ∨ w.2 = .function := by decide

theorem symbols_head :
    ∀ s ∈ symbols, s.toList ≠ [] ∧ ∀ c ∈ s.toList.take 1, isBlank c = false ∧ c ≠ '\n' ∧
      isUpperLetter c = false ∧ (isDigitChar c || c == '.') = false ∧ c ≠ '"' := by
  have check : (symbols.all fun s => !s.toList.isEmpty && (s.toList.take 1).all fun c =>
      !isBlank c && c != '\n' && !isUpperLetter c && !(isDigitChar c || c == '.') && c != '"') =
        true := by
    decide
  simpa [List.all_eq_true, List.isEmpty_iff, and_assoc] using check

/-! ## Reading a token of the grammar -/

theorem dropWhile_blanks {pre : List Char} (blanks : ∀ b ∈ pre, isBlank b = true) {c : Char}
    {t : List Char} (h : isBlank c = false) : (pre ++ c :: t).dropWhile isBlank = c :: t := by
  rw [List.dropWhile_append_of_pos blanks, List.dropWhile_cons_of_neg (by simp [h])]

theorem dropWhile_all_blank : ∀ {pre : List Char}, (∀ b ∈ pre, isBlank b = true) →
    pre.dropWhile isBlank = []
  | [], _ => rfl
  | b :: pre, blanks => by
    rw [List.dropWhile_cons_of_pos (blanks b List.mem_cons_self)]
    exact dropWhile_all_blank fun x hx => blanks x (List.mem_cons_of_mem b hx)

/-- The length of a name written as the grammar has it. -/
theorem nameLength_eq {c : Char} {letters digits dollar rest : List Char}
    (lettersStop : lettersRun (letters ++ (digits ++ (dollar ++ rest))) = letters.length)
    (numeric : ∀ d ∈ digits, isDigitChar d = true)
    (digitsStop : ∀ d ∈ (dollar ++ rest).head?, isDigitChar d = false)
    (sign : dollar = ['$'] ∨ (dollar = [] ∧ rest.head? ≠ some '$')) :
    nameLength (c :: (letters ++ (digits ++ (dollar ++ rest)))) =
      letters.length + digits.length + dollar.length + 1 := by
  have dropL : (c :: (letters ++ (digits ++ (dollar ++ rest)))).drop (letters.length + 1) =
      digits ++ (dollar ++ rest) := by
    rw [List.drop_succ_cons, List.drop_left]
  have run : (digits ++ (dollar ++ rest)).takeWhile isDigitChar = digits := by
    rw [List.takeWhile_append_of_pos numeric]
    cases h : dollar ++ rest with
    | nil => simp
    | cons d t =>
      have := digitsStop d (by simp [h])
      simp [this]
  have dropD : (c :: (letters ++ (digits ++ (dollar ++ rest)))).drop
      (letters.length + 1 + digits.length) = dollar ++ rest := by
    rw [show letters.length + 1 + digits.length = (letters ++ digits).length + 1 by simp; omega,
      List.drop_succ_cons, ← List.append_assoc, List.drop_left]
  unfold nameLength
  simp only [List.drop_one, List.tail_cons, lettersStop, dropL, run, dropD]
  rcases sign with rfl | ⟨rfl, noDollar⟩
  · simp
    omega
  · simp [noDollar]
    omega

/-- Completeness of the scanner for the grammar: what the grammar derives, after blanks, is
read as that token. -/
theorem lexeme_of_lexed {kind : TokenKind} {text : String} {rest : List Char}
    (h : Lexed kind text rest) {pre : List Char} (blanks : ∀ b ∈ pre, isBlank b = true)
    (line : Nat) : lexeme line (pre ++ sourceChars kind text ++ rest) = .ok (kind, text, rest) := by
  induction h with
  | endOfFile =>
    unfold lexeme
    rw [show sourceChars .endOfFile "" = [] from rfl, List.append_nil, List.append_nil,
      dropWhile_all_blank blanks]
  | endOfLine rest =>
    unfold lexeme
    rw [show sourceChars .endOfLine "\n" = ['\n'] from rfl, List.append_assoc, List.singleton_append,
      dropWhile_blanks blanks (by decide)]
    simp
  | @word w kind rest found =>
    have spec := wordIn_spec (w.toList ++ rest)
    rw [found] at spec
    obtain ⟨mem, -, -⟩ := spec
    have src : sourceChars kind w = w.toList := by
      rcases words_kind _ mem with same | same <;> (simp only at same; simp [same, sourceChars])
    obtain ⟨nonempty, first⟩ := words_head_upper _ mem
    simp only at nonempty first
    rw [src]
    obtain ⟨c, t, hw⟩ := List.exists_cons_of_ne_nil nonempty
    have up : isUpperLetter c = true := first c (by simp [hw])
    obtain ⟨notBlank, notNewline, -⟩ := upper_classes up
    unfold lexeme
    rw [List.append_assoc, hw, List.cons_append, dropWhile_blanks blanks notBlank]
    rw [hw, List.cons_append] at found
    simp only [notNewline, beq_iff_eq, ↓reduceIte, up, found, Except.ok.injEq, Prod.mk.injEq,
      true_and]
    rw [← String.length_toList, hw, ← List.cons_append, List.drop_left]
  | @name c letters digits dollar rest upper noWord lettersStop numeric digitsStop sign =>
    obtain ⟨notBlank, notNewline, -⟩ := upper_classes upper
    simp only [List.append_assoc] at lettersStop
    have len := nameLength_eq (c := c) lettersStop numeric digitsStop sign
    unfold lexeme
    simp only [sourceChars, String.toList_ofList, List.cons_append, List.append_assoc]
    rw [dropWhile_blanks blanks notBlank]
    simp only [List.cons_append, List.append_assoc] at noWord
    simp only [notNewline, beq_iff_eq, ↓reduceIte, upper, noWord, len]
    have whole : (c :: (letters ++ (digits ++ dollar))).length =
        letters.length + digits.length + dollar.length + 1 := by simp; omega
    have split : c :: (letters ++ (digits ++ (dollar ++ rest))) =
        c :: (letters ++ (digits ++ dollar)) ++ rest := by simp
    rw [split, ← whole, List.take_left, List.drop_left]
  | @number run rest nonempty numeric stop =>
    obtain ⟨c, t, rfl⟩ := List.exists_cons_of_ne_nil nonempty
    obtain ⟨notBlank, notNewline, -, notUpper⟩ := numeric_classes (numeric c (by simp))
    have run : ((c :: t) ++ rest).takeWhile (fun d => isDigitChar d || d == '.') = c :: t := by
      rw [List.takeWhile_append_of_pos numeric]
      cases rest with
      | nil => simp
      | cons d r => simp [stop d rfl]
    unfold lexeme
    simp only [sourceChars, String.toList_ofList]
    rw [List.append_assoc, List.cons_append, dropWhile_blanks blanks notBlank]
    have first := numeric c (by simp)
    simp only [notNewline, beq_iff_eq, ↓reduceIte, notUpper, Bool.false_eq_true, first]
    rw [← List.cons_append, run]
    simp
  | @string body rest plain =>
    have run : (body ++ '"' :: rest).takeWhile (fun d => d != '"' && d != '\n') = body := by
      rw [List.takeWhile_append_of_pos (fun d hd => by simp [(plain d hd).1, (plain d hd).2])]
      simp
    unfold lexeme
    simp only [sourceChars, String.toList_ofList, List.cons_append, List.append_assoc]
    rw [dropWhile_blanks blanks (by decide)]
    simp [run, isUpperLetter, isDigitChar]
  | @symbol s rest found =>
    have mem := List.mem_of_find?_eq_some found
    obtain ⟨nonempty, first⟩ := symbols_head s mem
    obtain ⟨c, t, hs⟩ := List.exists_cons_of_ne_nil nonempty
    obtain ⟨notBlank, notNewline, notUpper, notNumeric, notQuote⟩ := first c (by simp [hs])
    unfold lexeme
    simp only [sourceChars]
    rw [List.append_assoc, hs, List.cons_append, dropWhile_blanks blanks notBlank]
    rw [hs, List.cons_append] at found
    simp only [notNewline, beq_iff_eq, ↓reduceIte, notUpper, Bool.false_eq_true, notNumeric,
      notQuote, found, Except.ok.injEq, Prod.mk.injEq, true_and]
    rw [← String.length_toList, hs, ← List.cons_append, List.drop_left]

/-! ## Reading back what the scanner read -/

theorem mem_takeWhile_true {p : Char → Bool} {cs : List Char} {d : Char}
    (h : d ∈ cs.takeWhile p) : p d = true :=
  List.all_eq_true.mp List.all_takeWhile d h

theorem head?_dropWhile_false (p : Char → Bool) (cs : List Char) :
    ∀ d ∈ (cs.dropWhile p).head?, p d = false := by
  intro d hd
  have stop := List.head?_dropWhile_not p cs
  rw [Option.mem_def.mp hd] at stop
  exact stop

theorem append_drop_of_prefix {w : String} {cs : List Char} (h : w.toList <+: cs) :
    w.toList ++ cs.drop w.length = cs := by
  rw [← String.length_toList]
  exact List.prefix_iff_eq_append.mp h

/-- A keyword or function name stands in the source as its text. -/
theorem sourceChars_of_wordIn {cs : List Char} {w : String} {kind : TokenKind}
    (found : wordIn cs = some (w, kind)) : sourceChars kind w = w.toList := by
  obtain ⟨mem, -, -⟩ := wordIn_eq_some_iff.mp found
  rcases words_kind _ mem with same | same <;> (simp only at same; simp [same, sourceChars])

/-- A word as the scanner reads it. -/
theorem word_read {cs : List Char} {w : String} {kind : TokenKind}
    (found : wordIn cs = some (w, kind)) :
    cs = sourceChars kind w ++ cs.drop w.length ∧ Lexed kind w (cs.drop w.length) := by
  obtain ⟨-, pre, -⟩ := wordIn_eq_some_iff.mp found
  have split := append_drop_of_prefix pre
  refine ⟨by rw [sourceChars_of_wordIn found, split], .word ?_⟩
  rw [split]
  exact found

/-- The letters, digits and dollar sign of a name, as `nameLength` delimits them after its
first letter. -/
theorem name_parts (r : List Char) :
    ∃ letters digits dollar rest, r = letters ++ (digits ++ (dollar ++ rest)) ∧
      lettersRun r = letters.length ∧ (∀ d ∈ digits, isDigitChar d = true) ∧
      (∀ d ∈ (dollar ++ rest).head?, isDigitChar d = false) ∧
      (dollar = ['$'] ∨ (dollar = [] ∧ rest.head? ≠ some '$')) := by
  have whole : r = r.take (lettersRun r) ++ ((r.drop (lettersRun r)).takeWhile isDigitChar ++
      (r.drop (lettersRun r)).dropWhile isDigitChar) := by
    rw [List.takeWhile_append_dropWhile, List.take_append_drop]
  have lettersLen := List.length_take_of_le (lettersRun_le r)
  have numeric : ∀ d ∈ (r.drop (lettersRun r)).takeWhile isDigitChar, isDigitChar d = true :=
    fun _ hd => mem_takeWhile_true hd
  have stop := head?_dropWhile_false isDigitChar (r.drop (lettersRun r))
  generalize r.take (lettersRun r) = letters at whole lettersLen
  generalize (r.drop (lettersRun r)).takeWhile isDigitChar = digits at whole numeric
  generalize (r.drop (lettersRun r)).dropWhile isDigitChar = after at whole stop
  -- a dollar sign ends the name only where the digits stop
  cases after with
  | nil => exact ⟨letters, digits, [], [], by simpa using whole, lettersLen.symm, numeric,
      by simp, .inr ⟨rfl, by simp⟩⟩
  | cons d after =>
    by_cases sign : d = '$'
    · subst sign
      exact ⟨letters, digits, ['$'], after, by simpa using whole, lettersLen.symm, numeric,
        by simp; decide, .inl rfl⟩
    · exact ⟨letters, digits, [], d :: after, by simpa using whole, lettersLen.symm, numeric,
        by simpa using stop, .inr ⟨rfl, by simpa using sign⟩⟩

/-- A name as the scanner reads it. -/
theorem name_read {c : Char} {r : List Char} (upper : isUpperLetter c = true)
    (noWord : wordIn (c :: r) = none) :
    c :: r = sourceChars .name (String.ofList ((c :: r).take (nameLength (c :: r)))) ++
        (c :: r).drop (nameLength (c :: r)) ∧
      Lexed .name (String.ofList ((c :: r).take (nameLength (c :: r))))
        ((c :: r).drop (nameLength (c :: r))) := by
  obtain ⟨letters, digits, dollar, rest, rfl, lettersStop, numeric, digitsStop, sign⟩ :=
    name_parts r
  have len := nameLength_eq (c := c) lettersStop numeric digitsStop sign
  have width : letters.length + digits.length + dollar.length + 1 =
      (c :: (letters ++ (digits ++ dollar))).length := by simp; omega
  have whole : c :: (letters ++ (digits ++ (dollar ++ rest))) =
      c :: (letters ++ (digits ++ dollar)) ++ rest := by simp
  have noWord' : wordIn (c :: letters ++ digits ++ dollar ++ rest) = none := by
    simpa using noWord
  have lettersStop' : lettersRun (letters ++ digits ++ dollar ++ rest) = letters.length := by
    simpa using lettersStop
  have lexed := Lexed.name upper noWord' lettersStop' numeric digitsStop sign
  rw [len, width, whole, List.take_left, List.drop_left]
  exact ⟨by simp [sourceChars], by simpa using lexed⟩

/-- A number as the scanner reads it. -/
theorem number_read {c : Char} {r : List Char} (numeric : (isDigitChar c || c == '.') = true) :
    c :: r = sourceChars .number
        (String.ofList ((c :: r).takeWhile fun d => isDigitChar d || d == '.')) ++
        (c :: r).drop ((c :: r).takeWhile fun d => isDigitChar d || d == '.').length ∧
      Lexed .number (String.ofList ((c :: r).takeWhile fun d => isDigitChar d || d == '.'))
        ((c :: r).drop ((c :: r).takeWhile fun d => isDigitChar d || d == '.').length) := by
  rw [drop_takeWhile_length]
  refine ⟨by simp [sourceChars], .number ?_ (fun _ hd => mem_takeWhile_true hd)
    (head?_dropWhile_false _ _)⟩
  rw [List.takeWhile_cons_of_pos (p := fun d => isDigitChar d || d == '.') numeric]
  exact List.cons_ne_nil _ _

/-- A string literal as the scanner reads it, from its opening quote. -/
theorem string_read {r after : List Char}
    (closed : r.drop (r.takeWhile fun d => d != '"' && d != '\n').length = '"' :: after) :
    '"' :: r = sourceChars .string (String.ofList (r.takeWhile fun d => d != '"' && d != '\n')) ++
        after ∧
      Lexed .string (String.ofList (r.takeWhile fun d => d != '"' && d != '\n')) after := by
  rw [drop_takeWhile_length] at closed
  have split := List.takeWhile_append_dropWhile (p := fun d => d != '"' && d != '\n') (l := r)
  rw [closed] at split
  refine ⟨?_, .string fun d hd => ?_⟩
  · conv_lhs => rw [← split]
    simp [sourceChars]
  · simpa using mem_takeWhile_true hd

/-- A symbol as the scanner reads it. -/
theorem symbol_read {cs : List Char} {s : String}
    (found : symbols.find? (fun t => t.toList.isPrefixOf cs) = some s) :
    cs = sourceChars .symbol s ++ cs.drop s.length ∧ Lexed .symbol s (cs.drop s.length) := by
  have matched := List.find?_some found
  have pre : s.toList <+: cs := List.isPrefixOf_iff_prefix.mp matched
  have split := append_drop_of_prefix pre
  refine ⟨split.symm, .symbol ?_⟩
  rw [split]
  exact found

/-- Soundness of the scanner for the grammar: a token read from `cs` is the blanks before it,
then its text as the grammar derives it, then what is left. -/
theorem lexeme_inv {line : Nat} {cs : List Char} {kind : TokenKind} {text : String}
    {rest : List Char} (h : lexeme line cs = .ok (kind, text, rest)) :
    ∃ pre, (∀ b ∈ pre, isBlank b = true) ∧ cs = pre ++ sourceChars kind text ++ rest ∧
      Lexed kind text rest := by
  suffices read : cs.dropWhile isBlank = sourceChars kind text ++ rest ∧ Lexed kind text rest by
    refine ⟨cs.takeWhile isBlank, fun _ hb => mem_takeWhile_true hb, ?_, read.2⟩
    rw [List.append_assoc, ← read.1, List.takeWhile_append_dropWhile]
  unfold lexeme at h
  -- one case per branch of the scanner, each read back by its lemma
  split at h
  next empty =>
    cases h
    exact ⟨empty, .endOfFile⟩
  next c r nonBlank =>
    rw [nonBlank]
    split at h
    next newline =>
      cases h
      rw [beq_iff_eq.mp newline]
      exact ⟨rfl, .endOfLine _⟩
    next =>
      split at h
      next upper =>
        split at h
        next w k found =>
          cases h
          exact word_read found
        next noWord =>
          cases h
          exact name_read upper noWord
      next =>
        split at h
        next numeric =>
          cases h
          exact number_read numeric
        next =>
          split at h
          next quote =>
            dsimp only at h
            split at h
            next after closed =>
              cases h
              rw [beq_iff_eq.mp quote]
              exact string_read closed
            next => cases h
          next =>
            split at h
            next s found =>
              cases h
              exact symbol_read found
            next => cases h

/-! ## A token does not see past a blank -/

section Reread

variable {r r' : List Char}

theorem BlankHeaded.head_ne (after : BlankHeaded r') {c : Char} (notBlank : isBlank c = false) :
    r'.head? ≠ some c := by
  intro head
  have := after c head
  rw [notBlank] at this
  cases this

theorem wordIn_none_reread {u : List Char} (h : wordIn (u ++ r) = none) (after : BlankHeaded r') :
    wordIn (u ++ r') = none := by
  rw [wordIn_eq_none_iff] at h ⊢
  intro w mem pre
  exact h w mem ((prefix_of_ordinary (words_ordinary w mem) after pre).trans (List.prefix_append u r))

theorem wordIn_some_reread {w : String} {kind : TokenKind}
    (h : wordIn (w.toList ++ r) = some (w, kind)) (after : BlankHeaded r') :
    wordIn (w.toList ++ r') = some (w, kind) := by
  obtain ⟨mem, -, longest⟩ := wordIn_eq_some_iff.mp h
  refine wordIn_eq_some_iff.mpr ⟨mem, List.prefix_append _ _, fun v hv pre => longest v hv ?_⟩
  exact (prefix_of_ordinary (words_ordinary v hv) after pre).trans (List.prefix_append _ _)

/-- The letters of a name stop at the same place whatever follows the blank after it. -/
theorem lettersRun_reread {tail : List Char}
    (stop : ∀ c ∈ (tail ++ r').head?, isUpperLetter c = false) (after : BlankHeaded r') :
    ∀ letters : List Char, lettersRun (letters ++ (tail ++ r)) = letters.length →
      lettersRun (letters ++ (tail ++ r')) = letters.length
  | [], _ => by
    show lettersRun (tail ++ r') = 0
    cases h : tail ++ r' with
    | nil => rfl
    | cons c t =>
      have notUpper : isUpperLetter c = false := stop c (by simp [h])
      simp [lettersRun, notUpper]
  | c :: letters, h => by
    simp only [List.cons_append, lettersRun] at h ⊢
    split at h
    next pass =>
      simp only [Bool.and_eq_true, Option.isNone_iff_eq_none] at pass
      have noWord : wordIn ((c :: (letters ++ tail)) ++ r') = none :=
        wordIn_none_reread (by simpa using pass.2) after
      have run := lettersRun_reread stop after letters (by simpa using h)
      simp only [List.cons_append, List.append_assoc] at noWord
      simp [pass.1, noWord, run]
    next => simp at h

theorem symbol_find_reread {s : String}
    (found : symbols.find? (fun t => t.toList.isPrefixOf (s.toList ++ r)) = some s)
    (after : BlankHeaded r') :
    symbols.find? (fun t => t.toList.isPrefixOf (s.toList ++ r')) = some s := by
  obtain ⟨-, before, later, split, earlier⟩ := List.find?_eq_some_iff_append.mp found
  refine List.find?_eq_some_iff_append.mpr
    ⟨by simp [List.isPrefixOf_iff_prefix], before, later, split, fun t ht => ?_⟩
  -- a symbol listed earlier that fit here would have fit before the old text as well
  have mem : t ∈ symbols := by
    rw [split]
    exact List.mem_append_left _ ht
  rw [Bool.not_eq_true', Bool.eq_false_iff]
  intro fits
  have pre := prefix_of_ordinary (symbols_ordinary t mem) after (List.isPrefixOf_iff_prefix.mp fits)
  have skipped := earlier t ht
  rw [List.isPrefixOf_iff_prefix.mpr (pre.trans (List.prefix_append _ _))] at skipped
  cases skipped

/-- The name case of `Lexed.reread`. -/
theorem name_reread {c : Char} {letters digits dollar rest : List Char}
    (noWord : wordIn (c :: letters ++ digits ++ dollar ++ rest) = none)
    (lettersStop : lettersRun (letters ++ digits ++ dollar ++ rest) = letters.length)
    (numeric : ∀ d ∈ digits, isDigitChar d = true)
    (sign : dollar = ['$'] ∨ (dollar = [] ∧ rest.head? ≠ some '$')) (after : BlankHeaded r') :
    wordIn (c :: letters ++ digits ++ dollar ++ r') = none ∧
      lettersRun (letters ++ digits ++ dollar ++ r') = letters.length ∧
      (∀ d ∈ (dollar ++ r').head?, isDigitChar d = false) ∧
      (dollar = ['$'] ∨ (dollar = [] ∧ r'.head? ≠ some '$')) := by
  have digitsStop : ∀ d ∈ (dollar ++ r').head?, isDigitChar d = false := by
    rcases sign with rfl | ⟨rfl, -⟩
    · intro d hd
      cases hd
      decide
    · exact fun d hd => (blank_classes (after d hd)).2.2.2.2.2
  -- after the letters stands a digit, the dollar sign, or the blank after the name
  have upperStop : ∀ d ∈ ((digits ++ dollar) ++ r').head?, isUpperLetter d = false := by
    cases digits with
    | cons d t =>
      intro x hx
      cases hx
      have digit := isDigitChar_not_upper (numeric d List.mem_cons_self)
      exact digit
    | nil =>
      rcases sign with rfl | ⟨rfl, -⟩
      · intro x hx
        cases hx
        decide
      · exact fun d hd => (blank_classes (after d hd)).1
  have run := lettersRun_reread upperStop after letters (by simpa using lettersStop)
  refine ⟨wordIn_none_reread noWord after, by simpa using run, digitsStop, ?_⟩
  rcases sign with same | ⟨same, -⟩
  · exact .inl same
  · exact .inr ⟨same, after.head_ne (by decide)⟩

end Reread

/-- What the grammar derives does not depend on what follows, once a blank or the end stands
there: the token is derived the same before any such text. -/
theorem Lexed.reread {kind : TokenKind} {text : String} {rest r' : List Char}
    (h : Lexed kind text rest) (notEnd : kind ≠ .endOfFile) (after : BlankHeaded r') :
    Lexed kind text r' := by
  cases h with
  | endOfFile => exact absurd rfl notEnd
  | endOfLine => exact .endOfLine r'
  | word found => exact .word (wordIn_some_reread found after)
  | name upper noWord lettersStop numeric _ sign =>
    obtain ⟨noWord', lettersStop', digitsStop', sign'⟩ :=
      name_reread noWord lettersStop numeric sign after
    exact .name upper noWord' lettersStop' numeric digitsStop' sign'
  | number nonempty numeric =>
    exact .number nonempty numeric fun d hd => (blank_classes (after d hd)).2.1
  | string plain => exact .string plain
  | symbol found => exact .symbol (symbol_find_reread found after)

/-- Locality of the scanner: a token it reads is read again, the same, from its own text after
any blanks and before anything that begins with a blank. -/
theorem lexeme_reread {line line' : Nat} {cs pre r' : List Char} {kind : TokenKind}
    {text : String} {rest : List Char} (h : lexeme line cs = .ok (kind, text, rest))
    (notEnd : kind ≠ .endOfFile) (blanks : ∀ b ∈ pre, isBlank b = true)
    (after : BlankHeaded r') :
    lexeme line' (pre ++ sourceChars kind text ++ r') = .ok (kind, text, r') := by
  obtain ⟨-, -, -, lexed⟩ := lexeme_inv h
  exact lexeme_of_lexed (lexed.reread notEnd after) blanks line'

end BasicJvm.Source
