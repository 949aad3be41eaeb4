import BasicJvm.Source.Fold
import BasicJvm.Proofs.Syntax.Segments
import BasicJvm.Proofs.Text.Upper

/-!
# Folding case twice

`foldCase` folds a source line by line (`foldLine`): every character outside double quotes
becomes its upper case, and the text after a `REM` keyword is put back as written.  This
module shows that folding is idempotent and leaves the quoted text of each line alone.

The fold of a line is read as a recursion over the written characters (`foldFrom`, equal to
the fold of `foldedLine` by `foldedLine_eq`), with its characters alone in `foldChars` and the
quote state it ends in in `quoteAfter`.  Both split over an append.  Since every character of
an upper case is its own upper case and none is a double quote, folding folded text changes
nothing (`foldChars_foldChars`).

A line with a `REM` keyword folds to the folded characters of a prefix of the written line,
then the written rest.  The keyword's `M` folds from one written character alone, so the
prefix ends on a written character (`exists_take_of_M`), and the written rest starts at the
character that the index map gives (`foldFrom_boundary`).  Folding that result again folds
the prefix to itself and the rest to what it folded to before: the folded characters are
those of the first fold, the keyword stands at the same place, and the same written rest
comes back (`foldLine_foldLine`).

Main statement: `foldCase_idempotent_keeps_quoted`.
-/

namespace BasicJvm.Source

open BasicJvm.Text

/-! ## Folding as a recursion over the line -/

/-- The quote state after some characters, from the state `quoted`: every double quote flips
it. -/
def quoteAfter : Bool → List Char → Bool
  | quoted, [] => quoted
  | quoted, c :: cs => quoteAfter (if c == '"' then !quoted else quoted) cs

/-- The folded characters of written ones read from the quote state `quoted`, each with the
index of the written character it comes from, the first written one at index `i`. -/
def foldFrom (upper : Char → List Char) : Bool → Nat → List Char → List (Char × Nat)
  | _, _, [] => []
  | quoted, i, c :: cs =>
    if c == '"' then (c, i) :: foldFrom upper (!quoted) (i + 1) cs
    else if quoted then (c, i) :: foldFrom upper quoted (i + 1) cs
    else (upper c).map (·, i) ++ foldFrom upper quoted (i + 1) cs

/-- The folded characters alone. -/
def foldChars (upper : Char → List Char) (quoted : Bool) (cs : List Char) : List Char :=
  (foldFrom upper quoted 0 cs).map Prod.fst

/-- The double quotes of a line and the characters between them, read from the quote state
`quoted`; a quote that no other closes on the line opens text up to the line's end. -/
def quotedPart : Bool → List Char → List Char
  | _, [] => []
  | quoted, c :: cs =>
    if c == '"' then c :: quotedPart (!quoted) cs
    else if quoted then c :: quotedPart quoted cs
    else quotedPart quoted cs

variable {upper : Char → List Char}

/-- What one written character folds to, from a quote state. -/
theorem foldFrom_singleton (quoted : Bool) (i : Nat) (c : Char) :
    foldFrom upper quoted i [c] =
      (if c == '"' || quoted then [c] else upper c).map (·, i) := by
  by_cases quote : c = '"' <;> cases quoted <;> simp [foldFrom, quote]

theorem quoteAfter_append (quoted : Bool) (a b : List Char) :
    quoteAfter quoted (a ++ b) = quoteAfter (quoteAfter quoted a) b := by
  induction a generalizing quoted with
  | nil => rfl
  | cons c a ih => exact ih _

/-- Folding splits where the written characters do: the second part is read from the quote
state and the index where the first part ends. -/
theorem foldFrom_append (quoted : Bool) (i : Nat) (a b : List Char) :
    foldFrom upper quoted i (a ++ b) =
      foldFrom upper quoted i a ++ foldFrom upper (quoteAfter quoted a) (i + a.length) b := by
  induction a generalizing quoted i with
  | nil => simp [foldFrom, quoteAfter]
  | cons c a ih =>
    simp only [List.cons_append, foldFrom, quoteAfter, List.length_cons]
    by_cases quote : c = '"' <;> cases quoted <;>
      simp [quote, ih, Nat.add_assoc, Nat.add_comm 1]

/-- The folded characters do not depend on where the indices start. -/
theorem map_fst_foldFrom (quoted : Bool) (i : Nat) (cs : List Char) :
    (foldFrom upper quoted i cs).map Prod.fst = foldChars upper quoted cs := by
  unfold foldChars
  induction cs generalizing quoted i with
  | nil => rfl
  | cons c cs ih =>
    simp only [foldFrom]
    by_cases quote : c = '"' <;> cases quoted <;> simp [quote, ih _ (i + 1), ih _ 1]

theorem length_foldFrom (quoted : Bool) (i : Nat) (cs : List Char) :
    (foldFrom upper quoted i cs).length = (foldChars upper quoted cs).length := by
  rw [← map_fst_foldFrom quoted i cs, List.length_map]

@[simp] theorem foldChars_nil (quoted : Bool) : foldChars upper quoted [] = [] := rfl

theorem foldChars_singleton (quoted : Bool) (c : Char) :
    foldChars upper quoted [c] = if c == '"' || quoted then [c] else upper c := by
  simp [foldChars, foldFrom_singleton, List.map_map, Function.comp_def]

theorem foldChars_append (quoted : Bool) (a b : List Char) :
    foldChars upper quoted (a ++ b) =
      foldChars upper quoted a ++ foldChars upper (quoteAfter quoted a) b := by
  rw [foldChars, foldFrom_append, List.map_append, map_fst_foldFrom, map_fst_foldFrom]

theorem foldChars_cons (quoted : Bool) (c : Char) (cs : List Char) :
    foldChars upper quoted (c :: cs) =
      foldChars upper quoted [c] ++ foldChars upper (quoteAfter quoted [c]) cs :=
  foldChars_append quoted [c] cs

theorem quotedPart_append (quoted : Bool) (a b : List Char) :
    quotedPart quoted (a ++ b) = quotedPart quoted a ++ quotedPart (quoteAfter quoted a) b := by
  induction a generalizing quoted with
  | nil => rfl
  | cons c a ih =>
    simp only [List.cons_append, quotedPart, quoteAfter]
    by_cases quote : c = '"' <;> cases quoted <;> simp [quote, ih]

/-- Every written character folds to at least one character. -/
theorem foldChars_singleton_ne_nil (casing : UpperCasing upper) (quoted : Bool) (c : Char) :
    foldChars upper quoted [c] ≠ [] := by
  rw [foldChars_singleton]
  split
  · simp
  · exact casing.nonempty c

theorem length_foldChars_pos (casing : UpperCasing upper) {quoted : Bool} {cs : List Char}
    (h : cs ≠ []) :
    0 < (foldChars upper quoted cs).length := by
  obtain ⟨c, cs, rfl⟩ := List.exists_cons_of_ne_nil h
  rw [foldChars_cons, List.length_append]
  have := List.length_pos_iff.mpr (foldChars_singleton_ne_nil casing quoted c)
  omega

/-! ## Folding folded text -/

/-- An upper case, read outside quotes, folds to itself and opens no quote. -/
theorem foldChars_upper (casing : UpperCasing upper) {c : Char} (notQuote : c ≠ '"') :
    foldChars upper false (upper c) = upper c ∧ quoteAfter false (upper c) = false := by
  -- each character of the upper case is no quote and its own upper case
  have each : ∀ d ∈ upper c, d ≠ '"' ∧ upper d = [d] := fun d mem =>
    ⟨fun quote => notQuote (casing.eq_of_special_mem (Or.inl rfl) (quote ▸ mem)),
      casing.idempotent c d mem⟩
  generalize upper c = us at each ⊢
  induction us with
  | nil => exact ⟨rfl, rfl⟩
  | cons d us ih =>
    obtain ⟨notQuote', fixed⟩ := each d (List.mem_cons_self ..)
    obtain ⟨folds, closed⟩ := ih fun e mem => each e (List.mem_cons_of_mem _ mem)
    have single : foldChars upper false [d] = [d] := by
      simp [foldChars_singleton, notQuote', fixed]
    have stays : quoteAfter false [d] = false := by simp [quoteAfter, notQuote']
    rw [foldChars_cons, single, stays, folds]
    exact ⟨rfl, by simp [quoteAfter, notQuote', closed]⟩

/-- Folding folded text changes nothing, and it ends in the same quote state. -/
theorem foldChars_foldChars (casing : UpperCasing upper) (quoted : Bool) (cs : List Char) :
    foldChars upper quoted (foldChars upper quoted cs) = foldChars upper quoted cs ∧
      quoteAfter quoted (foldChars upper quoted cs) = quoteAfter quoted cs := by
  induction cs generalizing quoted with
  | nil => exact ⟨rfl, rfl⟩
  | cons c cs ih =>
    obtain ⟨folds, ends⟩ := ih (quoteAfter quoted [c])
    rw [foldChars_cons, foldChars_append, quoteAfter_append, show c :: cs = [c] ++ cs from rfl,
      quoteAfter_append]
    -- the written character folds to text that folds to itself, in the same quote state
    have first :
        foldChars upper quoted (foldChars upper quoted [c]) = foldChars upper quoted [c] ∧
        quoteAfter quoted (foldChars upper quoted [c]) = quoteAfter quoted [c] := by
      rw [foldChars_singleton]
      by_cases quote : c = '"'
      · simp [quote, foldChars_singleton, quoteAfter]
      · cases quoted
        · simpa [quote, quoteAfter] using foldChars_upper casing quote
        · simp [quote, foldChars_singleton, quoteAfter]
    rw [first.1, first.2, folds, ends]
    exact ⟨rfl, rfl⟩

/-- Text without double quotes, read outside quotes, has no quoted text. -/
theorem quotedPart_of_noQuote {us : List Char} (h : ∀ d ∈ us, d ≠ '"') :
    quotedPart false us = [] := by
  induction us with
  | nil => rfl
  | cons d us ih =>
    simp [quotedPart, h d (List.mem_cons_self ..), ih fun e mem => h e (List.mem_cons_of_mem _ mem)]

/-- Folding leaves the double quotes and the text between them as they were. -/
theorem quotedPart_foldChars (casing : UpperCasing upper) (quoted : Bool) (cs : List Char) :
    quotedPart quoted (foldChars upper quoted cs) = quotedPart quoted cs := by
  induction cs generalizing quoted with
  | nil => rfl
  | cons c cs ih =>
    rw [foldChars_cons, quotedPart_append, (foldChars_foldChars casing quoted [c]).2, ih,
      show c :: cs = [c] ++ cs from rfl, quotedPart_append]
    congr 1
    rw [foldChars_singleton]
    by_cases quote : c = '"'
    · simp [quote]
    · cases quoted
      · -- outside quotes neither the character nor its upper case is quoted text
        have upperNoQuote : ∀ d ∈ upper c, d ≠ '"' := fun d mem same =>
          quote (casing.eq_of_special_mem (Or.inl rfl) (same ▸ mem))
        simp only [quote, beq_iff_eq, Bool.or_false, if_false]
        rw [quotedPart_of_noQuote upperNoQuote, quotedPart_of_noQuote (by simpa using quote)]
      · simp

/-! ## Where a `REM` keyword ends -/

/-- A `REM` keyword ends with its `M`: the position after it follows an `M`. -/
theorem remEnd_after_M {src : Array Char} {pos line stop : Nat} (within : pos ≤ src.size)
    (h : remEnd src pos line = some stop) :
    ∃ before, stop = before + 1 ∧ src.toList[before]? = some 'M' := by
  fun_induction remEnd src pos line with
  | case1 => cases h
  | case2 pos line tok next line' scan stops => cases h
  | case3 pos line tok next line' scan _ rem =>
    obtain ⟨pre, rest, -, split, -, -, -, atNext, -⟩ := scanAt_inv within scan
    simp only [Token.isA, Bool.and_eq_true, beq_iff_eq] at rem
    obtain ⟨kind, text⟩ := rem
    rw [kind, text] at split atNext
    simp only [Option.some.injEq] at h
    subst h
    refine ⟨pos + pre.length + 2, by simpa [sourceChars] using atNext, ?_⟩
    have atM : (src.toList.drop pos)[pre.length + 2]? = some 'M' := by
      rw [split]
      simp [sourceChars]
    rw [List.getElem?_drop] at atM
    simpa [Nat.add_assoc] using atM
  | case4 pos line tok next line' scan _ _ progress ih => exact ih progress.2 h
  | case5 => cases h

/-- The fold in `foldedLine`, whose step folds one written character onto the reversed
output, builds `foldFrom` reversed. -/
theorem foldl_zipIdx_of_step
    {step : Bool × List (Char × Nat) → Char × Nat → Bool × List (Char × Nat)}
    (h : ∀ quoted out c i, step (quoted, out) (c, i) =
      (quoteAfter quoted [c], (foldFrom upper quoted i [c]).reverse ++ out)) :
    ∀ (cs : List Char) (i : Nat) (quoted : Bool) (out : List (Char × Nat)),
      (cs.zipIdx i).foldl step (quoted, out) =
        (quoteAfter quoted cs, (foldFrom upper quoted i cs).reverse ++ out) := by
  intro cs
  induction cs with
  | nil => intro i quoted out; rfl
  | cons c cs ih =>
    intro i quoted out
    rw [List.zipIdx_cons, List.foldl_cons, h, ih, show c :: cs = [c] ++ cs from rfl,
      quoteAfter_append, foldFrom_append, List.reverse_append, List.append_assoc]
    rfl

theorem foldedLine_eq (line : List Char) : foldedLine upper line = foldFrom upper false 0 line := by
  dsimp only [foldedLine]
  rw [@foldl_zipIdx_of_step upper _ ?step line 0 false []]
  · simp
  · intro quoted out c i
    by_cases quote : c = '"' <;> cases quoted <;> simp [foldFrom, quoteAfter, quote]

/-! ## Where the folded prefix ends -/

/-- The first written character folds to text whose first character has its index. -/
theorem foldFrom_cons_head (casing : UpperCasing upper) (quoted : Bool) (i : Nat) (c : Char)
    (cs : List Char) :
    ∃ d, (foldFrom upper quoted i (c :: cs))[0]? = some (d, i) := by
  obtain ⟨d, rest, split⟩ := List.exists_cons_of_ne_nil (by
    have := foldChars_singleton_ne_nil casing quoted c
    rwa [foldChars_singleton] at this)
  refine ⟨d, ?_⟩
  rw [show c :: cs = [c] ++ cs from rfl, foldFrom_append, foldFrom_singleton, split]
  rfl

/-- Where the folded characters of a prefix end, the next written character starts. -/
theorem foldFrom_boundary (casing : UpperCasing upper) (quoted : Bool) (i : Nat) {cs : List Char}
    {j : Nat}
    (lt : j < cs.length) :
    ∃ d, (foldFrom upper quoted i cs)[(foldChars upper quoted (cs.take j)).length]? =
      some (d, i + j) := by
  obtain ⟨c, rest, after⟩ := List.exists_cons_of_ne_nil
    (by simpa using lt : cs.drop j ≠ [])
  obtain ⟨d, head⟩ := foldFrom_cons_head casing (quoteAfter quoted (cs.take j)) (i + j) c rest
  refine ⟨d, ?_⟩
  have whole : foldFrom upper quoted i cs = foldFrom upper quoted i (cs.take j ++ cs.drop j) := by
    rw [List.take_append_drop]
  rw [whole, foldFrom_append, List.getElem?_append_right (Nat.le_of_eq (length_foldFrom ..)),
    length_foldFrom, Nat.sub_self, after, List.length_take, Nat.min_eq_left (by omega)]
  exact head

/-- The folded text of a prefix grows with the prefix, since every written character folds to
something. -/
theorem length_foldChars_take_lt (casing : UpperCasing upper) (quoted : Bool) {cs : List Char}
    {a b : Nat} (lt : a < b)
    (within : b ≤ cs.length) :
    (foldChars upper quoted (cs.take a)).length < (foldChars upper quoted (cs.take b)).length := by
  have split : cs.take b = cs.take a ++ (cs.take b).drop a := by
    have whole := List.take_append_drop a (cs.take b)
    rw [List.take_take, Nat.min_eq_left (by omega)] at whole
    exact whole.symm
  have more : (cs.take b).drop a ≠ [] := by
    simp only [ne_eq, List.drop_eq_nil_iff, List.length_take]
    omega
  have := @length_foldChars_pos upper casing (quoteAfter quoted (cs.take a)) _ more
  rw [split, foldChars_append, List.length_append]
  omega

theorem eq_of_length_foldChars_take (casing : UpperCasing upper) (quoted : Bool) (cs : List Char)
    {a b : Nat}
    (ha : a ≤ cs.length) (hb : b ≤ cs.length)
    (h : (foldChars upper quoted (cs.take a)).length =
      (foldChars upper quoted (cs.take b)).length) :
    a = b := by
  rcases Nat.lt_trichotomy a b with lt | same | gt
  · have := length_foldChars_take_lt casing quoted lt hb
    omega
  · exact same
  · have := length_foldChars_take_lt casing quoted gt ha
    omega

/-- A written character that folds to something with `M` in it folds to `M` alone. -/
theorem foldChars_singleton_of_M_mem (casing : UpperCasing upper) {quoted : Bool} {c : Char}
    (h : 'M' ∈ foldChars upper quoted [c]) :
    foldChars upper quoted [c] = ['M'] := by
  rw [foldChars_singleton] at h ⊢
  by_cases keep : (c == '"' || quoted) = true
  · rw [if_pos keep] at h ⊢
    rw [List.mem_singleton] at h
    rw [← h]
  · rw [if_neg keep] at h ⊢
    exact casing.soleM c h

/-- An `M` in folded text is all that its written character folds to, so a folded prefix
ends just after it. -/
theorem exists_take_of_M (casing : UpperCasing upper) (quoted : Bool) (cs : List Char) (k : Nat)
    (after : k + 1 < (foldChars upper quoted cs).length)
    (isM : (foldChars upper quoted cs)[k]? = some 'M') :
    ∃ j < cs.length, (foldChars upper quoted (cs.take j)).length = k + 1 := by
  induction cs generalizing quoted k with
  | nil => simp at after
  | cons c cs ih =>
    rw [foldChars_cons] at after isM
    rw [List.length_append] at after
    -- the `M` is what the first written character folds to, or it comes further on
    by_cases first : k < (foldChars upper quoted [c]).length
    · have single : foldChars upper quoted [c] = ['M'] := by
        rw [List.getElem?_append_left first] at isM
        exact foldChars_singleton_of_M_mem casing (List.mem_of_getElem? isM)
      rw [single] at first after
      have more : cs ≠ [] := by
        rintro rfl
        simp at after
      have := List.length_pos_iff.mpr more
      refine ⟨1, by simp only [List.length_cons]; omega, ?_⟩
      simp only [List.take_succ_cons, List.take_zero, single, List.length_singleton]
      simp at first
      omega
    · rw [List.getElem?_append_right (by omega)] at isM
      obtain ⟨j, lt, len⟩ := ih _ (k - (foldChars upper quoted [c]).length) (by omega) isM
      refine ⟨j + 1, by simp only [List.length_cons]; omega, ?_⟩
      rw [List.take_succ_cons, foldChars_cons, List.length_append, len]
      omega

/-! ## How a line folds -/

/-- The folded characters of a line, split where the written ones are. -/
theorem foldChars_split (quoted : Bool) (j : Nat) (cs : List Char) :
    foldChars upper quoted cs =
      foldChars upper quoted (cs.take j) ++
        foldChars upper (quoteAfter quoted (cs.take j)) (cs.drop j) := by
  rw [← foldChars_append, List.take_append_drop]

/-- A line folds wholly, when no `REM` keyword stands where the folded text goes on after
it; or up to a `REM` keyword, as the folded characters of the written ones before an index
`j`, ending with the keyword's `M`, then the written characters from `j` on. -/
theorem foldLine_cases (casing : UpperCasing upper) (W : List Char) :
    (foldLine upper (String.ofList W) = String.ofList (foldChars upper false W) ∧
      ∀ stop, remEnd (foldChars upper false W).toArray 0 1 = some stop →
        (foldChars upper false W).length ≤ stop) ∨
    ∃ j < W.length,
      (foldChars upper false (W.take j)).length < (foldChars upper false W).length ∧
      remEnd (foldChars upper false W).toArray 0 1 =
        some (foldChars upper false (W.take j)).length ∧
      foldLine upper (String.ofList W) =
        String.ofList (foldChars upper false (W.take j) ++ W.drop j) := by
  have chars : (foldFrom upper false 0 W).map (·.1) = foldChars upper false W := rfl
  unfold foldLine
  simp only [String.toList_ofList, foldedLine_eq, chars]
  split
  · -- a `REM` keyword ends at `stop`
    rename_i stop rem
    split
    · -- the folded text goes on after it, from the written character `origin`
      rename_i c origin found
      have within : stop < (foldChars upper false W).length := by
        rw [← length_foldFrom false 0]
        exact (List.getElem?_eq_some_iff.mp found).1
      obtain ⟨before, rfl, isM⟩ := remEnd_after_M (Nat.zero_le _) rem
      obtain ⟨j, lt, len⟩ := exists_take_of_M casing false W before within (by simpa using isM)
      obtain ⟨d', boundary⟩ := foldFrom_boundary casing false 0 lt
      rw [len, found, Option.some.injEq, Prod.mk.injEq, Nat.zero_add] at boundary
      rw [boundary.2]
      have front :
          (foldChars upper false W).take (before + 1) = foldChars upper false (W.take j) := by
        rw [foldChars_split false j W, ← len]
        exact List.take_left
      refine Or.inr ⟨j, lt, by omega, by rw [rem, len], ?_⟩
      simp [front]
    · -- the keyword ends the folded text
      rename_i beyond
      refine Or.inl ⟨by simp, fun stop' rem' => ?_⟩
      rw [rem, Option.some.injEq] at rem'
      subst rem'
      rw [← length_foldFrom false 0]
      simpa using beyond
  · exact Or.inl ⟨by simp, fun stop rem' => by simp_all⟩

/-- A line folded up to a keyword folds, as a whole, to the folded characters of the first
fold: its prefix folds to itself, and the written rest to what it folded to before. -/
theorem foldChars_take_append_drop (casing : UpperCasing upper) (W : List Char) (j : Nat) :
    foldChars upper false (foldChars upper false (W.take j) ++ W.drop j) =
      foldChars upper false W := by
  rw [foldChars_append, (foldChars_foldChars casing false _).1,
    (foldChars_foldChars casing false _).2, ← foldChars_split]

/-- Folding a folded line changes nothing. -/
theorem foldLine_foldLine (casing : UpperCasing upper) (W : List Char) :
    foldLine upper (foldLine upper (String.ofList W)) = foldLine upper (String.ofList W) := by
  rcases foldLine_cases casing W with ⟨whole, beyond⟩ | ⟨j, lt, shorter, rem, cut⟩
  · -- folded wholly: the folded text folds to itself, and the keyword stays beyond its end
    rw [whole]
    have again := (foldChars_foldChars casing false W).1
    rcases foldLine_cases casing (foldChars upper false W) with
      ⟨whole', -⟩ | ⟨j', -, shorter', rem', -⟩
    · rw [whole', again]
    · rw [again] at shorter' rem'
      have := beyond _ rem'
      omega
  · -- folded up to a keyword: the second fold finds the keyword at the same place
    rw [cut]
    have same := foldChars_take_append_drop casing W j
    have front : (foldChars upper false (W.take j) ++ W.drop j).take
        (foldChars upper false (W.take j)).length = foldChars upper false (W.take j) :=
      List.take_left
    rcases foldLine_cases casing (foldChars upper false (W.take j) ++ W.drop j) with
      ⟨-, beyond'⟩ | ⟨j', lt', -, rem', cut'⟩
    · rw [same] at beyond'
      have := beyond' _ rem
      omega
    · rw [same, rem, Option.some.injEq] at rem'
      -- the folded prefixes have the same length, so they end at the same written character
      have stop : j' = (foldChars upper false (W.take j)).length := by
        apply eq_of_length_foldChars_take casing false
          (foldChars upper false (W.take j) ++ W.drop j)
          (by omega) (by simp only [List.length_append]; omega)
        rw [← rem', front, (foldChars_foldChars casing false _).1]
      rw [cut', stop, front, (foldChars_foldChars casing false _).1, List.drop_left]

/-- Folding leaves the double quotes of a line and the text between them as they were. -/
theorem quotedPart_foldLine (casing : UpperCasing upper) (W : List Char) :
    quotedPart false (foldLine upper (String.ofList W)).toList = quotedPart false W := by
  rcases foldLine_cases casing W with ⟨whole, -⟩ | ⟨j, -, -, -, cut⟩
  · rw [whole, String.toList_ofList, quotedPart_foldChars casing]
  · rw [cut, String.toList_ofList, quotedPart_append, quotedPart_foldChars casing,
      (foldChars_foldChars casing false _).2, ← quotedPart_append, List.take_append_drop]

/-! ## Newlines -/

/-- Only a newline folds to a newline. -/
theorem newline_mem_of_foldChars (casing : UpperCasing upper) {quoted : Bool} {cs : List Char}
    (h : '\n' ∈ foldChars upper quoted cs) : '\n' ∈ cs := by
  induction cs generalizing quoted with
  | nil => simp at h
  | cons c cs ih =>
    rw [foldChars_cons, List.mem_append] at h
    rcases h with first | rest
    · rw [foldChars_singleton] at first
      split at first
      · rw [List.mem_singleton] at first
        rw [first]
        exact List.mem_cons_self ..
      · rw [casing.eq_of_special_mem (Or.inr rfl) first]
        exact List.mem_cons_self ..
    · exact List.mem_cons_of_mem _ (ih rest)

theorem foldChars_newline (casing : UpperCasing upper) (quoted : Bool) :
    foldChars upper quoted ['\n'] = ['\n'] := by
  rw [foldChars_singleton]
  split
  · rfl
  · exact casing.newline_self

/-- A folded line has a newline only where the written line has one. -/
theorem newline_mem_of_foldLine (casing : UpperCasing upper) {W : List Char}
    (h : '\n' ∈ (foldLine upper (String.ofList W)).toList) :
    '\n' ∈ W := by
  rcases foldLine_cases casing W with ⟨whole, -⟩ | ⟨j, -, -, -, cut⟩
  · rw [whole, String.toList_ofList] at h
    exact newline_mem_of_foldChars casing h
  · rw [cut, String.toList_ofList, List.mem_append] at h
    rcases h with front | rest
    · exact List.mem_of_mem_take (newline_mem_of_foldChars casing front)
    · exact List.mem_of_mem_drop rest

/-- A line that ends with its only newline folds to a line that ends with its only newline. -/
theorem foldLine_line (casing : UpperCasing upper) {body : List Char} (h : '\n' ∉ body) :
    ∃ folded, (foldLine upper (String.ofList (body ++ ['\n']))).toList = folded ++ ['\n'] ∧
      '\n' ∉ folded := by
  rcases foldLine_cases casing (body ++ ['\n']) with ⟨whole, -⟩ | ⟨j, lt, -, -, cut⟩
  · refine ⟨foldChars upper false body, ?_, fun mem => h (newline_mem_of_foldChars casing mem)⟩
    rw [whole, String.toList_ofList, foldChars_append, foldChars_newline casing]
  · -- the keyword stands before the newline, which comes back as written
    have within : j ≤ body.length := by simp at lt; omega
    rw [List.take_append_of_le_length within, List.drop_append_of_le_length within] at cut
    refine ⟨foldChars upper false (body.take j) ++ body.drop j, ?_, ?_⟩
    · rw [cut, String.toList_ofList, List.append_assoc]
    · rw [List.mem_append]
      rintro (front | rest)
      · exact h (List.mem_of_mem_take (newline_mem_of_foldChars casing front))
      · exact h (List.mem_of_mem_drop rest)

/-! ## Lines -/

/-- How `linesWithBreaks` cuts a text: every piece but the last ends with its only newline,
and the last has none. -/
inductive LinePieces : List (List Char) → Prop
  | last {piece : List Char} : '\n' ∉ piece → LinePieces [piece]
  | line {body : List Char} {rest : List (List Char)} :
      '\n' ∉ body → LinePieces rest → LinePieces ((body ++ ['\n']) :: rest)

/-- `linesWithBreaks` cuts pieces of that shape, from a line begun with the reversed
characters `cur`. -/
theorem linesWithBreaks_go_pieces (cs : List Char) :
    ∀ cur : List Char, '\n' ∉ cur →
      LinePieces ((linesWithBreaks.go cs cur).map String.toList) := by
  induction cs with
  | nil =>
    intro cur fresh
    simpa [linesWithBreaks.go] using LinePieces.last (by simpa using fresh)
  | cons c cs ih =>
    intro cur fresh
    by_cases newline : c = '\n'
    · subst newline
      simpa [linesWithBreaks.go] using LinePieces.line (by simpa using fresh) (ih [] (by simp))
    · simpa [linesWithBreaks.go, newline] using
        ih (c :: cur) (by simp [fresh, Ne.symm newline])

theorem linesWithBreaks_pieces (s : String) :
    LinePieces ((linesWithBreaks s).map String.toList) :=
  linesWithBreaks_go_pieces s.toList [] (by simp)

theorem linesWithBreaks_go_line {body : List Char} (h : '\n' ∉ body) (rest cur : List Char) :
    linesWithBreaks.go (body ++ '\n' :: rest) cur =
      String.ofList (cur.reverse ++ body ++ ['\n']) :: linesWithBreaks.go rest [] := by
  induction body generalizing cur with
  | nil => simp [linesWithBreaks.go]
  | cons c body ih =>
    have notNewline : c ≠ '\n' := fun same => h (same ▸ List.mem_cons_self ..)
    simp [linesWithBreaks.go, notNewline, ih (fun mem => h (List.mem_cons_of_mem _ mem))]

theorem linesWithBreaks_go_last {piece : List Char} (h : '\n' ∉ piece) (cur : List Char) :
    linesWithBreaks.go piece cur = [String.ofList (cur.reverse ++ piece)] := by
  induction piece generalizing cur with
  | nil => simp [linesWithBreaks.go]
  | cons c piece ih =>
    have notNewline : c ≠ '\n' := fun same => h (same ▸ List.mem_cons_self ..)
    simp [linesWithBreaks.go, notNewline, ih (fun mem => h (List.mem_cons_of_mem _ mem))]

/-- Pieces of that shape, put together, are cut back into the same pieces. -/
theorem linesWithBreaks_flatten {ps : List (List Char)} (h : LinePieces ps) :
    linesWithBreaks (String.ofList ps.flatten) = ps.map String.ofList := by
  unfold linesWithBreaks
  rw [String.toList_ofList]
  induction h with
  | last fresh => simp [linesWithBreaks_go_last fresh]
  | line fresh _ ih =>
    rw [List.flatten_cons, List.append_assoc, List.singleton_append,
      linesWithBreaks_go_line fresh, ih]
    simp

/-- Folding every line keeps the shape of the pieces. -/
theorem foldLine_pieces (casing : UpperCasing upper) {ps : List (List Char)} (h : LinePieces ps) :
    LinePieces (ps.map fun p => (foldLine upper (String.ofList p)).toList) := by
  induction h with
  | last fresh => exact .last fun mem => fresh (newline_mem_of_foldLine casing mem)
  | line fresh _ ih =>
    obtain ⟨folded, ends, noNewline⟩ := foldLine_line casing fresh
    rw [List.map_cons, ends]
    exact .line noNewline ih

theorem join_eq_ofList (ls : List String) :
    String.join ls = String.ofList (ls.map String.toList).flatten := by
  apply String.toList_inj.mp
  simp [String.toList_join, List.flatMap_def]

/-- Folding case twice folds it once, and folding leaves the double quotes of every line and
the text between them as they were. -/
theorem foldCase_idempotent_keeps_quoted (casing : UpperCasing upper) (s : String) :
    foldCase upper (foldCase upper s) = foldCase upper s ∧
      (linesWithBreaks (foldCase upper s)).map (fun line => quotedPart false line.toList) =
        (linesWithBreaks s).map (fun line => quotedPart false line.toList) := by
  -- the lines of the folded source are the folded lines of the source
  have pieces := linesWithBreaks_pieces s
  have lines : linesWithBreaks (foldCase upper s) = (linesWithBreaks s).map (foldLine upper) := by
    have folded : foldCase upper s = String.ofList
        (((linesWithBreaks s).map String.toList).map
          fun p => (foldLine upper (String.ofList p)).toList).flatten := by
      rw [foldCase, join_eq_ofList, List.map_map, List.map_map]
      simp [Function.comp_def]
    rw [folded, linesWithBreaks_flatten (foldLine_pieces casing pieces), List.map_map, List.map_map]
    simp [Function.comp_def]
  constructor
  · rw [foldCase, lines, List.map_map]
    unfold foldCase
    congr 1
    apply List.map_congr_left
    intro line _
    simpa using foldLine_foldLine casing line.toList
  · rw [lines, List.map_map]
    apply List.map_congr_left
    intro line _
    simpa using quotedPart_foldLine casing line.toList

/-- A lower-case line with a text and a remark, folded by the ASCII upper case: folding it
again changes nothing, and the text stays as written. -/
theorem foldCase_idempotent_keeps_quoted_ascii :
    foldCase asciiUpper (foldCase asciiUpper "10 print \"Hi\": rem keep\n") =
        foldCase asciiUpper "10 print \"Hi\": rem keep\n" ∧
      (linesWithBreaks (foldCase asciiUpper "10 print \"Hi\": rem keep\n")).map
          (fun line => quotedPart false line.toList) =
        (linesWithBreaks "10 print \"Hi\": rem keep\n").map
          (fun line => quotedPart false line.toList) :=
  foldCase_idempotent_keeps_quoted asciiUpper_casing _

end BasicJvm.Source
