import BasicJvm.Proofs.Syntax.Scanning

/-!
# Precedence climbing reads the stratified grammar

The parser reads expressions by precedence climbing (`exprAbove`, `climb`): an operand, then
every operator binding at least as tightly as a minimum, each right operand read one level
tighter for an operator grouping to the left and at the same level for `^`.  The textbook
reading is stratified, one level per precedence:

```text
level k   = level (k + 1) { op_k level (k + 1) }        k = 1 (OR) … 5 (* /)
level 6   = operand { ^ level 6 }
operand   = NUMBER | STRING | NAME [ "(" items ")" ] | FUNCTION "(" items ")"
          | "(" level 1 ")" | "+" level 6 | "-" level 6
items     = level 1 { "," level 1 }
```

so that `-2^2` is `-(2^2)`, `-A*B` is `(-A)*B` and `2^-3^2` is `2^(-(3^2))`.  `Stratified`
is this grammar as a recursive-descent parser reads it, as a relation between the state it
starts from, the tree it builds and the state it leaves: every loop goes on exactly while
the next token is an operator of its level, and tokens are read with the parser's own
`peekToken` and `nextToken`.  Its trees (`Tree`) are not type checked; `Tree.typed` checks
them as the parser does while it builds (operands of one type, text only under `+` and the
comparisons, numeric signs and indexes, calls `lookupBuiltin` accepts) and gives the
expression.

The shapes of the two parsers meet in `Tails i j`: the loops of levels `i - 1` down to `j`
run one after another on an operand already read.  Precedence climbing at minimum `j` after
an operand is `Tails 7 j`, and after an operator of precedence `q` and its right operand it
is `Tails (q + 1) j`, since the right operand has taken every tighter operator.  The lemmas
here say how `Tails` unfolds at the next token (`tails_stop`, `tails_op`), and
`stratified_iff` reads every level as an operand followed by its `Tails`.
-/

namespace BasicJvm.Syntax

open BasicJvm.Source BasicJvm.Number

/-! ## Trees before type checking -/

/-- An expression as the grammar reads it, before types are checked: a `+` sign is kept, and
a call names its function. -/
inductive Tree where
  | number (value : Single)
  | text (value : String)
  | ref (name : String) (indexes : List Tree)
  | plus (operand : Tree)
  | neg (operand : Tree)
  | binary (op : BinOp) (left right : Tree)
  | call (name : String) (args : List Tree)

/-- The expression `a op b`, when the types of its operands allow it: the same type, and a
text only under `+` or a comparison. -/
def joinTyped (op : BinOp) (a b : Expr) : Option Expr :=
  if a.type != b.type then none
  else if a.type == .text && op != .add && !op.isComparison then none
  else some (.binary op a b)

mutual

/-- The expression a tree stands for, when it is well typed. -/
def Tree.typed : Tree → Option Expr
  | .number v => some (.number v)
  | .text s => some (.text s)
  | .ref name ts => (Tree.typedAll ts).bind fun es =>
      if es.all (·.type == .number) then some (.ref name es) else none
  | .plus t => (Tree.typed t).bind fun e => if e.type == .number then some e else none
  | .neg t => (Tree.typed t).bind fun e => if e.type == .number then some (.neg e) else none
  | .binary op l r => (Tree.typed l).bind fun a => (Tree.typed r).bind fun b => joinTyped op a b
  | .call name ts => (Tree.typedAll ts).bind fun es =>
      match lookupBuiltin name (es.map Expr.type) with
      | .ok f => some (.call f es)
      | .error _ => none

/-- The expressions of a list of trees, when all are well typed. -/
def Tree.typedAll : List Tree → Option (List Expr)
  | [] => some []
  | t :: ts => (Tree.typed t).bind fun e => (Tree.typedAll ts).map (e :: ·)

end

/-- The level a right operand is read at: the operator's own for `^`, which groups to the
right, and one tighter for the others. -/
def BinOp.nextLevel (op : BinOp) : Nat :=
  if op.rightAssoc then op.precedence else op.precedence + 1

/-! ## The stratified grammar -/

mutual

/-- `Stratified k s t s'`: reading from `s`, level `k` of the grammar derives `t` and leaves
`s'`.  Below level 6 a level is the next one followed by its loop; level 6 (and any above)
is an operand followed by the loop of `^`. -/
inductive Stratified : Nat → ParserState → Tree → ParserState → Prop where
  | lower {k : Nat} {s : ParserState} {t : Tree} {s₁ : ParserState} {u : Tree} {s' : ParserState}
      (lt : k < 6) (first : Stratified (k + 1) s t s₁) (rest : Chain k s₁ t u s') :
      Stratified k s u s'
  | power {k : Nat} {s : ParserState} {a : Tree} {s₁ : ParserState} {u : Tree} {s' : ParserState}
      (le : 6 ≤ k) (base : Operand s a s₁) (rest : Chain 6 s₁ a u s') : Stratified k s u s'

/-- `Chain k s t u s'`: the loop of level `k` after the operand `t`, going on while the next
token is an operator of precedence `k`, each time reading its right operand at the
operator's `nextLevel`. -/
inductive Chain : Nat → ParserState → Tree → Tree → ParserState → Prop where
  | stop {k : Nat} {s : ParserState} {t : Tree} {tok : Token} {s' : ParserState}
      (peek : peekToken.run s = .ok (tok, s'))
      (other : ∀ op, binOpOf tok = some op → op.precedence ≠ k) : Chain k s t t s'
  | more {k : Nat} {s : ParserState} {t : Tree} {tok : Token} {s₁ : ParserState} {op : BinOp}
      {s₂ : ParserState} {r : Tree} {s₃ : ParserState} {u : Tree} {s' : ParserState}
      (peek : peekToken.run s = .ok (tok, s₁)) (isOp : binOpOf tok = some op)
      (level : op.precedence = k) (take : nextToken.run s₁ = .ok (tok, s₂))
      (right : Stratified op.nextLevel s₂ r s₃) (rest : Chain k s₃ (.binary op t r) u s') :
      Chain k s t u s'

/-- `Operand s t s'`: an operand, the tightest form of the grammar. -/
inductive Operand : ParserState → Tree → ParserState → Prop where
  | number {s : ParserState} {tok : Token} {s' : ParserState} {v : Single}
      (take : nextToken.run s = .ok (tok, s')) (kind : tok.kind = .number)
      (value : readSingle tok.text = some v) : Operand s (.number v) s'
  | text {s : ParserState} {tok : Token} {s' : ParserState}
      (take : nextToken.run s = .ok (tok, s')) (kind : tok.kind = .string) :
      Operand s (.text tok.text) s'
  | reference {s : ParserState} {tok : Token} {s₁ : ParserState} {ts : List Tree}
      {s' : ParserState}
      (take : nextToken.run s = .ok (tok, s₁)) (kind : tok.kind = .name)
      (subscripts : Subscripts s₁ ts s') : Operand s (.ref tok.text ts) s'
  | call {s : ParserState} {tok : Token} {s₁ : ParserState} {p : Token} {s₂ : ParserState}
      {ts : List Tree} {s' : ParserState}
      (take : nextToken.run s = .ok (tok, s₁)) (kind : tok.kind = .function)
      (opening : nextToken.run s₁ = .ok (p, s₂)) (isOpen : p.isA .symbol "(" = true)
      (args : Items s₂ ts s') : Operand s (.call tok.text ts) s'
  | group {s : ParserState} {tok : Token} {s₁ : ParserState} {t : Tree} {s₂ : ParserState}
      {p : Token} {s' : ParserState}
      (take : nextToken.run s = .ok (tok, s₁)) (isOpen : tok.isA .symbol "(" = true)
      (inner : Stratified 1 s₁ t s₂) (closing : nextToken.run s₂ = .ok (p, s'))
      (isClose : p.isA .symbol ")" = true) : Operand s t s'
  | plus {s : ParserState} {tok : Token} {s₁ : ParserState} {t : Tree} {s' : ParserState}
      (take : nextToken.run s = .ok (tok, s₁)) (sign : tok.isA .symbol "+" = true)
      (operand : Stratified 6 s₁ t s') : Operand s (.plus t) s'
  | minus {s : ParserState} {tok : Token} {s₁ : ParserState} {t : Tree} {s' : ParserState}
      (take : nextToken.run s = .ok (tok, s₁)) (sign : tok.isA .symbol "-" = true)
      (operand : Stratified 6 s₁ t s') : Operand s (.neg t) s'

/-- `Subscripts s ts s'`: after a variable's name, its indexes in parentheses, or none when
no parenthesis follows. -/
inductive Subscripts : ParserState → List Tree → ParserState → Prop where
  | absent {s : ParserState} {p : Token} {s' : ParserState}
      (peek : peekToken.run s = .ok (p, s')) (notOpen : p.isA .symbol "(" = false) :
      Subscripts s [] s'
  | present {s : ParserState} {p : Token} {s₁ s₂ : ParserState} {ts : List Tree}
      {s' : ParserState}
      (peek : peekToken.run s = .ok (p, s₁)) (isOpen : p.isA .symbol "(" = true)
      (take : nextToken.run s₁ = .ok (p, s₂)) (list : Items s₂ ts s') : Subscripts s ts s'

/-- `Items s ts s'`: expressions separated by commas, up to the closing parenthesis. -/
inductive Items : ParserState → List Tree → ParserState → Prop where
  | last {s : ParserState} {t : Tree} {s₁ : ParserState} {p : Token} {s' : ParserState}
      (item : Stratified 1 s t s₁) (closing : nextToken.run s₁ = .ok (p, s'))
      (isClose : p.isA .symbol ")" = true) : Items s [t] s'
  | more {s : ParserState} {t : Tree} {s₁ : ParserState} {p : Token} {s₂ : ParserState}
      {ts : List Tree} {s' : ParserState}
      (item : Stratified 1 s t s₁) (comma : nextToken.run s₁ = .ok (p, s₂))
      (isComma : p.isA .symbol "," = true) (rest : Items s₂ ts s') : Items s (t :: ts) s'

end

/-- The loops of levels `i - 1` down to `j`, one after another, after the operand `t`. -/
def Tails : Nat → Nat → ParserState → Tree → Tree → ParserState → Prop
  | 0, _, s, t, u, s' => u = t ∧ s' = s
  | i + 1, j, s, t, u, s' =>
    if i < j then u = t ∧ s' = s else ∃ v s₁, Chain i s t v s₁ ∧ Tails i j s₁ v u s'

/-- The next token is no operator of precedence `i` or more. -/
def HeadBelow (i : Nat) (s : ParserState) : Prop :=
  ∀ tok s₁, peekToken.run s = .ok (tok, s₁) → ∀ op, binOpOf tok = some op → op.precedence < i

/-! ## Operators -/

theorem BinOp.precedence_le_six (op : BinOp) : op.precedence ≤ 6 := by
  cases op <;> decide

/-- The right operand is read at the operator's level or one tighter, and never above the
level of `^`. -/
theorem BinOp.nextLevel_bounds (op : BinOp) :
    op.precedence ≤ op.nextLevel ∧ op.nextLevel ≤ op.precedence + 1 ∧ 1 ≤ op.nextLevel ∧
      op.nextLevel ≤ 6 := by
  cases op <;> decide

theorem headBelow_seven (s : ParserState) : HeadBelow 7 s := by
  intro _ _ _ op _
  have := op.precedence_le_six
  omega

theorem HeadBelow.mono {i i' : Nat} {s : ParserState} (h : HeadBelow i s) (le : i ≤ i') :
    HeadBelow i' s := by
  intro tok s₁ peek op isOp
  have := h tok s₁ peek op isOp
  omega

/-! ## Reading the levels one after another -/

section Levels

variable {s s' : ParserState} {t u : Tree}

theorem tails_self (j : Nat) : Tails j j s t u s' ↔ u = t ∧ s' = s := by
  cases j with
  | zero => rfl
  | succ j => simp [Tails]

theorem tails_succ {i j : Nat} (le : j ≤ i) :
    Tails (i + 1) j s t u s' ↔ ∃ v s₁, Chain i s t v s₁ ∧ Tails i j s₁ v u s' := by
  simp [Tails, Nat.not_lt.mpr le]

/-- The loops from `i` down to `j` are those from `i` down to `k`, then those from `k` down to
`j`. -/
theorem tails_split {i j k : Nat} (jk : j ≤ k) (ki : k ≤ i) :
    Tails i j s t u s' ↔ ∃ v s₁, Tails i k s t v s₁ ∧ Tails k j s₁ v u s' := by
  induction i generalizing s t with
  | zero =>
    obtain rfl : k = 0 := by omega
    simp [tails_self]
  | succ i ih =>
    rcases Nat.lt_or_ge i k with lt | ge
    · obtain rfl : k = i + 1 := by omega
      simp [tails_self]
    · rw [tails_succ (by omega)]
      constructor
      · rintro ⟨v, s₁, chain, rest⟩
        obtain ⟨w, s₂, upper, lower⟩ := (ih ge).mp rest
        exact ⟨w, s₂, (tails_succ ge).mpr ⟨v, s₁, chain, upper⟩, lower⟩
      · rintro ⟨w, s₂, upper, lower⟩
        obtain ⟨v, s₁, chain, upper⟩ := (tails_succ ge).mp upper
        exact ⟨v, s₁, chain, (ih ge).mpr ⟨w, s₂, upper, lower⟩⟩

theorem tails_one_level {k : Nat} : Tails (k + 1) k s t u s' ↔ Chain k s t u s' := by
  rw [tails_succ (Nat.le_refl k)]
  simp [tails_self]

/-- The loops from `i` down to `k` are those from `i` down to `k + 1`, then the loop of `k`. -/
theorem tails_snoc {i k : Nat} (lt : k < i) :
    Tails i k s t u s' ↔ ∃ v s₁, Tails i (k + 1) s t v s₁ ∧ Chain k s₁ v u s' := by
  rw [tails_split (Nat.le_succ k) lt]
  simp only [tails_one_level]

theorem stratified_lower_iff {k : Nat} (lt : k < 6) :
    Stratified k s u s' ↔ ∃ t s₁, Stratified (k + 1) s t s₁ ∧ Chain k s₁ t u s' := by
  constructor
  · intro h
    cases h with
    | lower _ first rest => exact ⟨_, _, first, rest⟩
    | power le => omega
  · rintro ⟨t, s₁, first, rest⟩
    exact .lower lt first rest

theorem stratified_power_iff {k : Nat} (le : 6 ≤ k) :
    Stratified k s u s' ↔ ∃ a s₁, Operand s a s₁ ∧ Chain 6 s₁ a u s' := by
  constructor
  · intro h
    cases h with
    | lower lt => omega
    | power _ base rest => exact ⟨_, _, base, rest⟩
  · rintro ⟨a, s₁, base, rest⟩
    exact .power le base rest

/-- Every level of the grammar is an operand followed by the loops of its own level and all
tighter ones. -/
theorem stratified_iff {k : Nat} (one : 1 ≤ k) (six : k ≤ 6) :
    Stratified k s u s' ↔ ∃ a s₁, Operand s a s₁ ∧ Tails 7 k s₁ a u s' := by
  -- the induction climbs from level 6, where the claim is the definition, down to `k`
  obtain ⟨d, rfl⟩ : ∃ d, k = 6 - d := ⟨6 - k, by omega⟩
  induction d generalizing u s' with
  | zero =>
    rw [stratified_power_iff (Nat.le_refl 6)]
    simp only [Nat.sub_zero, tails_one_level]
  | succ d ih =>
    have lt : 6 - (d + 1) < 6 := by omega
    have up : 6 - (d + 1) + 1 = 6 - d := by omega
    rw [stratified_lower_iff lt]
    simp only [tails_snoc (i := 7) (k := 6 - (d + 1)) (by omega), up]
    constructor
    · rintro ⟨t, s₁, first, rest⟩
      obtain ⟨a, s₀, base, tails⟩ := (ih (by omega) (by omega)).mp first
      exact ⟨a, s₀, base, t, s₁, tails, rest⟩
    · rintro ⟨a, s₀, base, t, s₁, tails, rest⟩
      exact ⟨t, s₁, (ih (by omega) (by omega)).mpr ⟨a, s₀, base, tails⟩, rest⟩

/-! ## Where a loop stops and where it goes on -/

theorem chain_stop_iff {k : Nat} {tok : Token} {s₁ : ParserState}
    (peek : peekToken.run s = .ok (tok, s₁))
    (other : ∀ op, binOpOf tok = some op → op.precedence ≠ k) :
    Chain k s t u s' ↔ u = t ∧ s' = s₁ := by
  constructor
  · intro h
    cases h with
    | stop peek' =>
      rw [peek] at peek'
      simp only [Except.ok.injEq, Prod.mk.injEq] at peek'
      exact ⟨rfl, peek'.2.symm⟩
    | more peek' isOp level =>
      rw [peek] at peek'
      simp only [Except.ok.injEq, Prod.mk.injEq] at peek'
      obtain ⟨rfl, rfl⟩ := peek'
      exact absurd level (other _ isOp)
  · rintro ⟨rfl, rfl⟩
    exact .stop peek other

theorem chain_more_iff {k : Nat} {tok : Token} {s₁ : ParserState} {op : BinOp}
    (peek : peekToken.run s = .ok (tok, s₁)) (isOp : binOpOf tok = some op)
    (level : op.precedence = k) :
    Chain k s t u s' ↔ ∃ s₂ r s₃, nextToken.run s₁ = .ok (tok, s₂) ∧
      Stratified op.nextLevel s₂ r s₃ ∧ Chain k s₃ (.binary op t r) u s' := by
  constructor
  · intro h
    cases h with
    | stop peek' other =>
      rw [peek] at peek'
      simp only [Except.ok.injEq, Prod.mk.injEq] at peek'
      obtain ⟨rfl, rfl⟩ := peek'
      exact absurd level (other op isOp)
    | more peek' isOp' _ take right rest =>
      rw [peek] at peek'
      simp only [Except.ok.injEq, Prod.mk.injEq] at peek'
      obtain ⟨rfl, rfl⟩ := peek'
      rw [isOp] at isOp'
      cases isOp'
      exact ⟨_, _, _, take, right, rest⟩
  · rintro ⟨s₂, r, s₃, take, right, rest⟩
    exact .more peek isOp level take right rest

/-- Before a token that is no operator of levels `j` to `i - 1`, those loops all stop at once,
having only looked at it. -/
theorem tails_stop {i j : Nat} {tok : Token} {s₁ : ParserState} (ji : j < i)
    (peek : peekToken.run s = .ok (tok, s₁))
    (outside : ∀ op, binOpOf tok = some op → op.precedence < j ∨ i ≤ op.precedence) :
    Tails i j s t u s' ↔ u = t ∧ s' = s₁ := by
  induction i generalizing s with
  | zero => omega
  | succ i ih =>
    have notLevel : ∀ op, binOpOf tok = some op → op.precedence ≠ i := by
      intro op isOp
      have := outside op isOp
      omega
    have rest : Tails i j s₁ t u s' ↔ u = t ∧ s' = s₁ := by
      rcases Nat.lt_or_ge j i with lt | ge
      · exact ih lt (peekToken_again peek) fun op isOp => by
          have := outside op isOp
          omega
      · obtain rfl : j = i := by omega
        exact tails_self j
    rw [tails_succ (by omega)]
    constructor
    · rintro ⟨v, s₂, chain, tails⟩
      obtain ⟨rfl, rfl⟩ := (chain_stop_iff peek notLevel).mp chain
      exact rest.mp tails
    · intro h
      exact ⟨t, s₁, (chain_stop_iff peek notLevel).mpr ⟨rfl, rfl⟩, rest.mpr h⟩

/-- At an operator of precedence `q`, the loops from level `q` down to `j` take it with its
right operand and go on from level `q` again. -/
theorem tails_take {j : Nat} {tok : Token} {s₁ : ParserState} {op : BinOp}
    (jq : j ≤ op.precedence) (peek : peekToken.run s = .ok (tok, s₁))
    (isOp : binOpOf tok = some op) :
    Tails (op.precedence + 1) j s t u s' ↔ ∃ s₂ r s₃, nextToken.run s₁ = .ok (tok, s₂) ∧
      Stratified op.nextLevel s₂ r s₃ ∧ Tails (op.precedence + 1) j s₃ (.binary op t r) u s' := by
  simp only [tails_succ jq, chain_more_iff peek isOp rfl]
  constructor
  · rintro ⟨v, s₄, ⟨s₂, r, s₃, take, right, chain⟩, tails⟩
    exact ⟨s₂, r, s₃, take, right, v, s₄, chain, tails⟩
  · rintro ⟨s₂, r, s₃, take, right, v, s₄, chain, tails⟩
    exact ⟨v, s₄, ⟨s₂, r, s₃, take, right, chain⟩, tails⟩

/-- At an operator of precedence `q` with `j ≤ q < i`, the loops from `i - 1` down to `q + 1`
stop, and that of `q` takes the operator with its right operand. -/
theorem tails_op {i j : Nat} {tok : Token} {s₁ : ParserState} {op : BinOp}
    (jq : j ≤ op.precedence) (qi : op.precedence < i) (peek : peekToken.run s = .ok (tok, s₁))
    (isOp : binOpOf tok = some op) :
    Tails i j s t u s' ↔ ∃ s₂ r s₃, nextToken.run s₁ = .ok (tok, s₂) ∧
      Stratified op.nextLevel s₂ r s₃ ∧ Tails (op.precedence + 1) j s₃ (.binary op t r) u s' := by
  rw [tails_split (by omega) qi]
  rcases Nat.lt_or_ge (op.precedence + 1) i with lt | ge
  · have upper : ∀ v s₂, Tails i (op.precedence + 1) s t v s₂ ↔ v = t ∧ s₂ = s₁ :=
      fun v s₂ => tails_stop lt peek fun op' isOp' => by
        rw [isOp] at isOp'
        cases isOp'
        omega
    simp only [upper, ← tails_take jq (peekToken_again peek) isOp]
    constructor
    · rintro ⟨v, s₂, ⟨rfl, rfl⟩, tails⟩
      exact tails
    · intro tails
      exact ⟨t, s₁, ⟨rfl, rfl⟩, tails⟩
  · obtain rfl : i = op.precedence + 1 := by omega
    simp only [tails_self, ← tails_take jq peek isOp]
    constructor
    · rintro ⟨v, s₂, ⟨rfl, rfl⟩, tails⟩
      exact tails
    · intro tails
      exact ⟨t, s, ⟨rfl, rfl⟩, tails⟩

end Levels

/-! ## Type checking a tree -/

section Typing

variable {e : Expr} {t : Tree} {ts : List Tree}

@[simp] theorem Tree.typedAll_nil : Tree.typedAll [] = some [] := rfl

theorem Tree.typedAll_cons_iff {es : List Expr} :
    Tree.typedAll (t :: ts) = some es ↔
      ∃ a as, t.typed = some a ∧ Tree.typedAll ts = some as ∧ es = a :: as := by
  simp only [Tree.typedAll, Option.bind_eq_some_iff, Option.map_eq_some_iff]
  constructor
  · rintro ⟨a, ha, as, has, rfl⟩
    exact ⟨a, as, ha, has, rfl⟩
  · rintro ⟨a, as, ha, has, rfl⟩
    exact ⟨a, ha, as, has, rfl⟩

theorem Tree.typed_ref_iff {name : String} :
    (Tree.ref name ts).typed = some e ↔
      ∃ es, Tree.typedAll ts = some es ∧ (∀ x ∈ es, x.type = .number) ∧ e = .ref name es := by
  simp only [Tree.typed, Option.bind_eq_some_iff]
  constructor
  · rintro ⟨es, hes, h⟩
    split at h
    · rename_i numeric
      cases h
      exact ⟨es, hes, by simpa using numeric, rfl⟩
    · cases h
  · rintro ⟨es, hes, numeric, rfl⟩
    have all : es.all (·.type == .number) = true :=
      List.all_eq_true.mpr fun x member => by simp [numeric x member]
    exact ⟨es, hes, by simp [all]⟩

theorem Tree.typed_plus_iff : (Tree.plus t).typed = some e ↔ t.typed = some e ∧ e.type = .number := by
  simp only [Tree.typed, Option.bind_eq_some_iff]
  constructor
  · rintro ⟨a, ha, h⟩
    split at h
    · rename_i numeric
      cases h
      exact ⟨ha, by simpa using numeric⟩
    · cases h
  · rintro ⟨he, numeric⟩
    exact ⟨e, he, by simp [numeric]⟩

theorem Tree.typed_neg_iff :
    (Tree.neg t).typed = some e ↔ ∃ a, t.typed = some a ∧ a.type = .number ∧ e = .neg a := by
  simp only [Tree.typed, Option.bind_eq_some_iff]
  constructor
  · rintro ⟨a, ha, h⟩
    split at h
    · rename_i numeric
      cases h
      exact ⟨a, ha, by simpa using numeric, rfl⟩
    · cases h
  · rintro ⟨a, ha, numeric, rfl⟩
    exact ⟨a, ha, by simp [numeric]⟩

theorem Tree.typed_binary_iff {op : BinOp} {l r : Tree} :
    (Tree.binary op l r).typed = some e ↔
      ∃ a b, l.typed = some a ∧ r.typed = some b ∧ joinTyped op a b = some e := by
  simp only [Tree.typed, Option.bind_eq_some_iff]
  constructor
  · rintro ⟨a, ha, b, hb, h⟩
    exact ⟨a, b, ha, hb, h⟩
  · rintro ⟨a, b, ha, hb, h⟩
    exact ⟨a, ha, b, hb, h⟩

theorem Tree.typed_call_iff {name : String} :
    (Tree.call name ts).typed = some e ↔
      ∃ es f, Tree.typedAll ts = some es ∧ lookupBuiltin name (es.map Expr.type) = .ok f ∧
        e = .call f es := by
  simp only [Tree.typed, Option.bind_eq_some_iff]
  constructor
  · rintro ⟨es, hes, h⟩
    split at h
    · rename_i f found
      cases h
      exact ⟨es, f, hes, found, rfl⟩
    · cases h
  · rintro ⟨es, f, hes, found, rfl⟩
    exact ⟨es, hes, by simp [found]⟩

/-- A loop that ends in a well-typed tree started from one: the operand it started with is a
subtree. -/
theorem Chain.typed_start {k : Nat} {s : ParserState} {t u : Tree} {s' : ParserState} :
    Chain k s t u s' → u.typed ≠ none → t.typed ≠ none
  | .stop _ _, typed => typed
  | .more _ _ _ _ _ rest, typed => fun none => Chain.typed_start rest typed (by
      simp [Tree.typed, none])

theorem tails_typed_start {i j : Nat} {s : ParserState} {u : Tree} {s' : ParserState} :
    ∀ {t : Tree}, Tails i j s t u s' → u.typed ≠ none → t.typed ≠ none := by
  induction i generalizing s with
  | zero =>
    rintro t ⟨rfl, -⟩ typed
    exact typed
  | succ i ih =>
    intro t tails typed
    rcases Nat.lt_or_ge i j with lt | ge
    · simp only [Tails, lt, if_true] at tails
      rw [← tails.1]
      exact typed
    · obtain ⟨v, s₁, chain, rest⟩ := (tails_succ ge).mp tails
      exact chain.typed_start (ih rest typed)

end Typing

/-- Every loop starts by looking at the next token. -/
theorem Chain.peek_ok {k : Nat} {s : ParserState} {t u : Tree} {s' : ParserState} :
    Chain k s t u s' → ∃ tok s₁, peekToken.run s = .ok (tok, s₁)
  | .stop peek _ => ⟨_, _, peek⟩
  | .more peek _ _ _ _ _ => ⟨_, _, peek⟩

theorem tails_peek_ok {i j : Nat} {s : ParserState} {t u : Tree} {s' : ParserState} (ji : j < i)
    (tails : Tails i j s t u s') : ∃ tok s₁, peekToken.run s = .ok (tok, s₁) := by
  obtain ⟨i, rfl⟩ : ∃ i', i = i' + 1 := ⟨i - 1, by omega⟩
  obtain ⟨v, s₁, chain, -⟩ := (tails_succ (by omega)).mp tails
  exact chain.peek_ok

end BasicJvm.Syntax
