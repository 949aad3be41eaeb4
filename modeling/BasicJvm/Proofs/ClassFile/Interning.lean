import BasicJvm.Proofs.ClassFile.Constants

/-!
# Adding constants, call after call

Code refers to a constant pool through a few calls (`PoolCall`): add a text, an integer, a
float (by its bit pattern), a class, a string, a name and type, or a field or method reference
(`PoolAdd`), or rewrite the text of a Utf8 entry.  `Pool.afterCalls_answers` says what any
sequence of such calls does, as long as the pool keeps within the 16-bit count:

* each add answers an index whose entry stands for the value added (`PoolAdd.Resolves`): the
  text or number itself, or an entry of the kind asked for whose names are the ones given;
* an add puts its parts in first (a class its name, a reference its class and its name and
  type), and then its own constant as `Pool.add` puts in every constant (`Pool.AddsAt`): the
  lowest index of an equal entry, the pool left as it is, or else the index of the constant
  appended as the one new entry;
* an entry stays as it is until a rewrite of its own index (`Pool.afterCalls_get`).

Past the 16-bit count an index wraps, and an add can answer the index of another constant
(`stackMapTable_text_index_wraps`).
-/

namespace BasicJvm.ClassFile

/-- Adding a value to a constant pool. -/
inductive PoolAdd where
  | utf8 (s : String)
  | integer (bits : UInt32)
  | float (bits : UInt32)
  | classRef (name : String)
  | string (s : String)
  | nameAndType (name desc : String)
  | fieldRef (owner name desc : String)
  | methodRef (owner name desc : String)
  deriving DecidableEq, Repr

/-- A call on a constant pool: an add, or a rewrite of the text of a Utf8 entry. -/
inductive PoolCall where
  | add (a : PoolAdd)
  | setUtf8 (i : Nat) (s : String)
  deriving DecidableEq, Repr

namespace PoolAdd

/-- The pool after an add, and the index it answers. -/
def apply (a : PoolAdd) (p : Pool) : Pool × Nat :=
  match a with
  | .utf8 s => p.addUtf8 s
  | .integer bits => p.addInteger bits
  | .float bits => p.addFloat bits
  | .classRef name => p.addClass name
  | .string s => p.addString s
  | .nameAndType name desc => p.addNameAndType name desc
  | .fieldRef owner name desc => p.addFieldref owner name desc
  | .methodRef owner name desc => p.addMethodref owner name desc

/-- The pool after the parts an add puts in first, and the constant it then adds itself. -/
def staged (a : PoolAdd) (p : Pool) : Pool × Constant :=
  match a with
  | .utf8 s => (p, .utf8 s)
  | .integer bits => (p, .integer bits)
  | .float bits => (p, .float bits)
  | .classRef name =>
    let (p, n) := p.addUtf8 name
    (p, .classRef n)
  | .string s =>
    let (p, n) := p.addUtf8 s
    (p, .string n)
  | .nameAndType name desc =>
    let (p, n) := p.addUtf8 name
    let (p, d) := p.addUtf8 desc
    (p, .nameAndType n d)
  | .fieldRef owner name desc =>
    let (p, o) := p.addClass owner
    let (p, nt) := p.addNameAndType name desc
    (p, .fieldRef o nt)
  | .methodRef owner name desc =>
    let (p, o) := p.addClass owner
    let (p, nt) := p.addNameAndType name desc
    (p, .methodRef o nt)

/-- Entry `i` of `P` stands for the value added: the text or number itself, or a class,
string, name and type or reference entry whose names are the ones given. -/
def Resolves (P : Pool) (i : Nat) : PoolAdd → Prop
  | .utf8 s => P.get i = .ok (.utf8 s)
  | .integer bits => P.get i = .ok (.integer bits)
  | .float bits => P.get i = .ok (.float bits)
  | .classRef name => P.className i = .ok name
  | .string s => ∃ k, P.get i = .ok (.string k) ∧ P.get k = .ok (.utf8 s)
  | .nameAndType name desc => ∃ n d, P.get i = .ok (.nameAndType n d) ∧
      P.get n = .ok (.utf8 name) ∧ P.get d = .ok (.utf8 desc)
  | .fieldRef owner name desc => (∃ o nt, P.get i = .ok (.fieldRef o nt)) ∧
      P.memberRef i = .ok (owner, name, desc)
  | .methodRef owner name desc => (∃ o nt, P.get i = .ok (.methodRef o nt)) ∧
      P.memberRef i = .ok (owner, name, desc)

end PoolAdd

/-- The pool after a call.  A rewrite of an entry that is not a Utf8 entry fails and leaves the
pool as it was. -/
def PoolCall.apply (call : PoolCall) (p : Pool) : Pool :=
  match call with
  | .add a => (a.apply p).1
  | .setUtf8 i s =>
    match p.setUtf8 i s with
    | .ok p' => p'
    | .error _ => p

/-- The pool after a sequence of calls. -/
def Pool.afterCalls (p : Pool) (calls : List PoolCall) : Pool :=
  calls.foldl (fun p call => call.apply p) p

/-- Adding constant `c` to pool `p` gave pool `p'` and index `i` as a pool promises: `i` is the
lowest index of an entry equal to `c`, and the pool is as it was; or no entry is equal to `c`,
and `c` is appended as the one new entry, at index `i`. -/
def Pool.AddsAt (p : Pool) (c : Constant) (p' : Pool) (i : Nat) : Prop :=
  (p.get i = .ok c ∧ (∀ j < i, p.get j ≠ .ok c) ∧ p' = p) ∨
    ((∀ j, p.get j ≠ .ok c) ∧ i = p.count ∧ p'.entries.toList = p.entries.toList ++ [c])

/-! ## One add -/

/-- `Pool.add` keeps its promise within the 16-bit count. -/
theorem Pool.add_addsAt {p : Pool} {c : Constant} (usable : c ≠ .unusable)
    (narrow : c.isWide = false) (small : (p.add c).1.count ≤ 2 ^ 16) :
    p.AddsAt c (p.add c).1 (p.add c).2 := by
  cases found : p.entries.findIdx? (· == c) with
  | some i =>
    obtain ⟨inside, same, before⟩ := Array.findIdx?_eq_some_iff_getElem.mp found
    simp only [Pool.add, found, Pool.count] at small ⊢
    rw [Nat.mod_eq_of_lt (by omega)]
    refine .inl ⟨?_, fun j below equal => ?_, rfl⟩
    · rw [Pool.get_eq_ok]
      exact ⟨by simp [inside, beq_iff_eq.mp same], usable⟩
    · -- an equal entry below `i` would have been found first
      obtain ⟨at_j, -⟩ := Pool.get_eq_ok.mp equal
      rw [Array.getElem?_eq_getElem (by omega), Option.some.injEq] at at_j
      exact before j below (by simp [at_j])
  | none =>
    have grown : (p.push c).entries.toList = p.entries.toList ++ [c] := by
      simp [Pool.push_entries, Constant.slots, narrow]
    simp only [Pool.add, found] at small ⊢
    have size : (p.push c).count = p.count + 1 := by
      rw [Pool.count, Pool.count, ← Array.length_toList, ← Array.length_toList, grown,
        List.length_append, List.length_singleton]
    refine .inr ⟨fun j equal => ?_, ?_, grown⟩
    · -- no entry is equal to `c`, or it would have been found
      obtain ⟨at_j, -⟩ := Pool.get_eq_ok.mp equal
      obtain ⟨inside, at_j⟩ := Array.getElem?_eq_some_iff.mp at_j
      have := Array.findIdx?_eq_none_iff.mp found p.entries[j] (Array.getElem_mem inside)
      simp [at_j] at this
    · rw [← Pool.count, Nat.mod_eq_of_lt (by omega)]

namespace PoolAdd

theorem apply_eq_add (a : PoolAdd) (p : Pool) :
    a.apply p = (a.staged p).1.add (a.staged p).2 := by
  cases a <;> rfl

theorem staged_usable (a : PoolAdd) (p : Pool) : (a.staged p).2 ≠ .unusable := by
  cases a <;> simp [staged]

theorem staged_narrow (a : PoolAdd) (p : Pool) : (a.staged p).2.isWide = false := by
  cases a <;> rfl

/-- An add keeps every entry at its index. -/
theorem apply_extends (a : PoolAdd) (p : Pool) : p.Extends (a.apply p).1 := by
  cases a with
  | utf8 s => exact p.addUtf8_extends s
  | integer bits => exact p.add_extends _
  | float bits => exact p.add_extends _
  | classRef name => exact p.addClass_extends name
  | string s => exact p.addString_extends s
  | nameAndType name desc => exact p.addNameAndType_extends name desc
  | fieldRef owner name desc => exact p.addFieldref_extends owner name desc
  | methodRef owner name desc => exact p.addMethodref_extends owner name desc

/-- The entry at the index an add answers is the constant it put in last. -/
theorem apply_get (a : PoolAdd) (p : Pool) (small : (a.apply p).1.count ≤ 2 ^ 16) :
    (a.apply p).1.get (a.apply p).2 = .ok (a.staged p).2 := by
  rw [apply_eq_add] at small ⊢
  exact Pool.add_get (a.staged_usable p) (.refl _) small

/-- The index an add answers stands for the value added. -/
theorem apply_resolves (a : PoolAdd) (p : Pool) (small : (a.apply p).1.count ≤ 2 ^ 16) :
    a.Resolves (a.apply p).1 (a.apply p).2 := by
  cases a with
  | utf8 s => exact Pool.addUtf8_get (.refl _) small
  | integer bits => exact apply_get (.integer bits) p small
  | float bits => exact apply_get (.float bits) p small
  | classRef name => exact Pool.addClass_className (.refl _) small
  | string s => exact Pool.addString_get (.refl _) small
  | nameAndType name desc => exact Pool.addNameAndType_get (.refl _) small
  | fieldRef owner name desc =>
    exact ⟨⟨_, _, apply_get (.fieldRef owner name desc) p small⟩,
      Pool.addFieldref_memberRef (.refl _) small⟩
  | methodRef owner name desc =>
    exact ⟨⟨_, _, apply_get (.methodRef owner name desc) p small⟩,
      Pool.addMethodref_memberRef (.refl _) small⟩

/-- What an add does within the 16-bit count: it puts its parts in, and then its own constant
as `Pool.add` promises; the index it answers stands for the value added. -/
theorem apply_answers (a : PoolAdd) (p : Pool) (small : (a.apply p).1.count ≤ 2 ^ 16) :
    (a.staged p).1.AddsAt (a.staged p).2 (a.apply p).1 (a.apply p).2 ∧
      a.Resolves (a.apply p).1 (a.apply p).2 := by
  refine ⟨?_, a.apply_resolves p small⟩
  rw [apply_eq_add] at small ⊢
  exact Pool.add_addsAt (a.staged_usable p) (a.staged_narrow p) small

end PoolAdd

/-! ## Calls one after another -/

theorem Pool.setUtf8_eq_ok {p p' : Pool} {i : Nat} {s : String} (h : p.setUtf8 i s = .ok p') :
    p' = ⟨p.entries.setIfInBounds i (.utf8 s)⟩ := by
  unfold Pool.setUtf8 at h
  cases text : p.utf8 i with
  | error e => simp [text, bind, Except.bind] at h
  | ok t => simpa [text, bind, Except.bind, pure, Except.pure] using h.symm

/-- A call keeps every entry but the one it rewrites. -/
theorem PoolCall.apply_get {call : PoolCall} {p : Pool} {j : Nat} {c : Constant}
    (h : p.get j = .ok c) (keeps : ∀ s, call ≠ .setUtf8 j s) : (call.apply p).get j = .ok c := by
  cases call with
  | add a => exact (a.apply_extends p).get h
  | setUtf8 i s =>
    have other : i ≠ j := by
      rintro rfl
      exact keeps s rfl
    cases rewritten : p.setUtf8 i s with
    | ok p' =>
      simp only [PoolCall.apply, rewritten]
      rw [Pool.setUtf8_eq_ok rewritten]
      rw [Pool.get_eq_ok] at h ⊢
      rwa [Array.getElem?_setIfInBounds_ne other]
    | error e =>
      simp only [PoolCall.apply, rewritten]
      exact h

/-- No call shrinks the pool. -/
theorem PoolCall.count_le_apply (call : PoolCall) (p : Pool) : p.count ≤ (call.apply p).count := by
  cases call with
  | add a => exact (a.apply_extends p).count_le
  | setUtf8 i s =>
    cases rewritten : p.setUtf8 i s with
    | ok p' =>
      simp only [PoolCall.apply, rewritten]
      rw [Pool.setUtf8_eq_ok rewritten]
      simp [Pool.count]
    | error e =>
      simp only [PoolCall.apply, rewritten]
      exact Nat.le_refl _

@[simp] theorem Pool.afterCalls_nil (p : Pool) : p.afterCalls [] = p := rfl

@[simp] theorem Pool.afterCalls_cons (p : Pool) (call : PoolCall) (calls : List PoolCall) :
    p.afterCalls (call :: calls) = (call.apply p).afterCalls calls := rfl

theorem Pool.afterCalls_append (p : Pool) (xs ys : List PoolCall) :
    p.afterCalls (xs ++ ys) = (p.afterCalls xs).afterCalls ys :=
  List.foldl_append

theorem Pool.count_le_afterCalls (p : Pool) : ∀ calls, p.count ≤ (p.afterCalls calls).count
  | [] => Nat.le_refl _
  | call :: calls => Nat.le_trans (call.count_le_apply p) ((call.apply p).count_le_afterCalls calls)

/-- The run lemma: an entry stays as it is through calls that rewrite other indexes only. -/
theorem Pool.afterCalls_get {j : Nat} {c : Constant} : ∀ (calls : List PoolCall) {p : Pool},
    p.get j = .ok c → (∀ i s, PoolCall.setUtf8 i s ∈ calls → i ≠ j) →
      (p.afterCalls calls).get j = .ok c
  | [], _, h, _ => h
  | call :: calls, _, h, keeps => by
    have first := PoolCall.apply_get h fun s same => keeps j s (same ▸ List.mem_cons_self) rfl
    exact Pool.afterCalls_get calls first fun i s mem => keeps i s (List.mem_cons_of_mem call mem)

/-- What a sequence of calls from pool `p₀` keeps to: every add puts in its parts and then its
own constant as `Pool.add` promises, and answers an index that stands for the value added; and
an entry stays as it is until a rewrite of its own index. -/
structure Pool.CallsKept (p₀ : Pool) (calls : List PoolCall) : Prop where
  adds : ∀ k a, calls[k]? = some (PoolCall.add a) →
    (a.staged (p₀.afterCalls (calls.take k))).1.AddsAt (a.staged (p₀.afterCalls (calls.take k))).2
        (p₀.afterCalls (calls.take (k + 1))) (a.apply (p₀.afterCalls (calls.take k))).2 ∧
      a.Resolves (p₀.afterCalls (calls.take (k + 1))) (a.apply (p₀.afterCalls (calls.take k))).2
  entries : ∀ k m j c, k ≤ m → (p₀.afterCalls (calls.take k)).get j = .ok c →
    (∀ i s, PoolCall.setUtf8 i s ∈ (calls.take m).drop k → i ≠ j) →
    (p₀.afterCalls (calls.take m)).get j = .ok c

/-- Any sequence of calls on any pool keeps to what a pool promises, as long as the pool stays
within the 16-bit count. -/
theorem Pool.afterCalls_answers (p₀ : Pool) (calls : List PoolCall)
    (small : (p₀.afterCalls calls).count ≤ 2 ^ 16) : p₀.CallsKept calls := by
  -- every pool along the way is within the count, the pool never shrinking
  have within : ∀ k, (p₀.afterCalls (calls.take k)).count ≤ 2 ^ 16 := by
    intro k
    have whole : p₀.afterCalls calls =
        (p₀.afterCalls (calls.take k)).afterCalls (calls.drop k) := by
      rw [← Pool.afterCalls_append, List.take_append_drop]
    exact Nat.le_trans ((p₀.afterCalls (calls.take k)).count_le_afterCalls _) (whole ▸ small)
  refine ⟨fun k a found => ?_, fun k m j c le h keeps => ?_⟩
  · have next : p₀.afterCalls (calls.take (k + 1)) = (a.apply (p₀.afterCalls (calls.take k))).1 := by
      rw [List.take_add_one, found, Option.toList_some, Pool.afterCalls_append]
      rfl
    rw [next]
    exact a.apply_answers _ (next ▸ within (k + 1))
  · have split : calls.take k ++ (calls.take m).drop k = calls.take m := by
      have whole := List.take_append_drop k (calls.take m)
      rwa [List.take_take, Nat.min_eq_left le] at whole
    rw [← split, Pool.afterCalls_append]
    exact Pool.afterCalls_get _ h keeps

/-- The calls of a deduplication test: a method reference added twice, and the floats `0.0` and
`-0.0`, whose bit patterns differ. -/
def dedupCalls : List PoolCall :=
  [.add (.methodRef "java/lang/Math" "abs" "(F)F"), .add (.methodRef "java/lang/Math" "abs" "(F)F"),
    .add (.float 0), .add (.float 0x80000000)]

theorem dedupCalls_kept :
    (Pool.empty.afterCalls dedupCalls).count ≤ 2 ^ 16 ∧ Pool.empty.CallsKept dedupCalls :=
  have small : (Pool.empty.afterCalls dedupCalls).count ≤ 2 ^ 16 := by decide +kernel
  ⟨small, Pool.afterCalls_answers Pool.empty dedupCalls small⟩

/-! ## Past the 16-bit count -/

/-- The pool of the integer constants `base, base + 1, …`, each added once. -/
theorem integerPool_entries (base : Nat) : ∀ k, base + k ≤ 2 ^ 32 →
    ((List.range k).foldl (fun p i => (p.addInteger (base + i).toUInt32).1)
      Pool.empty).entries.toList =
      .unusable :: ((List.range k).map fun i => (base + i).toUInt32).map .integer
  | 0, _ => rfl
  | k + 1, fits => by
    rw [List.range_succ, List.foldl_append, List.foldl_cons, List.foldl_nil]
    have ih := integerPool_entries base k (by omega)
    generalize (List.range k).foldl _ Pool.empty = p at ih ⊢
    -- below `2 ^ 32` the bit patterns of different integers differ
    have fresh : Constant.integer (base + k).toUInt32 ∉ p.entries.toList := by
      rw [ih, List.map_map]
      simp only [List.mem_cons, reduceCtorEq, List.mem_map, List.mem_range, Function.comp_apply,
        Constant.integer.injEq, false_or, not_exists, not_and]
      intro i below same
      have bits := congrArg UInt32.toNat same
      simp only [Nat.toUInt32_eq, UInt32.toNat_ofNat'] at bits
      omega
    rw [Pool.addInteger, Pool.add_fresh fresh, Pool.push_entries, ih]
    simp [Constant.slots, Constant.isWide]

/-- A usable constant other than an integer is not in a pool of integers. -/
theorem not_mem_integers {c : Constant} (usable : c ≠ .unusable) (notInteger : ∀ b, c ≠ .integer b)
    (ints : List UInt32) : c ∉ .unusable :: ints.map .integer := by
  rw [List.mem_cons, List.mem_map]
  rintro (unusable | ⟨b, -, integer⟩)
  · exact usable unusable
  · exact notInteger b integer.symm

/-- The adds of the integers `1000000, 1000001, …`, `k` of them. -/
def integerCalls (k : Nat) : List PoolCall :=
  (List.range k).map fun i => .add (.integer (1000000 + i).toUInt32)

theorem afterCalls_integerCalls (k : Nat) : Pool.empty.afterCalls (integerCalls k) =
    (List.range k).foldl (fun p i => (p.addInteger (1000000 + i).toUInt32).1) Pool.empty := by
  unfold integerCalls Pool.afterCalls
  rw [List.foldl_map]
  rfl

/-- Past the 16-bit count an index wraps onto another constant.  In a pool of 65535 integers the
class `T` and the text `StackMapTable` are new: the text is appended at index 65538, and the
index answered, 2, is that of the second integer. -/
theorem stackMapTable_text_wraps_over {P : Pool} {ints : List UInt32}
    (entries : P.entries.toList = .unusable :: ints.map .integer) (size : ints.length = 65535) :
    ((PoolAdd.utf8 "StackMapTable").apply (P.afterCalls [.add (.classRef "T")])).2 = 2 ∧
      ((PoolAdd.utf8 "StackMapTable").apply (P.afterCalls [.add (.classRef "T")])).1.get 2 =
        .ok (.integer (ints.getD 1 0)) := by
  have count : P.count = 65536 := by
    rw [Pool.count, ← Array.length_toList, entries, List.length_cons, List.length_map, size]
  -- the class and its name are new, at the indexes 65536 and 65537
  have classed : P.afterCalls [.add (.classRef "T")] =
      (P.push (.utf8 "T")).push (.classRef (65536 % 65536)) := by
    simp only [Pool.afterCalls_cons, Pool.afterCalls_nil, PoolCall.apply, PoolAdd.apply]
    rw [Pool.addClass_fresh (by rw [entries]; exact not_mem_integers (by simp) (by simp) _)
      (fun n => by rw [entries]; exact not_mem_integers (by simp) (by simp) _), count]
  have grown : ((P.push (.utf8 "T")).push (.classRef (65536 % 65536))).entries.toList =
      P.entries.toList ++ [.utf8 "T", .classRef (65536 % 65536)] := by
    simp [Pool.push_entries, Constant.slots, Constant.isWide]
  have fresh : Constant.utf8 "StackMapTable" ∉
      P.entries.toList ++ [.utf8 "T", .classRef (65536 % 65536)] := by
    rw [List.mem_append, entries]
    rintro (integer | later)
    · exact not_mem_integers (by simp) (by simp) _ integer
    · simp at later
  rw [classed, PoolAdd.apply, Pool.addUtf8, Pool.add_fresh (grown ▸ fresh)]
  refine ⟨?_, ?_⟩
  · -- the count is 65538, which wraps to 2
    rw [Pool.count, ← Array.length_toList, grown, List.length_append, Array.length_toList]
    rw [Pool.count] at count
    rw [count]
    rfl
  · rw [Pool.get_eq_ok, ← Array.getElem?_toList, Pool.push_entries, grown, entries,
      List.append_assoc, List.cons_append, List.getElem?_cons_succ,
      List.getElem?_append_left (by simp [size]), List.getElem?_map,
      List.getElem?_eq_getElem (by omega)]
    simp [List.getD_eq_getElem?_getD, List.getElem?_eq_getElem (show 1 < ints.length by omega)]

/-- The same wrap after 65535 integer adds starting at 1000000. -/
theorem stackMapTable_text_index_wraps :
    ((PoolAdd.utf8 "StackMapTable").apply
        (Pool.empty.afterCalls (integerCalls 65535 ++ [.add (.classRef "T")]))).2 = 2 ∧
      ((PoolAdd.utf8 "StackMapTable").apply
        (Pool.empty.afterCalls (integerCalls 65535 ++ [.add (.classRef "T")]))).1.get 2 =
        .ok (.integer (1000001 : Nat).toUInt32) := by
  rw [Pool.afterCalls_append, afterCalls_integerCalls]
  have wraps := stackMapTable_text_wraps_over (integerPool_entries 1000000 65535 (by decide))
    (by rw [List.length_map, List.length_range])
  refine ⟨wraps.1, ?_⟩
  rw [wraps.2, List.getD_eq_getElem?_getD, List.getElem?_map, List.getElem?_range (by decide)]
  rfl

end BasicJvm.ClassFile
