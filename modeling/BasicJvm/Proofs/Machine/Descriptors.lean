import Mathlib
import BasicJvm.Machine.Method
import BasicJvm.Bytecode.Types
import BasicJvm.Proofs.Except

/-!
# Two readings of a method descriptor

The verifier reads a method descriptor into types, character by character (`methodType`); the
interpreter splits it into parameters and a return type, byte by byte (`splitDescriptor`), to
know how many values a call pops and whether it pushes one.  The two must agree, or the
interpreter's operand stack would drift from the frames the assembler computed.

Main statement: `splitDescriptor_of_methodType`.  On every descriptor the verifier accepts,
the split succeeds, its parameters are the UTF-8 bytes of one field descriptor of each argument
type, in order, its return type is `V` exactly when the verifier finds no result, and the call
shape therefore pops one value per argument type, each filling the slots its type takes.

The byte reading and the character reading meet at ASCII: every delimiter of the grammar
(`(`, `)`, `[`, `L`, `;`) is one byte, and no other character's UTF-8 bytes contain an ASCII
byte (`mem_utf8EncodeChar_ascii`).
-/

namespace BasicJvm.Vm

open BasicJvm.Bytecode

/-! ## UTF-8 bytes of characters -/

/-- The UTF-8 bytes of a list of characters. -/
def charBytes (cs : List Char) : List UInt8 := cs.flatMap String.utf8EncodeChar

@[simp] theorem charBytes_nil : charBytes [] = [] := rfl

@[simp] theorem charBytes_cons (c : Char) (cs : List Char) :
    charBytes (c :: cs) = String.utf8EncodeChar c ++ charBytes cs := rfl

@[simp] theorem charBytes_append (a b : List Char) :
    charBytes (a ++ b) = charBytes a ++ charBytes b := by
  simp [charBytes]

theorem toList_loop (bs : ByteArray) (i : Nat) (r : List UInt8) :
    ByteArray.toList.loop bs i r = r.reverse ++ bs.data.toList.drop i := by
  fun_induction ByteArray.toList.loop bs i r with
  | case1 i r h ih =>
    have hi : i < bs.data.toList.length := by simpa using h
    rw [ih, List.drop_eq_getElem_cons (l := bs.data.toList) hi]
    simp [ByteArray.get!, h]
  | case2 i r h =>
    rw [List.drop_eq_nil_of_le (by simpa using Nat.le_of_not_lt h)]
    simp

/-- The UTF-8 bytes of a text are those of its characters. -/
theorem toUTF8_toList (s : String) : s.toUTF8.toList = charBytes s.toList := by
  conv => lhs; rw [← String.ofList_toList (s := s)]
  rw [String.toUTF8_eq_toByteArray, String.toByteArray_ofList, ByteArray.toList, toList_loop]
  simp [List.utf8Encode, charBytes]

/-- An ASCII byte occurs only in the encoding of its own character: the bytes of every other
character are 128 or more. -/
theorem mem_utf8EncodeChar_ascii {c : Char} {b : UInt8} (hb : b.toNat < 128)
    (h : b ∈ String.utf8EncodeChar c) : c.toNat = b.toNat := by
  unfold String.utf8EncodeChar at h
  have hc : c.toNat = c.val.toNat := rfl
  dsimp only at h
  split_ifs at h with h1 h2 h3 <;> simp only [List.mem_cons, List.not_mem_nil, or_false] at h
  · subst h
    rw [UInt8.toNat_ofNat']
    omega
  · rcases h with rfl | rfl <;> rw [UInt8.toNat_ofNat'] at hb <;> omega
  · rcases h with rfl | rfl | rfl <;> rw [UInt8.toNat_ofNat'] at hb <;> omega
  · rcases h with rfl | rfl | rfl | rfl <;> rw [UInt8.toNat_ofNat'] at hb <;> omega

theorem charBytes_ne_nil {cs : List Char} (h : cs ≠ []) : charBytes cs ≠ [] := by
  obtain ⟨c, cs, rfl⟩ := List.exists_cons_of_ne_nil h
  simp [String.utf8EncodeChar_ne_nil]

/-- The bytes of characters start with the first byte of the first character. -/
theorem charBytes_cons_eq (c : Char) (cs : List Char) :
    ∃ b bs, charBytes (c :: cs) = b :: bs ∧ b ∈ String.utf8EncodeChar c := by
  obtain ⟨b, bs, hb⟩ := List.exists_cons_of_ne_nil (String.utf8EncodeChar_ne_nil (c := c))
  exact ⟨b, bs ++ charBytes cs, by simp [hb], by simp [hb]⟩

/-- Characters none of which is the ASCII character of `b` have bytes without `b`. -/
theorem not_mem_charBytes {cs : List Char} {b : UInt8} (hb : b.toNat < 128)
    (h : ∀ c ∈ cs, c.toNat ≠ b.toNat) : b ∉ charBytes cs := by
  simp only [charBytes, List.mem_flatMap, not_exists, not_and]
  intro c hc hmem
  exact h c hc (mem_utf8EncodeChar_ascii hb hmem)

/-- One ASCII byte is the encoding of one character only. -/
theorem charBytes_eq_singleton {cs : List Char} {b : UInt8} (hb : b.toNat < 128)
    (h : charBytes cs = [b]) : ∃ c, cs = [c] ∧ c.toNat = b.toNat := by
  match cs, h with
  | c :: rest, h =>
    have one := String.utf8EncodeChar_ne_nil (c := c)
    rw [charBytes_cons] at h
    obtain ⟨first, last⟩ := List.append_eq_singleton_iff.mp h |>.resolve_left
      (fun ⟨e, _⟩ => one e)
    have : rest = [] := by
      by_contra ne
      exact charBytes_ne_nil ne last
    exact ⟨c, by simp [this], mem_utf8EncodeChar_ascii hb (by simp [first])⟩

/-! ## What the verifier reads as one type -/

/-- `nextType` reads the brackets in front, then one type after them with `baseType`; with
brackets, the type is the array whose descriptor is all it read. -/
theorem nextType_eq (cs : List Char) :
    nextType cs = (fun (t, rest) =>
      (if cs.takeWhile (· == '[') = [] then t
        else .object (String.ofList (cs.take (cs.length - rest.length))), rest)) <$>
      baseType (cs.dropWhile (· == '[')) := by
  match cs with
  | [] => rfl
  | c :: cs =>
    by_cases h : c = '['
    · subst h
      have brackets : ('[' :: cs).takeWhile (· == '[') ≠ [] := by simp
      simp only [nextType, brackets, if_false]
      cases baseType _ <;> rfl
    · have ne : (c == '[') = false := by simpa using h
      simp only [nextType, List.takeWhile_cons, List.dropWhile_cons, ne, Bool.false_eq_true,
        if_false, if_true]
      split
      · simp_all
      · cases baseType (c :: cs) <;> rfl

/-- What `baseType` reads: one base letter, or `L`, a class name without `;`, and `;`.  It
reads the same whatever follows. -/
theorem baseType_eq_ok {d rest : List Char} {t : VType} (h : baseType d = .ok (t, rest)) :
    ∃ body, d = body ++ rest ∧ baseType body = .ok (t, []) ∧
      ((∃ c, body = [c] ∧ c.toNat < 128 ∧ c ≠ 'L' ∧ c ≠ '[') ∨
        ∃ name, body = 'L' :: name ++ [';'] ∧ ';' ∉ name) := by
  match d, h with
  | c :: r, h =>
    simp only [baseType] at h
    split_ifs at h with hInt hFloat hDouble hL
    · obtain ⟨rfl, rfl⟩ : VType.int = t ∧ r = rest := by simpa using h
      refine ⟨[c], rfl, by simp [baseType, hInt], .inl ⟨c, rfl, ?_⟩⟩
      simp only [Bool.or_eq_true, beq_iff_eq] at hInt
      rcases hInt with (((rfl | rfl) | rfl) | rfl) | rfl <;> decide
    · obtain ⟨rfl, rfl⟩ : VType.float = t ∧ r = rest := by simpa using h
      obtain rfl : c = 'F' := by simpa using hFloat
      exact ⟨['F'], rfl, rfl, .inl ⟨'F', rfl, by decide⟩⟩
    · obtain ⟨rfl, rfl⟩ : VType.double = t ∧ r = rest := by simpa using h
      obtain rfl : c = 'D' := by simpa using hDouble
      exact ⟨['D'], rfl, rfl, .inl ⟨'D', rfl, by decide⟩⟩
    · obtain rfl : c = 'L' := by simpa using hL
      split at h
      · rename_i e found
        split_ifs at h with e0
        obtain ⟨rfl, rfl⟩ : VType.object (String.ofList (r.take e)) = t ∧ r.drop (e + 1) = rest := by
          simpa using h
        obtain ⟨lt, at_e, before⟩ := List.idxOf?_eq_some_iff.mp found
        have noSemi : ';' ∉ r.take e := by
          intro mem
          obtain ⟨j, hj, at_j⟩ := List.mem_iff_getElem.mp mem
          have hj' : j < e := by simp at hj; omega
          exact before j hj' (by simpa using at_j)
        have parts : r = r.take e ++ ';' :: r.drop (e + 1) := by
          rw [← at_e, ← List.drop_eq_getElem_cons lt, List.take_append_drop]
        have len : (r.take e).length = e := by simp; omega
        have again : (r.take e ++ [';']).idxOf? ';' = some e := by
          rw [List.idxOf?_eq_some_iff]
          refine ⟨by simp [len], by simp [List.getElem_append_right, len], fun j hj => ?_⟩
          rw [List.getElem_append_left (by omega)]
          simpa using before j hj
        refine ⟨'L' :: r.take e ++ [';'], ?_, ?_, .inr ⟨r.take e, rfl, noSemi⟩⟩
        · conv_lhs => rw [parts]
          simp
        · simp [baseType, again, e0, List.take_append_of_le_length len.ge, List.take_take]
      · simp at h

/-- Only the letter `D` reads as a double. -/
theorem baseType_double {d rest : List Char} (h : baseType d = .ok (.double, rest)) :
    d = 'D' :: rest := by
  match d, h with
  | c :: r, h =>
    simp only [baseType] at h
    split_ifs at h with hInt hFloat hDouble hL
    · simp at h
    · simp at h
    · obtain rfl : c = 'D' := by simpa using hDouble
      obtain rfl : r = rest := by simpa using h
      rfl
    · split at h
      · split_ifs at h
        simp at h
      · simp at h

/-- A double has no brackets in front: the verifier reads it from the letter `D` alone. -/
theorem nextType_double {cs rest : List Char} (h : nextType cs = .ok (.double, rest)) :
    cs = 'D' :: rest := by
  rw [nextType_eq, Except.map_eq_ok] at h
  obtain ⟨⟨t₀, rest₀⟩, read, hres⟩ := h
  obtain ⟨ht, rfl⟩ := Prod.mk.inj hres
  split_ifs at ht with none
  · subst ht
    have same : cs.dropWhile (· == '[') = cs := by
      simpa [none] using List.takeWhile_append_dropWhile (p := fun c => c == '[') (l := cs)
    rw [same] at read
    exact baseType_double read

/-- A field descriptor's type is what `nextType` reads from all of it. -/
theorem nextType_of_fieldType {s : String} {t : VType} (h : fieldType s = .ok t) :
    nextType s.toList = .ok (t, []) := by
  simp only [fieldType, Except.bind_eq_ok] at h
  obtain ⟨⟨t', rest⟩, read, done⟩ := h
  split at done
  · next empty =>
    obtain rfl : t' = t := by simpa using done
    have none : rest = [] := List.isEmpty_iff.mp empty
    rwa [none] at read
  · simp at done

/-! ## Reading one parameter from the bytes -/

/-- Brackets in the bytes are brackets in the characters. -/
theorem charBytes_brackets (cs : List Char) :
    (charBytes cs).takeWhile (· == 91) = charBytes (cs.takeWhile (· == '[')) ∧
      (charBytes cs).dropWhile (· == 91) = charBytes (cs.dropWhile (· == '[')) := by
  induction cs with
  | nil => simp
  | cons c cs ih =>
    by_cases h : c = '['
    · subst h
      have one : String.utf8EncodeChar '[' = [91] := rfl
      simp [one, ih]
    · obtain ⟨b, bs, eq, mem⟩ := charBytes_cons_eq c cs
      have hb : b ≠ 91 := by
        rintro rfl
        exact h (Char.toNat_inj.mp (mem_utf8EncodeChar_ascii (by decide) mem))
      have hc : (c == '[') = false := by simpa using h
      rw [eq, List.takeWhile_cons, List.dropWhile_cons, List.takeWhile_cons, List.dropWhile_cons]
      simp [hb, hc, ← eq]

/-- The first `;` of bytes is the one after all bytes without it. -/
theorem findIdx?_semicolon {a b : List UInt8} (h : semicolonByte ∉ a) :
    (a ++ semicolonByte :: b).findIdx? (· == semicolonByte) = some a.length := by
  have none : a.findIdx? (· == semicolonByte) = none :=
    List.findIdx?_eq_none_iff.mpr fun x hx => by
      simp only [beq_eq_false_iff_ne, ne_eq]
      rintro rfl
      exact h hx
  simp [List.findIdx?_append, none, List.findIdx?_cons]

/-- On the bytes of a type the verifier reads, the interpreter reads the same characters as one
parameter, and the verifier reads them alone as the same type. -/
theorem nextParam_charBytes {cs rest : List Char} {t : VType} (h : nextType cs = .ok (t, rest)) :
    ∃ pre, cs = pre ++ rest ∧ pre ≠ [] ∧
      nextParam (charBytes cs) = some (charBytes pre, charBytes rest) ∧
      nextType pre = .ok (t, []) := by
  rw [nextType_eq, Except.map_eq_ok] at h
  obtain ⟨⟨t₀, rest₀⟩, read, hres⟩ := h
  obtain ⟨body, hd, alone, shape⟩ := baseType_eq_ok read
  obtain ⟨ht, hrest⟩ := Prod.mk.inj hres
  rw [hrest] at hd
  have whole : cs = cs.takeWhile (· == '[') ++ body ++ rest := by
    rw [List.append_assoc, ← hd, List.takeWhile_append_dropWhile]
  have allBr : ∀ x ∈ cs.takeWhile (· == '['), (x == '[') = true := by
    intro x hx
    exact List.mem_takeWhile_imp (p := fun c => c == '[') hx
  have bytes := (charBytes_brackets cs).1
  generalize cs.takeWhile (· == '[') = br at whole ht allBr bytes
  subst whole
  have noBracket : body.takeWhile (· == '[') = [] ∧ body.dropWhile (· == '[') = body := by
    rcases shape with ⟨c, rfl, -, -, hc⟩ | ⟨name, rfl, -⟩
    · simp [hc]
    · simp
  refine ⟨br ++ body, rfl, ?_, ?_, ?_⟩
  · rcases shape with ⟨c, rfl, -⟩ | ⟨name, rfl, -⟩ <;> simp
  · unfold nextParam
    rw [bytes]
    simp only [charBytes_append, List.append_assoc, List.drop_left]
    rcases shape with ⟨c, rfl, ascii, notL, -⟩ | ⟨name, rfl, noSemi⟩
    · have size : c.utf8Size = 1 := by
        rw [Char.utf8Size_eq_one_iff, UInt32.le_iff_toNat_le]
        have : c.toNat = c.val.toNat := rfl
        have : (127 : UInt32).toNat = 127 := rfl
        omega
      have enc := String.utf8EncodeChar_eq_singleton size
      have not76 : c.val.toUInt8 ≠ 76 := by
        intro h
        have := mem_utf8EncodeChar_ascii (b := 76) (by decide)
          (by rw [enc, h]; exact List.mem_singleton_self _)
        exact notL (Char.toNat_inj.mp this)
      have one : charBytes [c] ++ charBytes rest = c.val.toUInt8 :: charBytes rest := by
        simp [enc]
      rw [one]
      split
      · next empty => exact absurd empty (List.cons_ne_nil _ _)
      · next tail h76 => exact absurd (List.cons.inj h76).1 not76
      · next b tail _ hb =>
        obtain ⟨rfl, rfl⟩ := List.cons.inj hb
        simp [enc]
    · have semi : String.utf8EncodeChar ';' = [semicolonByte] := rfl
      have noByte : semicolonByte ∉ charBytes name :=
        not_mem_charBytes (by decide) fun x hx same => noSemi (by
          rwa [show x = ';' from Char.toNat_inj.mp same] at hx)
      have ell : String.utf8EncodeChar 'L' = [76] := rfl
      simp only [charBytes_cons, charBytes_append, charBytes_nil, ell, semi, List.append_nil,
        List.cons_append, List.nil_append, List.append_assoc, findIdx?_semicolon noByte]
      simp [List.take_append]
  · rw [nextType_eq, List.takeWhile_append_of_pos allBr, noBracket.1, List.append_nil,
      List.dropWhile_append_of_pos allBr, noBracket.2, alone, ← ht, hrest]
    have whole : (br ++ body ++ rest).length - rest.length = (br ++ body).length := by
      simp only [List.length_append]
      omega
    rw [whole, List.take_left]
    simp only [Functor.map, Except.map, List.length_nil, Nat.sub_zero, List.take_length]

/-! ## Reading all parameters -/

/-- The bytes of a parameter of type `t`: the UTF-8 bytes of a field descriptor of that type. -/
def ParamBytes (p : List UInt8) (t : VType) : Prop :=
  ∃ s : String, s.toUTF8.toList = p ∧ fieldType s = .ok t

theorem paramBytes_of_nextType {pre : List Char} {t : VType} (h : nextType pre = .ok (t, [])) :
    ParamBytes (charBytes pre) t :=
  ⟨String.ofList pre, by rw [toUTF8_toList, String.toList_ofList],
    by simp [fieldType, String.toList_ofList, h]⟩

/-- Where the verifier reads argument types up to `)`, the interpreter reads their bytes as
parameters up to the same `)`, given one byte of fuel more than there are bytes. -/
theorem readParams_of_argumentTypes {fuel : Nat} {acc : List VType} {cs : List Char}
    {args : List VType} {ret : List Char} (h : argumentTypes fuel acc cs = .ok (args, ret))
    {n : Nat} (hn : (charBytes cs).length < n) {accB : List (List UInt8)}
    (hacc : List.Forall₂ ParamBytes accB acc) :
    ∃ params, readParams n (charBytes cs) accB = some (params, charBytes ret) ∧
      List.Forall₂ ParamBytes params args := by
  fun_induction argumentTypes fuel acc cs generalizing n accB with
  | case1 _ acc rest =>
    obtain ⟨rfl, rfl⟩ : acc.reverse = args ∧ rest = ret := by simpa using h
    obtain ⟨m, rfl⟩ : ∃ m, n = m + 1 := ⟨n - 1, by omega⟩
    have close : charBytes (')' :: rest) = 41 :: charBytes rest := rfl
    exact ⟨accB.reverse, by simp [readParams, close], List.forall₂_reverse_iff.mpr hacc⟩
  | case2 => simp at h
  | case3 fuel acc cs notClose ih =>
    rw [Except.bind_eq_ok] at h
    obtain ⟨⟨t, rest⟩, read, more⟩ := h
    obtain ⟨pre, rfl, ne, param, alone⟩ := nextParam_charBytes read
    obtain ⟨b, bs, first, mem⟩ := charBytes_cons_eq (pre.head ne) (pre.tail ++ rest)
    have whole : charBytes (pre ++ rest) = b :: bs := by
      rw [← first, ← List.cons_append, List.cons_head_tail]
    have notClose' : b ≠ 41 := by
      rintro rfl
      have : pre.head ne = ')' := Char.toNat_inj.mp (mem_utf8EncodeChar_ascii (by decide) mem)
      exact notClose (pre.tail ++ rest) (by rw [← this, ← List.cons_append, List.cons_head_tail])
    have longer : (charBytes rest).length < n - 1 := by
      have := List.length_pos_of_ne_nil (charBytes_ne_nil ne)
      simp only [charBytes_append, List.length_append] at hn
      omega
    obtain ⟨m, rfl⟩ : ∃ m, n = m + 1 := ⟨n - 1, by omega⟩
    obtain ⟨params, done, agree⟩ :=
      ih t rest more (n := m) longer (.cons (paramBytes_of_nextType alone) hacc)
    refine ⟨params, ?_, agree⟩
    rw [whole]
    simp only [readParams, notClose', beq_iff_eq, if_false]
    rw [← whole, param]
    exact done

/-- A parameter fills two local slots exactly when its type is a double, which takes two. -/
theorem paramWidth_of_paramBytes {p : List UInt8} {t : VType} (h : ParamBytes p t) :
    paramWidth p = t.size := by
  obtain ⟨s, rfl, read⟩ := h
  have alone := nextType_of_fieldType read
  rw [toUTF8_toList]
  by_cases double : t = .double
  · subst double
    rw [nextType_double alone]
    rfl
  · have one : t.size = 1 := by cases t <;> simp_all [VType.size]
    have notD : charBytes s.toList ≠ [68] := by
      intro hD
      obtain ⟨c, hc, code⟩ := charBytes_eq_singleton (by decide) hD
      obtain rfl : c = 'D' := Char.toNat_inj.mp code
      rw [hc] at alone
      exact double (by simpa [nextType, baseType] using alone.symm)
    have notJ : charBytes s.toList ≠ [74] := by
      intro hJ
      obtain ⟨c, hc, code⟩ := charBytes_eq_singleton (by decide) hJ
      obtain rfl : c = 'J' := Char.toNat_inj.mp code
      rw [hc] at alone
      simp [nextType, baseType] at alone
    simp [paramWidth, notD, notJ, one]

/-- Parameters read as the argument types fill the slots those types take. -/
theorem widths_of_paramBytes {params : List (List UInt8)} {args : List VType}
    (h : List.Forall₂ ParamBytes params args) : params.map paramWidth = args.map VType.size := by
  induction h with
  | nil => rfl
  | cons head _ ih => simp [paramWidth_of_paramBytes head, ih]

/-! ## The two readings agree -/

/-- What `methodType` reads: `(`, argument types up to `)`, and after it `V` for no result or
else the type of a field descriptor. -/
theorem methodType_eq_ok {desc : String} {args : List VType} {ret : Option VType}
    (h : methodType desc = .ok (args, ret)) :
    ∃ rest retChars, desc.toList = '(' :: rest ∧
      argumentTypes rest.length [] rest = .ok (args, retChars) ∧ (retChars = ['V'] ↔ ret = none) := by
  unfold methodType at h
  split at h
  · next rest opened =>
    split at h
    · simp at h
    · next argsRead retChars read =>
      refine ⟨rest, retChars, opened, ?_⟩
      split_ifs at h with hV
      · obtain ⟨rfl, rfl⟩ := Prod.mk.inj (Except.ok.inj h)
        exact ⟨read, by simpa using hV⟩
      · split at h
        · obtain ⟨rfl, rfl⟩ := Prod.mk.inj (Except.ok.inj h)
          exact ⟨read, by simpa using hV⟩
        · simp at h
  · simp at h

/-- The only characters whose bytes are `V` alone. -/
theorem charBytes_eq_V {cs : List Char} : charBytes cs = [86] ↔ cs = ['V'] := by
  constructor
  · intro hV
    obtain ⟨c, rfl, code⟩ := charBytes_eq_singleton (by decide) hV
    obtain rfl : c = 'V' := Char.toNat_inj.mp code
    rfl
  · rintro rfl
    rfl

/-- On every method descriptor the verifier reads, the interpreter's split succeeds: one
parameter per argument type, in order, each the bytes of a field descriptor of that type, and
a return type that is `V` (the byte 86) exactly when the verifier finds no result.  So a call
pops one value per argument type, each filling the local slots of its type, and pushes a value
exactly when the verifier's frame gets one. -/
theorem splitDescriptor_of_methodType {desc : String} {args : List VType} {ret : Option VType}
    (h : methodType desc = .ok (args, ret)) :
    ∃ params retBytes, splitDescriptor desc = some (params, retBytes) ∧
      List.Forall₂ ParamBytes params args ∧ (retBytes = [86] ↔ ret = none) ∧
      CallShape.ofDescriptor desc = some ⟨args.map VType.size, ret.isSome⟩ := by
  obtain ⟨rest, retChars, opened, read, void⟩ := methodType_eq_ok h
  -- one byte of fuel per byte after `(`, and one for the `)`
  obtain ⟨params, split, agree⟩ :=
    readParams_of_argumentTypes read (n := (charBytes rest).length + 1) (by omega) .nil
  have hsplit : splitDescriptor desc = some (params, charBytes retChars) := by
    have bytes : desc.toUTF8.toList = 40 :: charBytes rest := by
      rw [toUTF8_toList, opened]
      rfl
    rw [splitDescriptor, bytes]
    exact split
  have voidBytes : charBytes retChars = [86] ↔ ret = none := charBytes_eq_V.trans void
  have result : (charBytes retChars != [86]) = ret.isSome := by
    cases ret with
    | none => simp [voidBytes.mpr rfl]
    | some t => simp [show charBytes retChars ≠ [86] from fun hV => by simpa using voidBytes.mp hV]
  refine ⟨params, charBytes retChars, hsplit, agree, voidBytes, ?_⟩
  simp only [CallShape.ofDescriptor, hsplit, Option.map_some, widths_of_paramBytes agree, result]

/-- The descriptor of a method taking a boolean, a two-dimensional array of texts and a double
and returning an int. -/
theorem splitDescriptor_of_methodType_mixed :
    methodType "(Z[[Ljava/lang/String;D)I" =
        .ok ([.int, .object "[[Ljava/lang/String;", .double], some .int) ∧
      ∃ params retBytes, splitDescriptor "(Z[[Ljava/lang/String;D)I" = some (params, retBytes) ∧
        List.Forall₂ ParamBytes params [.int, .object "[[Ljava/lang/String;", .double] ∧
        (retBytes = [86] ↔ some VType.int = none) ∧
        CallShape.ofDescriptor "(Z[[Ljava/lang/String;D)I" =
          some ⟨[VType.int, .object "[[Ljava/lang/String;", .double].map VType.size,
            (some VType.int).isSome⟩ :=
  have h : methodType "(Z[[Ljava/lang/String;D)I" =
      .ok ([.int, .object "[[Ljava/lang/String;", .double], some .int) := by decide
  ⟨h, splitDescriptor_of_methodType h⟩

end BasicJvm.Vm
