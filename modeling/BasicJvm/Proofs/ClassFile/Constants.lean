import BasicJvm.Proofs.ClassFile.RoundTrip

/-!
# Growing a constant pool

Compiling a program only ever adds constants to the template's pool: `Pool.add` appends a
constant or finds an equal one, and every entry already there stays at its index
(`Pool.Extends`).  This module says what an index handed out by the adding functions
points at in any pool that grew from the one it was handed out of, as long as that pool
keeps within the 16-bit count (indexes are handed out modulo `2 ^ 16`):

* `Pool.add_get`: the entry is the constant added;
* `Pool.addClass_className`, `Pool.addString_get`, `Pool.addFieldref_memberRef`,
  `Pool.addMethodref_memberRef`: the Class, String and reference constants resolve to the
  names they were added with.

Adding keeps the pool laid out as a class file lays it out (`Pool.WellLaid`), since every
index stored in an added constant came from an earlier add and fits sixteen bits.  Both
facts together are `Pool.Grows`, which every adding function gives.
-/

namespace BasicJvm.ClassFile

/-! ## Reading entries -/

theorem Pool.get_eq_ok {p : Pool} {i : Nat} {c : Constant} :
    p.get i = .ok c ↔ p.entries[i]? = some c ∧ c ≠ .unusable := by
  unfold Pool.get
  cases h : p.entries[i]? with
  | none => simp
  | some c' =>
    -- the unusable slot answers an error; any other entry is answered as it is
    cases c' <;> simp <;> rintro rfl <;> simp

@[simp] theorem Pool.utf8_eq_ok {p : Pool} {i : Nat} {s : String} :
    p.utf8 i = .ok s ↔ p.get i = .ok (.utf8 s) := by
  unfold Pool.utf8
  cases h : p.get i with
  | error e => simp
  | ok c => cases c <;> simp

theorem Pool.className_eq_ok {p : Pool} {i : Nat} {name : String} :
    p.className i = .ok name ↔ ∃ k, p.get i = .ok (.classRef k) ∧ p.get k = .ok (.utf8 name) := by
  unfold Pool.className
  cases h : p.get i with
  | error e => simp
  | ok c => cases c <;> simp

theorem Pool.className_of_get {p : Pool} {i k : Nat} {name : String}
    (hclass : p.get i = .ok (.classRef k)) (hname : p.get k = .ok (.utf8 name)) :
    p.className i = .ok name :=
  Pool.className_eq_ok.mpr ⟨k, hclass, hname⟩

/-- A member reference resolves through its Class and NameAndType entries. -/
theorem Pool.memberRef_of_get {p : Pool} {i owner nameType ni di : Nat}
    {ownerName name desc : String}
    (href : p.get i = .ok (.fieldRef owner nameType) ∨ p.get i = .ok (.methodRef owner nameType))
    (howner : p.className owner = .ok ownerName)
    (hnt : p.get nameType = .ok (.nameAndType ni di))
    (hname : p.get ni = .ok (.utf8 name)) (hdesc : p.get di = .ok (.utf8 desc)) :
    p.memberRef i = .ok (ownerName, name, desc) := by
  rcases href with href | href <;>
    simp [Pool.memberRef, href, howner, hnt, Pool.utf8, hname, hdesc]

/-! ## Growth -/

/-- `p'` has every entry of `p` at its index, and maybe more after them. -/
def Pool.Extends (p p' : Pool) : Prop := p.entries.toList <+: p'.entries.toList

namespace Pool.Extends

variable {p p' p'' : Pool}

theorem refl (p : Pool) : p.Extends p := List.prefix_refl _

theorem trans (h₁ : p.Extends p') (h₂ : p'.Extends p'') : p.Extends p'' :=
  List.IsPrefix.trans h₁ h₂

theorem count_le (h : p.Extends p') : p.count ≤ p'.count := by
  have := h.length_le
  simpa [Pool.count] using this

theorem get {i : Nat} {c : Constant} (h : p.Extends p') (hget : p.get i = .ok c) :
    p'.get i = .ok c := by
  rw [Pool.get_eq_ok] at hget ⊢
  obtain ⟨found, usable⟩ := hget
  obtain ⟨rest, hrest⟩ := h
  have inside : i < p.entries.toList.length := by
    have := Array.getElem?_toList ▸ found
    simpa using (List.getElem?_eq_some_iff.mp this).1
  refine ⟨?_, usable⟩
  rw [← Array.getElem?_toList, ← hrest, List.getElem?_append_left inside, Array.getElem?_toList]
  exact found

theorem className {i : Nat} {name : String} (h : p.Extends p') (hclass : p.className i = .ok name) :
    p'.className i = .ok name := by
  obtain ⟨k, hk, hname⟩ := Pool.className_eq_ok.mp hclass
  exact Pool.className_of_get (h.get hk) (h.get hname)

end Pool.Extends

theorem Pool.push_extends (p : Pool) (c : Constant) : p.Extends (p.push c) := by
  unfold Pool.Extends
  rw [Pool.push_entries]
  exact List.prefix_append _ _

/-! ## Adding -/

theorem Pool.add_extends (p : Pool) (c : Constant) : p.Extends (p.add c).1 := by
  unfold Pool.add
  split
  · exact .refl p
  · exact Pool.push_extends p c

theorem Pool.add_index_lt (p : Pool) (c : Constant) : (p.add c).2 < 2 ^ 16 := by
  unfold Pool.add
  split <;> exact Nat.mod_lt _ (by decide)

/-- Every index handed out fits two bytes, being the index of the last constant added. -/
theorem Pool.addClass_index_lt (p : Pool) (name : String) : (p.addClass name).2 < 2 ^ 16 := by
  unfold Pool.addClass
  exact Pool.add_index_lt _ _

theorem Pool.addString_index_lt (p : Pool) (s : String) : (p.addString s).2 < 2 ^ 16 := by
  unfold Pool.addString
  exact Pool.add_index_lt _ _

theorem Pool.addFieldref_index_lt (p : Pool) (owner name desc : String) :
    (p.addFieldref owner name desc).2 < 2 ^ 16 := by
  unfold Pool.addFieldref
  exact Pool.add_index_lt _ _

theorem Pool.addMethodref_index_lt (p : Pool) (owner name desc : String) :
    (p.addMethodref owner name desc).2 < 2 ^ 16 := by
  unfold Pool.addMethodref
  exact Pool.add_index_lt _ _

/-- The index handed out for a constant points at it in every pool grown from the result,
within the 16-bit count. -/
theorem Pool.add_get {p P : Pool} {c : Constant} (usable : c ≠ .unusable)
    (ext : (p.add c).1.Extends P) (small : P.count ≤ 2 ^ 16) : P.get (p.add c).2 = .ok c := by
  have bound := ((p.add_extends c).trans ext).count_le
  simp only [Pool.count] at bound small
  cases found : p.entries.findIdx? (· == c) with
  | some i =>
    simp only [Pool.add, found] at ext ⊢
    obtain ⟨inside, same, _⟩ := Array.findIdx?_eq_some_iff_getElem.mp found
    rw [Nat.mod_eq_of_lt (by omega)]
    apply ext.get
    rw [Pool.get_eq_ok]
    exact ⟨by simp [inside, beq_iff_eq.mp same], usable⟩
  | none =>
    simp only [Pool.add, found] at ext ⊢
    -- the pool grew by the new entry, so its index is below the count
    have grown : p.entries.size + 1 ≤ P.entries.size := by
      have := ext.count_le
      simp only [Pool.count, Pool.push] at this
      split at this <;> simp at this <;> omega
    rw [Nat.mod_eq_of_lt (by omega)]
    apply ext.get
    rw [Pool.get_eq_ok]
    refine ⟨?_, usable⟩
    unfold Pool.push
    split
    · rw [Array.getElem?_push, if_neg (by simp), Array.getElem?_push_size]
    · rw [Array.getElem?_push_size]

/-- A constant new to the pool is appended, at the index of the count. -/
theorem Pool.add_fresh {p : Pool} {c : Constant} (fresh : c ∉ p.entries.toList) :
    p.add c = (p.push c, p.count % 65536) := by
  have none : p.entries.findIdx? (· == c) = none := by
    rw [Array.findIdx?_eq_none_iff]
    intro x hx
    simp only [beq_eq_false_iff_ne]
    rintro rfl
    exact fresh (Array.mem_toList_iff.mpr hx)
  simp only [Pool.add, none, Pool.count]

/-- Adding a constant of one slot adds at most one entry. -/
theorem Pool.add_count_le {p : Pool} {c : Constant} (narrow : c.isWide = false) :
    (p.add c).1.count ≤ p.count + 1 := by
  unfold Pool.add
  split
  · simp
  · simp [Pool.push, narrow, Pool.count]

/-- An entry past the old pool, after adding a constant, is that constant. -/
theorem Pool.get_add_of_le {p : Pool} {c c' : Constant} {i : Nat}
    (h : (p.add c).1.get i = .ok c') (past : p.count ≤ i) : c' = c := by
  rw [Pool.get_eq_ok] at h
  obtain ⟨found, usable⟩ := h
  unfold Pool.add at found
  split at found
  · simp [Pool.count] at past
    simp [Array.getElem?_eq_none past] at found
  · unfold Pool.push at found
    simp only [Pool.count] at past
    split at found
    · -- a wide constant takes two slots, the second of them unusable
      simp only [Array.getElem?_push, Array.size_push] at found
      split_ifs at found
      · exact absurd (Option.some.inj found).symm usable
      · exact (Option.some.inj found).symm
      · simp [Array.getElem?_eq_none past] at found
    · simp only [Array.getElem?_push] at found
      split_ifs at found
      · exact (Option.some.inj found).symm
      · simp [Array.getElem?_eq_none past] at found

/-! ## The adding functions -/

section Adding

variable {p P : Pool}

theorem Pool.addUtf8_extends (p : Pool) (s : String) : p.Extends (p.addUtf8 s).1 :=
  p.add_extends _

theorem Pool.addClass_extends (p : Pool) (name : String) : p.Extends (p.addClass name).1 := by
  rcases h : p.addUtf8 name with ⟨p₁, n⟩
  have first : p.Extends p₁ := by
    have := p.add_extends (.utf8 name)
    rwa [show p.add (.utf8 name) = (p₁, n) from h] at this
  simp only [Pool.addClass, h]
  exact first.trans (p₁.add_extends _)

theorem Pool.addUtf8_get {s : String} (ext : (p.addUtf8 s).1.Extends P)
    (small : P.count ≤ 2 ^ 16) : P.get (p.addUtf8 s).2 = .ok (.utf8 s) :=
  Pool.add_get (by simp) ext small

theorem Pool.addClass_className {name : String} (ext : (p.addClass name).1.Extends P)
    (small : P.count ≤ 2 ^ 16) : P.className (p.addClass name).2 = .ok name := by
  rcases h : p.addUtf8 name with ⟨p₁, n⟩
  have added : p.add (.utf8 name) = (p₁, n) := h
  simp only [Pool.addClass, h] at ext ⊢
  refine Pool.className_of_get (Pool.add_get (by simp) ext small) ?_
  have text := Pool.add_get (p := p) (c := .utf8 name) (by simp)
    (by rw [added]; exact (p₁.add_extends _).trans ext) small
  rwa [added] at text

/-- A class whose name and Class entry are new to the pool takes the next two indexes. -/
theorem Pool.addClass_fresh {name : String} (textFresh : .utf8 name ∉ p.entries.toList)
    (classFresh : ∀ n, .classRef n ∉ p.entries.toList) :
    p.addClass name =
      ((p.push (.utf8 name)).push (.classRef (p.count % 65536)), (p.count + 1) % 65536) := by
  have pushed : (p.push (.utf8 name)).entries.toList = p.entries.toList ++ [.utf8 name] := by
    simp [Pool.push_entries, Constant.slots, Constant.isWide]
  rw [Pool.addClass, Pool.addUtf8, Pool.add_fresh textFresh]
  show (p.push (.utf8 name)).add (.classRef (p.count % 65536)) = _
  rw [Pool.add_fresh (by rw [pushed]; simpa using classFresh _), Pool.count, Pool.count,
    ← Array.length_toList, ← Array.length_toList, pushed, List.length_append,
    List.length_singleton]

theorem Pool.addString_extends (p : Pool) (s : String) : p.Extends (p.addString s).1 := by
  rcases h : p.addUtf8 s with ⟨p₁, n⟩
  have first : p.Extends p₁ := by
    have := p.add_extends (.utf8 s)
    rwa [show p.add (.utf8 s) = (p₁, n) from h] at this
  simp only [Pool.addString, h]
  exact first.trans (p₁.add_extends _)

theorem Pool.addString_get {s : String} (ext : (p.addString s).1.Extends P)
    (small : P.count ≤ 2 ^ 16) :
    ∃ k, P.get (p.addString s).2 = .ok (.string k) ∧ P.get k = .ok (.utf8 s) := by
  rcases h : p.addUtf8 s with ⟨p₁, n⟩
  have added : p.add (.utf8 s) = (p₁, n) := h
  simp only [Pool.addString, h] at ext ⊢
  refine ⟨n, Pool.add_get (by simp) ext small, ?_⟩
  have text := Pool.add_get (p := p) (c := .utf8 s) (by simp)
    (by rw [added]; exact (p₁.add_extends _).trans ext) small
  rwa [added] at text

theorem Pool.addNameAndType_extends (p : Pool) (name desc : String) :
    p.Extends (p.addNameAndType name desc).1 := by
  rcases h₁ : p.addUtf8 name with ⟨p₁, n⟩
  rcases h₂ : p₁.addUtf8 desc with ⟨p₂, d⟩
  have first : p.Extends p₁ := by
    have := p.add_extends (.utf8 name)
    rwa [show p.add (.utf8 name) = (p₁, n) from h₁] at this
  have second : p₁.Extends p₂ := by
    have := p₁.add_extends (.utf8 desc)
    rwa [show p₁.add (.utf8 desc) = (p₂, d) from h₂] at this
  simp only [Pool.addNameAndType, h₁, h₂]
  exact first.trans (second.trans (p₂.add_extends _))

/-- A field or method reference grows the pool by its class, its name and type, and itself. -/
theorem Pool.addRef_extends {owner name desc : String} {mk : Nat → Nat → Constant}
    {p₁ p₂ : Pool} {o nt : Nat} (h₁ : p.addClass owner = (p₁, o))
    (h₂ : p₁.addNameAndType name desc = (p₂, nt)) : p.Extends (p₂.add (mk o nt)).1 := by
  have first : p.Extends p₁ := by
    have := p.addClass_extends owner
    rwa [h₁] at this
  have second : p₁.Extends p₂ := by
    have := p₁.addNameAndType_extends name desc
    rwa [h₂] at this
  exact first.trans (second.trans (p₂.add_extends _))

theorem Pool.addMethodref_extends (p : Pool) (owner name desc : String) :
    p.Extends (p.addMethodref owner name desc).1 := by
  rcases h₁ : p.addClass owner with ⟨p₁, o⟩
  rcases h₂ : p₁.addNameAndType name desc with ⟨p₂, nt⟩
  simp only [Pool.addMethodref, h₁, h₂]
  exact Pool.addRef_extends h₁ h₂

theorem Pool.addFieldref_extends (p : Pool) (owner name desc : String) :
    p.Extends (p.addFieldref owner name desc).1 := by
  rcases h₁ : p.addClass owner with ⟨p₁, o⟩
  rcases h₂ : p₁.addNameAndType name desc with ⟨p₂, nt⟩
  simp only [Pool.addFieldref, h₁, h₂]
  exact Pool.addRef_extends h₁ h₂

theorem Pool.addNameAndType_get {name desc : String}
    (ext : (p.addNameAndType name desc).1.Extends P) (small : P.count ≤ 2 ^ 16) :
    ∃ ni di, P.get (p.addNameAndType name desc).2 = .ok (.nameAndType ni di) ∧
      P.get ni = .ok (.utf8 name) ∧ P.get di = .ok (.utf8 desc) := by
  rcases h₁ : p.addUtf8 name with ⟨p₁, n⟩
  rcases h₂ : p₁.addUtf8 desc with ⟨p₂, d⟩
  have added₁ : p.add (.utf8 name) = (p₁, n) := h₁
  have added₂ : p₁.add (.utf8 desc) = (p₂, d) := h₂
  simp only [Pool.addNameAndType, h₁, h₂] at ext ⊢
  have ext₂ : p₂.Extends P := (p₂.add_extends _).trans ext
  refine ⟨n, d, Pool.add_get (by simp) ext small, ?_, ?_⟩
  · have text := Pool.add_get (p := p) (c := .utf8 name) (by simp) (by
      rw [added₁]
      have := p₁.add_extends (.utf8 desc)
      rw [added₂] at this
      exact this.trans ext₂) small
    rwa [added₁] at text
  · have text := Pool.add_get (p := p₁) (c := .utf8 desc) (by simp) (by rw [added₂]; exact ext₂) small
    rwa [added₂] at text

/-- A field or method reference added with its class and its name and type. -/
theorem Pool.addRef_memberRef {owner name desc : String} {mk : Nat → Nat → Constant}
    (method : ∀ o nt, mk o nt = .fieldRef o nt ∨ mk o nt = .methodRef o nt)
    {p₁ p₂ : Pool} {o nt : Nat} (h₁ : p.addClass owner = (p₁, o))
    (h₂ : p₁.addNameAndType name desc = (p₂, nt)) (ext : (p₂.add (mk o nt)).1.Extends P)
    (small : P.count ≤ 2 ^ 16) : P.memberRef (p₂.add (mk o nt)).2 = .ok (owner, name, desc) := by
  have usable : mk o nt ≠ .unusable := by
    rcases method o nt with h | h <;> simp [h]
  have ext₂ : p₂.Extends P := (p₂.add_extends _).trans ext
  have ext₁ : p₁.Extends P := by
    have := p₁.addNameAndType_extends name desc
    rw [h₂] at this
    exact this.trans ext₂
  have hclass : P.className (p.addClass owner).2 = .ok owner :=
    Pool.addClass_className (by rw [h₁]; exact ext₁) small
  have hnt : ∃ ni di, P.get (p₁.addNameAndType name desc).2 = .ok (.nameAndType ni di) ∧
      P.get ni = .ok (.utf8 name) ∧ P.get di = .ok (.utf8 desc) :=
    Pool.addNameAndType_get (by rw [h₂]; exact ext₂) small
  rw [h₁] at hclass
  rw [h₂] at hnt
  obtain ⟨ni, di, hnt, hname, hdesc⟩ := hnt
  have href := Pool.add_get usable ext small
  rcases method o nt with hmk | hmk <;> rw [hmk] at href ⊢
  · exact Pool.memberRef_of_get (.inl href) hclass hnt hname hdesc
  · exact Pool.memberRef_of_get (.inr href) hclass hnt hname hdesc

theorem Pool.addMethodref_memberRef {owner name desc : String}
    (ext : (p.addMethodref owner name desc).1.Extends P) (small : P.count ≤ 2 ^ 16) :
    P.memberRef (p.addMethodref owner name desc).2 = .ok (owner, name, desc) := by
  rcases h₁ : p.addClass owner with ⟨p₁, o⟩
  rcases h₂ : p₁.addNameAndType name desc with ⟨p₂, nt⟩
  simp only [Pool.addMethodref, h₁, h₂] at ext ⊢
  exact Pool.addRef_memberRef (fun _ _ => .inr rfl) h₁ h₂ ext small

theorem Pool.addFieldref_memberRef {owner name desc : String}
    (ext : (p.addFieldref owner name desc).1.Extends P) (small : P.count ≤ 2 ^ 16) :
    P.memberRef (p.addFieldref owner name desc).2 = .ok (owner, name, desc) := by
  rcases h₁ : p.addClass owner with ⟨p₁, o⟩
  rcases h₂ : p₁.addNameAndType name desc with ⟨p₂, nt⟩
  simp only [Pool.addFieldref, h₁, h₂] at ext ⊢
  exact Pool.addRef_memberRef (fun _ _ => .inl rfl) h₁ h₂ ext small

end Adding

/-! ## Keeping the layout -/

/-- The pool is laid out as a class file lays it out, with some constants. -/
def Pool.WellLaid (p : Pool) : Prop := ∃ cs, p.Layout cs

namespace Pool.WellLaid

variable {p : Pool}

theorem empty : Pool.empty.WellLaid := ⟨[], by simp [Pool.empty], by simp⟩

theorem push {c : Constant} (h : p.WellLaid) (fits : c.Fits) : (p.push c).WellLaid := by
  obtain ⟨cs, hentries, hfits⟩ := h
  refine ⟨cs ++ [c], ?_, ?_⟩
  · rw [Pool.push_entries, hentries]
    simp [List.flatMap_append]
  · intro c' hc'
    rcases List.mem_append.mp hc' with old | new
    · exact hfits c' old
    · rw [List.mem_singleton.mp new]
      exact fits

theorem add {c : Constant} (h : p.WellLaid) (fits : c.Fits) : (p.add c).1.WellLaid := by
  unfold Pool.add
  split
  · exact h
  · exact h.push fits

theorem addUtf8 (h : p.WellLaid) (s : String) : (p.addUtf8 s).1.WellLaid := h.add trivial

theorem addInteger (h : p.WellLaid) (bits : UInt32) : (p.addInteger bits).1.WellLaid :=
  h.add trivial

theorem addFloat (h : p.WellLaid) (bits : UInt32) : (p.addFloat bits).1.WellLaid := h.add trivial

theorem addClass (h : p.WellLaid) (name : String) : (p.addClass name).1.WellLaid :=
  (h.addUtf8 name).add (Pool.add_index_lt _ _)

theorem addString (h : p.WellLaid) (s : String) : (p.addString s).1.WellLaid :=
  (h.addUtf8 s).add (Pool.add_index_lt _ _)

theorem addNameAndType (h : p.WellLaid) (name desc : String) :
    (p.addNameAndType name desc).1.WellLaid :=
  ((h.addUtf8 name).addUtf8 desc).add ⟨Pool.add_index_lt _ _, Pool.add_index_lt _ _⟩

theorem addFieldref (h : p.WellLaid) (owner name desc : String) :
    (p.addFieldref owner name desc).1.WellLaid :=
  ((h.addClass owner).addNameAndType name desc).add
    ⟨Pool.add_index_lt _ _, Pool.add_index_lt _ _⟩

theorem addMethodref (h : p.WellLaid) (owner name desc : String) :
    (p.addMethodref owner name desc).1.WellLaid :=
  ((h.addClass owner).addNameAndType name desc).add
    ⟨Pool.add_index_lt _ _, Pool.add_index_lt _ _⟩

end Pool.WellLaid

/-! ## Growing -/

/-- A pool that only grew, and stayed laid out as a class file lays it out if it was. -/
structure Pool.Grows (p p' : Pool) : Prop where
  grown : p.Extends p'
  laid : p.WellLaid → p'.WellLaid

namespace Pool.Grows

variable {p p' p'' : Pool}

theorem refl (p : Pool) : p.Grows p := ⟨.refl p, id⟩

theorem trans (h₁ : p.Grows p') (h₂ : p'.Grows p'') : p.Grows p'' :=
  ⟨h₁.grown.trans h₂.grown, fun h => h₂.laid (h₁.laid h)⟩

end Pool.Grows

section Grows

variable (p : Pool)

theorem Pool.addUtf8_grows (s : String) : p.Grows (p.addUtf8 s).1 :=
  ⟨p.addUtf8_extends s, fun h => h.addUtf8 s⟩

theorem Pool.addInteger_grows (bits : UInt32) : p.Grows (p.addInteger bits).1 :=
  ⟨p.add_extends _, fun h => h.addInteger bits⟩

theorem Pool.addFloat_grows (bits : UInt32) : p.Grows (p.addFloat bits).1 :=
  ⟨p.add_extends _, fun h => h.addFloat bits⟩

theorem Pool.addClass_grows (name : String) : p.Grows (p.addClass name).1 :=
  ⟨p.addClass_extends name, fun h => h.addClass name⟩

theorem Pool.addString_grows (s : String) : p.Grows (p.addString s).1 :=
  ⟨p.addString_extends s, fun h => h.addString s⟩

theorem Pool.addFieldref_grows (owner name desc : String) :
    p.Grows (p.addFieldref owner name desc).1 :=
  ⟨p.addFieldref_extends owner name desc, fun h => h.addFieldref owner name desc⟩

theorem Pool.addMethodref_grows (owner name desc : String) :
    p.Grows (p.addMethodref owner name desc).1 :=
  ⟨p.addMethodref_extends owner name desc, fun h => h.addMethodref owner name desc⟩

end Grows

end BasicJvm.ClassFile
