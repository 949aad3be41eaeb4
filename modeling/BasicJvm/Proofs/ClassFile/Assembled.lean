import BasicJvm.Proofs.ClassFile.Canonical

/-!
# Assembled class files read back as themselves

A program builds the pool of a class file from the empty pool with the adding functions
(`Pool.Assembled`).  Such a pool is laid out as a class file lays it out, and while it keeps
within its 16-bit count every Class entry in it points at a Utf8 entry, since the adding
functions put a class's name in before the Class entry (`Pool.Assembled.namesIn`).  So a class
file with an assembled pool, sixteen-bit numbers and counts, and a Class entry at its own index
is read back from its bytes as itself (`parseClass_assembled`).  The payload of a Code attribute
with 1 to 65535 bytes of code is always written, and read back as itself
(`parseCode_written`).

With `parseClass_canonical_bytes` these make the round trip of class files
(`classBytes_roundTrip`).  Bytes that are not canonical are the exception: a raw zero byte in a
text is read, and written back as the two bytes of modified UTF-8.
-/

namespace BasicJvm.ClassFile

/-! ## Assembled pools -/

/-- The pools a program builds: the empty pool, grown by the adding functions. -/
inductive Pool.Assembled : Pool → Prop
  | empty : Pool.empty.Assembled
  | addUtf8 {p : Pool} (s : String) : p.Assembled → (p.addUtf8 s).1.Assembled
  | addInteger {p : Pool} (bits : UInt32) : p.Assembled → (p.addInteger bits).1.Assembled
  | addFloat {p : Pool} (bits : UInt32) : p.Assembled → (p.addFloat bits).1.Assembled
  | addClass {p : Pool} (name : String) : p.Assembled → (p.addClass name).1.Assembled
  | addString {p : Pool} (s : String) : p.Assembled → (p.addString s).1.Assembled
  | addNameAndType {p : Pool} (name desc : String) : p.Assembled →
      (p.addNameAndType name desc).1.Assembled
  | addFieldref {p : Pool} (owner name desc : String) : p.Assembled →
      (p.addFieldref owner name desc).1.Assembled
  | addMethodref {p : Pool} (owner name desc : String) : p.Assembled →
      (p.addMethodref owner name desc).1.Assembled

theorem Pool.Assembled.wellLaid {p : Pool} (h : p.Assembled) : p.WellLaid := by
  induction h with
  | empty => exact .empty
  | addUtf8 s _ ih => exact ih.addUtf8 s
  | addInteger bits _ ih => exact ih.addInteger bits
  | addFloat bits _ ih => exact ih.addFloat bits
  | addClass name _ ih => exact ih.addClass name
  | addString s _ ih => exact ih.addString s
  | addNameAndType name desc _ ih => exact ih.addNameAndType name desc
  | addFieldref owner name desc _ ih => exact ih.addFieldref owner name desc
  | addMethodref owner name desc _ ih => exact ih.addMethodref owner name desc

/-! ## Class entries name texts -/

/-- An entry of the pool after adding a constant was there before, or is the constant. -/
theorem Pool.get_add {p : Pool} {c k : Constant} {i : Nat} (h : (p.add c).1.get i = .ok k) :
    p.get i = .ok k ∨ k = c := by
  unfold Pool.add at h
  split at h
  · exact .inl h
  rw [Pool.get_eq_ok, ← Array.getElem?_toList, Pool.push_entries, List.getElem?_append] at h
  obtain ⟨found, usable⟩ := h
  split at found
  · exact .inl (Pool.get_eq_ok.mpr ⟨by rwa [← Array.getElem?_toList], usable⟩)
  -- past the old entries lie the slots of the constant: itself, and its unusable half
  have slot : k ∈ c.slots := List.mem_of_getElem? found
  unfold Constant.slots at slot
  split at slot
  · simp only [List.mem_cons, List.not_mem_nil, or_false] at slot
    exact .inr (slot.resolve_right usable)
  · exact .inr (List.mem_singleton.mp slot)

/-- Every Class entry of `p` points at a Utf8 entry of `P`, a pool it grows into. -/
def Pool.NamesIn (p P : Pool) : Prop :=
  ∀ i n, p.get i = .ok (.classRef n) → ∃ s, P.get n = .ok (.utf8 s)

namespace Pool.NamesIn

variable {p P : Pool}

/-- Adding a constant keeps the Class entries named, when the constant, if it is a Class
entry, is named too. -/
theorem add {c : Constant} (h : p.NamesIn P)
    (named : ∀ n, c = .classRef n → ∃ s, P.get n = .ok (.utf8 s)) :
    (p.add c).1.NamesIn P := by
  intro i n found
  rcases Pool.get_add found with old | rfl
  · exact h i n old
  · exact named n rfl

theorem addUtf8 (h : p.NamesIn P) (s : String) : (p.addUtf8 s).1.NamesIn P :=
  h.add fun _ other => by cases other

theorem addInteger (h : p.NamesIn P) (bits : UInt32) : (p.addInteger bits).1.NamesIn P :=
  h.add fun _ other => by cases other

theorem addFloat (h : p.NamesIn P) (bits : UInt32) : (p.addFloat bits).1.NamesIn P :=
  h.add fun _ other => by cases other

theorem addString (h : p.NamesIn P) (s : String) : (p.addString s).1.NamesIn P :=
  (h.addUtf8 s).add fun _ other => by cases other

theorem addNameAndType (h : p.NamesIn P) (name desc : String) :
    (p.addNameAndType name desc).1.NamesIn P :=
  ((h.addUtf8 name).addUtf8 desc).add fun _ other => by cases other

/-- The Class entry a class adds points at the name added just before it, which stays where
it is in every pool grown from the result within the 16-bit count. -/
theorem addClass (h : p.NamesIn P) (name : String) (ext : (p.addClass name).1.Extends P)
    (small : P.count ≤ 2 ^ 16) : (p.addClass name).1.NamesIn P :=
  (h.addUtf8 name).add fun _ entry => by
    cases entry
    exact ⟨name, Pool.addUtf8_get ((Pool.add_extends _ _).trans ext) small⟩

theorem addFieldref (h : p.NamesIn P) (owner name desc : String)
    (ext : (p.addFieldref owner name desc).1.Extends P) (small : P.count ≤ 2 ^ 16) :
    (p.addFieldref owner name desc).1.NamesIn P :=
  have owned : (p.addClass owner).1.Extends P :=
    ((Pool.addNameAndType_extends _ name desc).trans (Pool.add_extends _ _)).trans ext
  ((h.addClass owner owned small).addNameAndType name desc).add fun _ other => by cases other

theorem addMethodref (h : p.NamesIn P) (owner name desc : String)
    (ext : (p.addMethodref owner name desc).1.Extends P) (small : P.count ≤ 2 ^ 16) :
    (p.addMethodref owner name desc).1.NamesIn P :=
  have owned : (p.addClass owner).1.Extends P :=
    ((Pool.addNameAndType_extends _ name desc).trans (Pool.add_extends _ _)).trans ext
  ((h.addClass owner owned small).addNameAndType name desc).add fun _ other => by cases other

end Pool.NamesIn

/-- Every Class entry of an assembled pool points at a Utf8 entry of each pool it grows into
within the 16-bit count.  Past that count the indexes handed out wrap around, and a Class
entry may point anywhere. -/
theorem Pool.Assembled.namesIn {p P : Pool} (h : p.Assembled) (ext : p.Extends P)
    (small : P.count ≤ 2 ^ 16) : p.NamesIn P := by
  -- the induction runs over the adding functions, each step keeping its pool inside `P`
  induction h with
  | empty =>
    intro i n found
    rw [Pool.get_eq_ok] at found
    cases i <;> simp [Pool.empty] at found
  | addUtf8 s _ ih => exact (ih ((Pool.addUtf8_extends _ s).trans ext)).addUtf8 s
  | addInteger bits _ ih => exact (ih ((Pool.add_extends _ _).trans ext)).addInteger bits
  | addFloat bits _ ih => exact (ih ((Pool.add_extends _ _).trans ext)).addFloat bits
  | addClass name _ ih =>
    exact (ih ((Pool.addClass_extends _ name).trans ext)).addClass name ext small
  | addString s _ ih => exact (ih ((Pool.addString_extends _ s).trans ext)).addString s
  | addNameAndType name desc _ ih =>
    exact (ih ((Pool.addNameAndType_extends _ name desc).trans ext)).addNameAndType name desc
  | addFieldref owner name desc _ ih =>
    exact (ih ((Pool.addFieldref_extends _ owner name desc).trans ext)).addFieldref
      owner name desc ext small
  | addMethodref owner name desc _ ih =>
    exact (ih ((Pool.addMethodref_extends _ owner name desc).trans ext)).addMethodref
      owner name desc ext small

/-! ## Assembled class files -/

/-- The numbers of a class file fit their sixteen-bit fields, and so do its counts of
interfaces, fields, methods and attributes. -/
structure ParsedClass.Sized (cf : ParsedClass) : Prop where
  minor : cf.minor < 2 ^ 16
  major : cf.major < 2 ^ 16
  access : cf.access < 2 ^ 16
  thisClass : cf.thisClass < 2 ^ 16
  superClass : cf.superClass < 2 ^ 16
  interfaceCount : cf.interfaces.length < 2 ^ 16
  interfaces : ∀ i ∈ cf.interfaces, i < 2 ^ 16
  fieldCount : cf.fields.length < 2 ^ 16
  fields : ∀ m ∈ cf.fields, m.Fits
  methodCount : cf.methods.length < 2 ^ 16
  methods : ∀ m ∈ cf.methods, m.Fits
  attributeCount : cf.attributes.length < 2 ^ 16
  attributes : ∀ a ∈ cf.attributes, a.Fits

theorem ParsedClass.Sized.fits {cf : ParsedClass} (sized : cf.Sized) (laid : cf.pool.WellLaid) :
    cf.Fits :=
  ⟨sized.minor, sized.major, laid, sized.access, sized.thisClass, sized.superClass,
    sized.interfaceCount, sized.interfaces, sized.fieldCount, sized.fields, sized.methodCount,
    sized.methods, sized.attributeCount, sized.attributes⟩

/-- A class file whose pool was assembled and whose numbers fit their fields is read back from
its bytes as itself, when its own index is a Class entry. -/
theorem parseClass_assembled {cf : ParsedClass} {b : List UInt8} {n : Nat}
    (assembled : cf.pool.Assembled) (sized : cf.Sized)
    (own : cf.pool.get cf.thisClass = .ok (.classRef n)) (h : cf.bytes = .ok b) :
    parseClass b = .ok cf := by
  have small := ParsedClass.bytes_count h
  obtain ⟨s, text⟩ := assembled.namesIn (.refl _) (by omega) _ _ own
  have named : cf.name = .ok s := Pool.className_of_get own text
  exact parseClass_bytes (sized.fits assembled.wellLaid) named h

/-! ## Code attributes -/

/-- Attributes are written when each is shorter than its 32-bit length can say. -/
theorem attributesBytes_ok {as : List Attribute} (short : ∀ a ∈ as, a.data.length < 2 ^ 32) :
    ∃ w, attributesBytes as = .ok w := by
  have parts : as.mapM attributeBytes =
      .ok (as.map fun a => u2 a.nameIndex ++ u4 a.data.length ++ a.data) := by
    rw [List.mapM_eq_ok, List.forall₂_map_right_iff, List.forall₂_same]
    intro a ha
    rw [attributeBytes, if_neg (Nat.not_le.mpr (short a ha))]
  simp only [attributesBytes, parts, Except.ok_bind, Except.pure_eq_ok, Except.ok.injEq,
    exists_eq']

/-- The payload of a Code attribute with 1 to 65535 bytes of code, whose numbers fit their
fields, is written, and read back as the attribute. -/
theorem parseCode_written {c : Code} (fits : c.Fits) (nonempty : 0 < c.code.length)
    (short : c.code.length ≤ 65535) (small : ∀ a ∈ c.attributes, a.data.length < 2 ^ 32) :
    ∃ b, c.bytes = .ok b ∧ parseCode b = .ok c := by
  obtain ⟨w, attributes⟩ := attributesBytes_ok small
  have sized : (c.code.isEmpty || decide (c.code.length > 65535)) = false := by
    simp only [Bool.or_eq_false_iff, List.isEmpty_eq_false_iff, decide_eq_false_iff_not]
    exact ⟨List.ne_nil_of_length_pos nonempty, by omega⟩
  have written : ∃ b, c.bytes = .ok b := by
    simp only [Code.bytes, sized, attributes, Bool.false_eq_true, if_false, Except.ok_bind,
      Except.pure_eq_ok, Except.ok.injEq, exists_eq']
  obtain ⟨b, hb⟩ := written
  exact ⟨b, hb, parseCode_bytes fits hb⟩

/-! ## The round trip -/

/-- Reading and writing class files undo each other.  Canonical bytes are written back as
they were read.  A class file whose pool was assembled by the adding functions and whose
numbers and counts fit their fields is read back from its bytes as itself, when its own index
is a Class entry.  The payload of a Code attribute with 1 to 65535 bytes of code, whose
numbers fit their fields and whose attributes are shorter than 2 ^ 32 bytes, is written and
read back as itself. -/
theorem classBytes_roundTrip :
    (∀ (b : List UInt8) (cf : ParsedClass), parseClass b = .ok cf → CanonicalBytes b →
      cf.bytes = .ok b) ∧
    (∀ (cf : ParsedClass) (b : List UInt8), cf.pool.Assembled → cf.Sized →
      (∃ n, cf.pool.get cf.thisClass = .ok (.classRef n)) → cf.bytes = .ok b →
      parseClass b = .ok cf) ∧
    (∀ c : Code, c.Fits → 0 < c.code.length → c.code.length ≤ 65535 →
      (∀ a ∈ c.attributes, a.data.length < 2 ^ 32) →
      ∃ b, c.bytes = .ok b ∧ parseCode b = .ok c) := by
  refine ⟨fun _ _ parsed canonical => parseClass_canonical_bytes parsed canonical, ?_, ?_⟩
  · rintro cf b assembled sized ⟨n, own⟩ written
    exact parseClass_assembled assembled sized own written
  · intro c fits nonempty short small
    exact parseCode_written fits nonempty short small

/-- Bytes the reader accepts need not be written back as they were: the name of this class is
a raw zero byte, read as the text NUL, which is written as the two bytes C0 80. -/
theorem parseClass_rawZero_rewritten :
    parseClass [0xCA, 0xFE, 0xBA, 0xBE, 0, 0, 0, 0, 0, 3, 1, 0, 1, 0, 7, 0, 1, 0, 0, 0, 2,
        0, 0, 0, 0, 0, 0, 0, 0, 0, 0] =
      .ok ⟨0, 0, (Pool.empty.addClass "\x00").1, 0, 2, 0, [], [], [], []⟩ ∧
    (⟨0, 0, (Pool.empty.addClass "\x00").1, 0, 2, 0, [], [], [], []⟩ : ParsedClass).bytes =
      .ok [0xCA, 0xFE, 0xBA, 0xBE, 0, 0, 0, 0, 0, 3, 1, 0, 2, 0xC0, 0x80, 7, 0, 1, 0, 0, 0, 2,
        0, 0, 0, 0, 0, 0, 0, 0, 0, 0] := by
  constructor <;> decide +kernel

/-- The class `A` of version 52, public and with no superclass, members or attributes, and a
Code attribute holding one return. -/
theorem classBytes_roundTrip_classA :
    parseClass [0xCA, 0xFE, 0xBA, 0xBE, 0, 0, 0, 52, 0, 3, 1, 0, 1, 0x41, 7, 0, 1, 0, 0x21, 0, 2,
        0, 0, 0, 0, 0, 0, 0, 0, 0, 0] =
      .ok ⟨0, 52, (Pool.empty.addClass "A").1, 0x21, 2, 0, [], [], [], []⟩ ∧
    (⟨0, 52, (Pool.empty.addClass "A").1, 0x21, 2, 0, [], [], [], []⟩ : ParsedClass).bytes =
      .ok [0xCA, 0xFE, 0xBA, 0xBE, 0, 0, 0, 52, 0, 3, 1, 0, 1, 0x41, 7, 0, 1, 0, 0x21, 0, 2,
        0, 0, 0, 0, 0, 0, 0, 0, 0, 0] ∧
    ∃ b, (⟨1, 1, [0xB1], [], []⟩ : Code).bytes = .ok b ∧ parseCode b = .ok ⟨1, 1, [0xB1], [], []⟩ := by
  have sized : (⟨0, 52, (Pool.empty.addClass "A").1, 0x21, 2, 0, [], [], [], []⟩ :
      ParsedClass).Sized := ⟨by decide, by decide, by decide, by decide, by decide, by decide,
    by simp, by decide, by simp, by decide, by simp, by decide, by simp⟩
  have written : (⟨0, 52, (Pool.empty.addClass "A").1, 0x21, 2, 0, [], [], [], []⟩ :
      ParsedClass).bytes = .ok [0xCA, 0xFE, 0xBA, 0xBE, 0, 0, 0, 52, 0, 3, 1, 0, 1, 0x41, 7, 0, 1,
        0, 0x21, 0, 2, 0, 0, 0, 0, 0, 0, 0, 0, 0, 0] := by
    decide +kernel
  have parsed := classBytes_roundTrip.2.1 _ _ (.addClass "A" .empty) sized
    ⟨1, by decide +kernel⟩ written
  have canonical : CanonicalBytes [0xCA, 0xFE, 0xBA, 0xBE, 0, 0, 0, 52, 0, 3, 1, 0, 1, 0x41, 7,
      0, 1, 0, 0x21, 0, 2, 0, 0, 0, 0, 0, 0, 0, 0, 0, 0] :=
    ⟨⟨0, 52, (Pool.empty.addClass "A").1, 0x21, 2, 0, [], [], [], []⟩, by decide +kernel,
      by decide +kernel⟩
  have fits : (⟨1, 1, [0xB1], [], []⟩ : Code).Fits :=
    ⟨by decide, by decide, by decide, by simp, by decide, by simp⟩
  exact ⟨parsed, classBytes_roundTrip.1 _ _ parsed canonical,
    classBytes_roundTrip.2.2 _ fits (by decide) (by decide) (by simp)⟩

end BasicJvm.ClassFile
