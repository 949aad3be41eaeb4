import BasicJvm.Proofs.ClassFile.Reading
import BasicJvm.Proofs.Except

/-!
# Class files read back

A class file that writes without error reads back as itself, provided every number in it
fits the field it is written to (`ParsedClass.Fits`): `parseClass_bytes`.  The writer
itself refuses what it could not write faithfully (a pool of more than 65535 entries, a
text of more than 65535 bytes, an attribute of 2 ^ 32 bytes or more), so those limits are
not assumptions here; what is assumed is that the pool indexes, flags, counts and small
numbers stored in the class fit sixteen bits (eight for a method handle's kind), and that
the pool is laid out as a class file lays it out (`Pool.Layout`): entry 0 unusable, then
each constant, a long or a double followed by its unusable second slot.

The proof follows the reader.  Each part of the class is read back by its own lemma
(`readConstant_readsAs`, `readConstants_readsAs`, `readAttributes_readsAs`,
`readMember_readsAs`), and `readClass_readsAs` chains them in the order of the file.  The
same parts give `parseCode_bytes` for the payload of a Code attribute.
-/

namespace BasicJvm.ClassFile

open BasicJvm.Text

/-- A reader whose last part reads nothing. -/
theorem ReadsAs.bindLast {α β : Type} {r : ReadM α} {k : α → ReadM β} {w : List UInt8} {a : α}
    {b : β} (h₁ : ReadsAs r w a) (h₂ : ReadsAs (k a) [] b) : ReadsAs (r >>= k) w b := by
  have read := h₁.bind h₂
  rwa [List.append_nil] at read

theorem ReadsAs.bindPure {α β : Type} {r : ReadM α} {w : List UInt8} {a : α} (f : α → β)
    (h : ReadsAs r w a) : ReadsAs (r >>= fun x => Pure.pure (f x)) w (f a) :=
  h.bindLast (ReadsAs.pure (f a))

/-- A four-byte number is written modulo `2 ^ 32`. -/
theorem u4_mod (n : Nat) : u4 n = u4 (n % 2 ^ 32) := by
  have high : n / 65536 % 65536 = n % 2 ^ 32 / 65536 % 65536 := by omega
  have low : n % 65536 = n % 2 ^ 32 % 65536 := by omega
  simp only [u4]
  rw [high, low]

/-! ## Constants -/

/-- The pool indexes and small numbers of a constant fit the fields they are written to. -/
def Constant.Fits : Constant → Prop
  | .unusable => False
  | .utf8 _ | .integer _ | .float _ | .long _ | .double _ => True
  | .classRef i | .string i | .methodType i | .module i | .package i => i < 2 ^ 16
  | .fieldRef a b | .methodRef a b | .interfaceMethodRef a b | .nameAndType a b
  | .dynamic a b | .invokeDynamic a b => a < 2 ^ 16 ∧ b < 2 ^ 16
  | .methodHandle k i => k < 2 ^ 8 ∧ i < 2 ^ 16

/-- A constant with one index after its tag. -/
private theorem readConstant_readsAs_one (tag : Nat) {index i : Nat} {mk : Nat → Constant}
    {b : List UInt8} (htag : tag < 2 ^ 8) (hi : i < 2 ^ 16)
    (hread : readConstant index tag = (readU2 >>= fun x => Pure.pure (mk x)))
    (hb : b = u1 tag ++ u2 i) : ReadsAs (readU1 >>= readConstant index) b (mk i) := by
  subst hb
  refine (readU1_readsAs htag).bind ?_
  rw [hread]
  exact (readU2_readsAs hi).bindPure mk

/-- A constant with two indexes after its tag. -/
private theorem readConstant_readsAs_two (tag : Nat) {index i j : Nat} {mk : Nat → Nat → Constant}
    {b : List UInt8} (htag : tag < 2 ^ 8) (hi : i < 2 ^ 16) (hj : j < 2 ^ 16)
    (hread : readConstant index tag =
      (readU2 >>= fun x => readU2 >>= fun y => Pure.pure (mk x y)))
    (hb : b = u1 tag ++ u2 i ++ u2 j) : ReadsAs (readU1 >>= readConstant index) b (mk i j) := by
  subst hb
  rw [List.append_assoc]
  refine (readU1_readsAs htag).bind ?_
  rw [hread]
  exact (readU2_readsAs hi).bind ((readU2_readsAs hj).bindPure (mk i))

/-- A constant of two four-byte halves after its tag, the high half first. -/
private theorem readConstant_readsAs_halves (tag : Nat) {index : Nat} {bits : UInt64}
    {mk : UInt64 → Constant} {b : List UInt8} (htag : tag < 2 ^ 8)
    (hread : readConstant index tag = (readU4 >>= fun high => readU4 >>= fun low =>
      Pure.pure (mk (high * 2 ^ 32 + low).toUInt64)))
    (hb : b = u1 tag ++ u4 (bits.toNat / 2 ^ 32) ++ u4 bits.toNat) :
    ReadsAs (readU1 >>= readConstant index) b (mk bits) := by
  subst hb
  have high : bits.toNat / 2 ^ 32 < 2 ^ 32 := by have := bits.toNat_lt; omega
  have low : bits.toNat % 2 ^ 32 < 2 ^ 32 := Nat.mod_lt _ (by decide)
  have whole : mk bits = mk (bits.toNat / 2 ^ 32 * 2 ^ 32 + bits.toNat % 2 ^ 32).toUInt64 := by
    rw [Nat.div_add_mod']
    simp
  rw [whole, List.append_assoc, u4_mod bits.toNat]
  refine (readU1_readsAs htag).bind ?_
  rw [hread]
  refine (readU4_readsAs high).bind ?_
  exact (readU4_readsAs low).bindPure fun low => mk ((bits.toNat / 2 ^ 32) * 2 ^ 32 + low).toUInt64

/-- A text constant is read as its length, that many bytes, and their decoding. -/
theorem readConstant_utf8 (index : Nat) : readConstant index 1 = (readU2 >>= fun length => do
    match decodeModifiedUtf8 (← takeBytes length) with
    | .ok s => Pure.pure (Constant.utf8 s)
    | .error e => throw (ClassError.badText index e)) := rfl

/-- The tag byte and then the payload are read back as the constant. -/
theorem readConstant_readsAs {c : Constant} {b : List UInt8} (fits : c.Fits) (index : Nat)
    (written : Nat) (h : constantBytes written c = .ok b) :
    ReadsAs (readU1 >>= readConstant index) b c := by
  cases c with
  | unusable => exact fits.elim
  | utf8 s =>
    simp only [constantBytes] at h
    split at h
    · cases h
    · simp only [pure, Except.pure, Except.ok.injEq] at h
      subst h
      have fitsLength : (encodeModifiedUtf8 s).length < 2 ^ 16 := by omega
      rw [List.append_assoc]
      refine (readU1_readsAs (by decide)).bind ?_
      rw [readConstant_utf8]
      refine (readU2_readsAs fitsLength).bind ?_
      refine (takeBytes_readsAs (encodeModifiedUtf8 s)).bindLast ?_
      rw [decodeModifiedUtf8_encode]
      exact ReadsAs.pure _
  | integer bits =>
    simp only [constantBytes, pure, Except.pure, Except.ok.injEq] at h
    subst h
    refine (readU1_readsAs (by decide)).bind ?_
    have read := (readU4_readsAs bits.toNat_lt).bindPure (fun x => Constant.integer x.toUInt32)
    simp only [UInt32.ofNat_toNat] at read
    exact read
  | float bits =>
    simp only [constantBytes, pure, Except.pure, Except.ok.injEq] at h
    subst h
    refine (readU1_readsAs (by decide)).bind ?_
    have read := (readU4_readsAs bits.toNat_lt).bindPure (fun x => Constant.float x.toUInt32)
    simp only [UInt32.ofNat_toNat] at read
    exact read
  | long bits =>
    exact readConstant_readsAs_halves 5 (by decide) rfl (Except.ok.inj h).symm
  | double bits =>
    exact readConstant_readsAs_halves 6 (by decide) rfl (Except.ok.inj h).symm
  | classRef i =>
    exact readConstant_readsAs_one 7 (by decide) fits rfl (Except.ok.inj h).symm
  | string i =>
    exact readConstant_readsAs_one 8 (by decide) fits rfl (Except.ok.inj h).symm
  | methodType i =>
    exact readConstant_readsAs_one 16 (by decide) fits rfl (Except.ok.inj h).symm
  | module i =>
    exact readConstant_readsAs_one 19 (by decide) fits rfl (Except.ok.inj h).symm
  | package i =>
    exact readConstant_readsAs_one 20 (by decide) fits rfl (Except.ok.inj h).symm
  | fieldRef i j =>
    exact readConstant_readsAs_two 9 (by decide) fits.1 fits.2 rfl
      (Except.ok.inj h).symm
  | methodRef i j =>
    exact readConstant_readsAs_two 10 (by decide) fits.1 fits.2 rfl
      (Except.ok.inj h).symm
  | interfaceMethodRef i j =>
    exact readConstant_readsAs_two 11 (by decide) fits.1 fits.2 rfl
      (Except.ok.inj h).symm
  | nameAndType i j =>
    exact readConstant_readsAs_two 12 (by decide) fits.1 fits.2 rfl
      (Except.ok.inj h).symm
  | dynamic i j =>
    exact readConstant_readsAs_two 17 (by decide) fits.1 fits.2 rfl
      (Except.ok.inj h).symm
  | invokeDynamic i j =>
    exact readConstant_readsAs_two 18 (by decide) fits.1 fits.2 rfl
      (Except.ok.inj h).symm
  | methodHandle k i =>
    simp only [constantBytes, pure, Except.pure, Except.ok.injEq] at h
    subst h
    rw [List.append_assoc]
    refine (readU1_readsAs (by decide)).bind ?_
    exact (readU1_readsAs fits.1).bind ((readU2_readsAs fits.2).bindPure _)

/-! ## The constant pool -/

/-- The slots a constant takes in the pool: a long or a double takes a second, unusable
one. -/
def Constant.slots (c : Constant) : List Constant :=
  if c.isWide then [c, .unusable] else [c]

/-- The pool holds the constants `cs` as a class file lays them out: entry 0 unusable, then
each constant in its slots; and every constant fits its fields. -/
def Pool.Layout (p : Pool) (cs : List Constant) : Prop :=
  p.entries.toList = .unusable :: cs.flatMap Constant.slots ∧ ∀ c ∈ cs, c.Fits

theorem Pool.push_entries (p : Pool) (c : Constant) :
    (p.push c).entries.toList = p.entries.toList ++ c.slots := by
  unfold Pool.push Constant.slots
  split <;> simp

theorem Constant.slots_length_pos (c : Constant) : 0 < c.slots.length := by
  unfold Constant.slots
  split <;> simp

/-- Writing the slots of constants gives one part for each constant; the second slot of a
wide constant writes nothing. -/
theorem mapM_slots_eq_ok :
    ∀ (cs : List Constant) (k : Nat) (parts : List (List UInt8)),
      ((cs.flatMap Constant.slots).zipIdx k).mapM (fun (c, i) => constantBytes i c) =
        .ok parts →
      ∃ written : List (List UInt8),
        List.Forall₂ (fun c part => ∃ i, constantBytes i c = .ok part) cs written ∧
          parts.flatten = written.flatten
  | [], k, parts, h => by
    simp only [List.flatMap_nil, List.zipIdx_nil, List.mapM_nil, pure, Except.pure,
      Except.ok.injEq] at h
    subst h
    exact ⟨[], .nil, rfl⟩
  | c :: cs, k, parts, h => by
    simp only [List.flatMap_cons, List.zipIdx_append, List.mapM_append, Except.bind_eq_ok,
      pure, Except.pure, Except.ok.injEq] at h
    obtain ⟨first, hfirst, rest, hrest, rfl⟩ := h
    obtain ⟨written, hwritten, hflat⟩ := mapM_slots_eq_ok cs _ rest hrest
    -- the constant's own slots: its bytes, then nothing for a second slot
    have own : ∃ part, constantBytes k c = .ok part ∧ first.flatten = part := by
      unfold Constant.slots at hfirst
      split at hfirst
      · simp only [List.zipIdx_cons, List.zipIdx_nil, List.mapM_cons, List.mapM_nil,
          Except.bind_eq_ok, constantBytes, pure, Except.pure, Except.ok.injEq] at hfirst
        obtain ⟨part, hpart, _, ⟨_, rfl, _, rfl, rfl⟩, rfl⟩ := hfirst
        exact ⟨part, hpart, by simp⟩
      · simp only [List.zipIdx_cons, List.zipIdx_nil, List.mapM_cons, List.mapM_nil,
          Except.bind_eq_ok, pure, Except.pure, Except.ok.injEq] at hfirst
        obtain ⟨part, hpart, _, rfl, rfl⟩ := hfirst
        exact ⟨part, hpart, by simp⟩
    obtain ⟨part, hpart, hfirstFlat⟩ := own
    refine ⟨part :: written, .cons ⟨k, hpart⟩ hwritten, ?_⟩
    simp [hfirstFlat, hflat]

/-- `readConstants` stops once the index reaches the count. -/
private theorem readConstants_of_le {count fuel index : Nat} {pool : Pool}
    (h : count ≤ index) : readConstants count fuel index pool = Pure.pure pool := by
  cases fuel <;> simp [readConstants, readConstantsWith, h]

/-- Below the count, `readConstants` reads a tag and a constant and goes on after it. -/
private theorem readConstants_of_lt {count fuel index : Nat} {pool : Pool}
    (h : ¬ count ≤ index) :
    readConstants count (fuel + 1) index pool =
      ((readU1 >>= readConstant index) >>= fun c =>
        readConstants count fuel (if c.isWide then index + 2 else index + 1) (pool.push c)) := by
  simp only [readConstants, readConstantsWith, h, if_false, bind_assoc]
  rfl

/-- The constants written one after another are read back and pushed onto the pool, as
long as the count says where they end and there is fuel for each. -/
theorem readConstants_readsAs (count : Nat) :
    ∀ {cs : List Constant} {written : List (List UInt8)} (fuel index : Nat) (pool : Pool),
      List.Forall₂ (fun c part => ∃ i, constantBytes i c = .ok part) cs written →
      (∀ c ∈ cs, c.Fits) → cs.length ≤ fuel →
      count = index + (cs.flatMap Constant.slots).length →
      ReadsAs (readConstants count fuel index pool) written.flatten (cs.foldl Pool.push pool)
  | [], [], fuel, index, pool, .nil, _, _, hcount => by
    rw [readConstants_of_le (by simp at hcount; omega)]
    exact ReadsAs.pure pool
  | c :: cs, part :: written, fuel, index, pool, .cons ⟨i, hpart⟩ hrest, fits, hfuel,
      hcount => by
    obtain ⟨fuel, rfl⟩ : ∃ f, fuel = f + 1 := ⟨fuel - 1, by simp at hfuel; omega⟩
    have more : ¬ count ≤ index := by
      have := c.slots_length_pos
      simp only [List.flatMap_cons, List.length_append] at hcount
      omega
    have next : (if c.isWide then index + 2 else index + 1) = index + c.slots.length := by
      unfold Constant.slots
      split <;> simp
    rw [readConstants_of_lt more, List.flatten_cons, List.foldl_cons]
    refine (readConstant_readsAs (fits c List.mem_cons_self) index i hpart).bind ?_
    rw [next]
    exact readConstants_readsAs count fuel _ _ hrest
      (fun d hd => fits d (List.mem_cons_of_mem c hd)) (by simp at hfuel; omega)
      (by simp only [List.flatMap_cons, List.length_append] at hcount; omega)

theorem length_le_flatMap_slots (cs : List Constant) :
    cs.length ≤ (cs.flatMap Constant.slots).length := by
  induction cs with
  | nil => simp
  | cons c cs ih =>
    have := c.slots_length_pos
    simp only [List.length_cons, List.flatMap_cons, List.length_append]
    omega

theorem foldl_push_entries (cs : List Constant) :
    ∀ pool : Pool, (cs.foldl Pool.push pool).entries.toList =
      pool.entries.toList ++ cs.flatMap Constant.slots := by
  induction cs with
  | nil => simp
  | cons c cs ih =>
    intro pool
    rw [List.foldl_cons, ih, Pool.push_entries, List.flatMap_cons, List.append_assoc]

/-- A pool laid out as a class file, with a count that fits sixteen bits, is read back from
its bytes. -/
theorem readPool_readsAs {p : Pool} {cs : List Constant} {b : List UInt8} (layout : p.Layout cs)
    (small : p.count < 2 ^ 16) (h : poolBytes p = .ok b) : ReadsAs readPool b p := by
  obtain ⟨hentries, fits⟩ := layout
  simp only [poolBytes, Except.bind_eq_ok, pure, Except.pure, Except.ok.injEq] at h
  obtain ⟨parts, hparts, rfl⟩ := h
  rw [hentries, List.zipIdx_cons, List.drop_one, List.tail_cons] at hparts
  obtain ⟨written, hwritten, hflat⟩ := mapM_slots_eq_ok cs 1 parts hparts
  have size : p.count = 1 + (cs.flatMap Constant.slots).length := by
    simp [Pool.count, ← Array.length_toList, hentries, Nat.add_comm]
  have enough : cs.length ≤ p.count := by
    have := length_le_flatMap_slots cs
    omega
  have same : cs.foldl Pool.push Pool.empty = p := by
    have entries : (cs.foldl Pool.push Pool.empty).entries = p.entries := by
      apply Array.ext'
      rw [foldl_push_entries, hentries]
      rfl
    cases hfold : cs.foldl Pool.push Pool.empty
    cases p
    simp_all
  rw [hflat]
  unfold readPool
  refine (readU2_readsAs small).bind ?_
  have read := readConstants_readsAs p.count p.count 1 Pool.empty hwritten fits enough size
  rwa [same] at read

/-! ## Attributes and members -/

/-- An attribute's name index fits sixteen bits; its payload's length is checked by the
writer. -/
def Attribute.Fits (a : Attribute) : Prop := a.nameIndex < 2 ^ 16

theorem readAttribute_readsAs {a : Attribute} {b : List UInt8} (fits : a.Fits)
    (h : attributeBytes a = .ok b) : ReadsAs readAttribute b a := by
  unfold attributeBytes at h
  split at h
  · cases h
  · rename_i short
    obtain rfl : u2 a.nameIndex ++ u4 a.data.length ++ a.data = b := Except.ok.inj h
    rw [List.append_assoc]
    refine (readU2_readsAs fits).bind ?_
    refine (readU4_readsAs (by omega)).bind ?_
    exact (takeBytes_readsAs a.data).bindPure (Attribute.mk a.nameIndex)

/-- The attributes written after their count: the count, then one part per attribute,
each read back as its attribute. -/
theorem attributesBytes_readsAs {as : List Attribute} {b : List UInt8}
    (fits : ∀ a ∈ as, a.Fits) (h : attributesBytes as = .ok b) :
    ∃ parts : List (List UInt8), b = u2 as.length ++ parts.flatten ∧
      ReadsAs (readMany readAttribute as.length) parts.flatten as := by
  simp only [attributesBytes, Except.bind_eq_ok, pure, Except.pure, Except.ok.injEq] at h
  obtain ⟨parts, hparts, rfl⟩ := h
  have each := (List.forall₂_and_left _ _).mpr ⟨fits, List.mapM_eq_ok.mp hparts⟩
  exact ⟨parts, rfl, readMany_readsAs (each.imp fun a part ⟨fit, hp⟩ =>
    readAttribute_readsAs fit hp)⟩

theorem readAttributes_readsAs {as : List Attribute} {b : List UInt8}
    (fits : ∀ a ∈ as, a.Fits) (count : as.length < 2 ^ 16) (h : attributesBytes as = .ok b) :
    ReadsAs readAttributes b as := by
  obtain ⟨parts, rfl, read⟩ := attributesBytes_readsAs fits h
  unfold readAttributes
  exact (readU2_readsAs count).bind read

/-- A member's flags and indexes fit sixteen bits, and so do its attributes. -/
def Member.Fits (m : Member) : Prop :=
  m.access < 2 ^ 16 ∧ m.nameIndex < 2 ^ 16 ∧ m.descIndex < 2 ^ 16 ∧
    m.attributes.length < 2 ^ 16 ∧ ∀ a ∈ m.attributes, a.Fits

theorem readMember_readsAs {m : Member} {b : List UInt8} (fits : m.Fits)
    (h : memberBytes m = .ok b) : ReadsAs readMember b m := by
  obtain ⟨access, name, desc, count, attrs⟩ := fits
  simp only [memberBytes, Except.bind_eq_ok, pure, Except.pure, Except.ok.injEq] at h
  obtain ⟨written, hwritten, rfl⟩ := h
  simp only [List.append_assoc]
  refine (readU2_readsAs access).bind ((readU2_readsAs name).bind ((readU2_readsAs desc).bind ?_))
  exact (readAttributes_readsAs attrs count hwritten).bindPure
    (Member.mk m.access m.nameIndex m.descIndex)

/-- The members written after their count: the count, then one part per member, each read
back as its member. -/
theorem membersBytes_readsAs {ms : List Member} {b : List UInt8} (fits : ∀ m ∈ ms, m.Fits)
    (h : membersBytes ms = .ok b) :
    ∃ parts : List (List UInt8), b = u2 ms.length ++ parts.flatten ∧
      ReadsAs (readMany readMember ms.length) parts.flatten ms := by
  simp only [membersBytes, Except.bind_eq_ok, pure, Except.pure, Except.ok.injEq] at h
  obtain ⟨parts, hparts, rfl⟩ := h
  have each := (List.forall₂_and_left _ _).mpr ⟨fits, List.mapM_eq_ok.mp hparts⟩
  exact ⟨parts, rfl, readMany_readsAs (each.imp fun m part ⟨fit, hp⟩ =>
    readMember_readsAs fit hp)⟩

/-! ## Whole class files -/

/-- Every number of a class file fits the field it is written to, and its pool is laid out
as a class file lays it out. -/
structure ParsedClass.Fits (cf : ParsedClass) : Prop where
  minor : cf.minor < 2 ^ 16
  major : cf.major < 2 ^ 16
  pool : ∃ cs, cf.pool.Layout cs
  access : cf.access < 2 ^ 16
  thisClass : cf.thisClass < 2 ^ 16
  superClass : cf.superClass < 2 ^ 16
  interfaceCount : cf.interfaces.length < 2 ^ 16
  interfaces : ∀ i ∈ cf.interfaces, i < 2 ^ 16
  fieldCount : cf.fields.length < 2 ^ 16
  fields : ∀ m ∈ cf.fields, m.Fits
  methodCount : cf.methods.length < 2 ^ 16
  methods : ∀ m ∈ cf.methods, m.Fits
  attributeCount : cf.attributes.length < 2 ^ 16
  attributes : ∀ a ∈ cf.attributes, a.Fits

/-- The interfaces, written one index each, are read back. -/
theorem readInterfaces_readsAs {is : List Nat} (fits : ∀ i ∈ is, i < 2 ^ 16) :
    ReadsAs (readMany readU2 is.length) (is.flatMap u2) is := by
  rw [List.flatMap_def]
  apply readMany_readsAs
  rw [List.forall₂_map_right_iff, List.forall₂_same]
  exact fun i hi => readU2_readsAs (fits i hi)

/-- A class file that fits its fields reads back from its bytes, in the order of the
file. -/
theorem readClass_readsAs {cf : ParsedClass} {b : List UInt8} (fits : cf.Fits)
    (h : cf.bytes = .ok b) : ReadsAs readClass b cf := by
  obtain ⟨cs, layout⟩ := fits.pool
  simp only [ParsedClass.bytes] at h
  split at h
  · cases h
  rename_i small
  simp only [Pool.overflowed, Bool.not_eq_true, decide_eq_false_iff_not, Nat.not_lt] at small
  simp only [pure, Except.pure, bind, Except.bind] at h
  split at h
  · cases h
  rename_i pool hpool
  split at h
  · cases h
  rename_i fields hfields
  split at h
  · cases h
  rename_i methods hmethods
  split at h
  · cases h
  rename_i attributes hattributes
  obtain rfl := (Except.ok.inj h).symm
  obtain ⟨fieldParts, rfl, readFields⟩ := membersBytes_readsAs fits.fields hfields
  obtain ⟨methodParts, rfl, readMethods⟩ := membersBytes_readsAs fits.methods hmethods
  simp only [List.append_assoc]
  unfold readClass
  refine (readU4_readsAs (by decide)).bind ?_
  simp only [bne_self_eq_false, Bool.false_eq_true, if_false]
  refine (readU2_readsAs fits.minor).bind ((readU2_readsAs fits.major).bind ?_)
  refine (readPool_readsAs layout (by omega) hpool).bind ?_
  refine (readU2_readsAs fits.access).bind ((readU2_readsAs fits.thisClass).bind ?_)
  refine (readU2_readsAs fits.superClass).bind ?_
  refine (readU2_readsAs fits.interfaceCount).bind
    ((readInterfaces_readsAs fits.interfaces).bind ?_)
  refine (readU2_readsAs fits.fieldCount).bind (readFields.bind ?_)
  refine (readU2_readsAs fits.methodCount).bind (readMethods.bind ?_)
  exact (readAttributes_readsAs fits.attributes fits.attributeCount hattributes).bindPure _

/-- Writing a class file and reading it back gives the class file, when every number in it
fits its field and its own name resolves. -/
theorem parseClass_bytes {cf : ParsedClass} {b : List UInt8} {name : String} (fits : cf.Fits)
    (named : cf.name = .ok name) (h : cf.bytes = .ok b) : parseClass b = .ok cf := by
  have read := readClass_readsAs fits h [] 0
  rw [List.append_nil, readClass] at read
  simp [parseClass, parseClassWith, read, named, bind, Except.bind, pure, Except.pure]

/-- Class bytes are only written for a pool with a 16-bit count. -/
theorem ParsedClass.bytes_count {cf : ParsedClass} {b : List UInt8} (h : cf.bytes = .ok b) :
    cf.pool.count ≤ 65535 := by
  unfold ParsedClass.bytes at h
  split at h
  · simp at h
  · rename_i small
    simp only [Pool.overflowed, decide_eq_true_eq] at small
    omega

/-! ## Code attributes -/

/-- The four offsets and the class index of an exception table row fit sixteen bits. -/
def ExceptionEntry.Fits (e : ExceptionEntry) : Prop :=
  e.startPc < 2 ^ 16 ∧ e.endPc < 2 ^ 16 ∧ e.handlerPc < 2 ^ 16 ∧ e.catchType < 2 ^ 16

/-- Every number of a Code attribute fits the field it is written to. -/
structure Code.Fits (c : Code) : Prop where
  maxStack : c.maxStack < 2 ^ 16
  maxLocals : c.maxLocals < 2 ^ 16
  exceptionCount : c.exceptions.length < 2 ^ 16
  exceptions : ∀ e ∈ c.exceptions, e.Fits
  attributeCount : c.attributes.length < 2 ^ 16
  attributes : ∀ a ∈ c.attributes, a.Fits

theorem readExceptionEntry_readsAs {e : ExceptionEntry} (fits : e.Fits) :
    ReadsAs readExceptionEntry (u2 e.startPc ++ u2 e.endPc ++ u2 e.handlerPc ++ u2 e.catchType)
      e := by
  obtain ⟨start, stop, handler, kind⟩ := fits
  simp only [List.append_assoc]
  exact (readU2_readsAs start).bind ((readU2_readsAs stop).bind ((readU2_readsAs handler).bind
    ((readU2_readsAs kind).bindPure (ExceptionEntry.mk e.startPc e.endPc e.handlerPc))))

/-- The payload of a Code attribute reads back as the attribute. -/
theorem readCode_readsAs {c : Code} {b : List UInt8} (fits : c.Fits) (h : c.bytes = .ok b) :
    ReadsAs readCode b c := by
  simp only [Code.bytes] at h
  split at h
  · cases h
  rename_i size
  simp only [Bool.or_eq_true, List.isEmpty_iff, decide_eq_true_eq, not_or] at size
  simp only [bind, Except.bind] at h
  split at h
  · cases h
  rename_i attributes hattributes
  obtain rfl := (Except.ok.inj h).symm
  have rows : ReadsAs (readMany readExceptionEntry c.exceptions.length)
      (c.exceptions.flatMap fun e => u2 e.startPc ++ u2 e.endPc ++ u2 e.handlerPc ++
        u2 e.catchType) c.exceptions := by
    rw [List.flatMap_def]
    apply readMany_readsAs
    rw [List.forall₂_map_right_iff, List.forall₂_same]
    exact fun e he => readExceptionEntry_readsAs (fits.exceptions e he)
  simp only [List.append_assoc]
  unfold readCode
  refine (readU2_readsAs fits.maxStack).bind ((readU2_readsAs fits.maxLocals).bind ?_)
  refine (readU4_readsAs (by omega)).bind ((takeBytes_readsAs c.code).bind ?_)
  refine (readU2_readsAs fits.exceptionCount).bind (rows.bind ?_)
  exact (readAttributes_readsAs fits.attributes fits.attributeCount hattributes).bindPure _

/-- Writing a Code attribute's payload and reading it back gives the attribute. -/
theorem parseCode_bytes {c : Code} {b : List UInt8} (fits : c.Fits) (h : c.bytes = .ok b) :
    parseCode b = .ok c := by
  have read := readCode_readsAs fits h [] 0
  rw [List.append_nil] at read
  simp [parseCode, read]

end BasicJvm.ClassFile
