import BasicJvm.Proofs.ClassFile.Constants
import BasicJvm.ClassFile.Template

/-!
# Editing a class keeps it readable

A program's class is the built-in template, renamed, with constants added to its pool and
the body of `run` replaced.  Each edit keeps the class readable from its bytes
(`ParsedClass.Fits`) and keeps its own name and its superclass's name resolving:

* `ParsedClass.rename_edited`: renaming makes the class's own name the new one;
* `ParsedClass.withPool_edited`: a pool grown from the class's own keeps what resolved;
* `ParsedClass.setMethodCode_edited`: replacing a method's Code attribute, after which
  `methodCode` reads back exactly the payload written (`ParsedClass.setMethodCode_methodCode`);
* `builtinTemplateClass_edited`: the template itself fits, is named `BasProgram`, and names
  the runtime class as its superclass.

None of this looks inside the texts of the pool: which method is `run`, and which Code
attribute is its, is found by the edit itself, and the reading back finds the same one
because the entries it looked at are still there.
-/

namespace BasicJvm.ClassFile

/-! ## Finding methods and attributes in a grown pool -/

section Finding

variable {cf cf' : ParsedClass} {name desc : String}

/-- A method found by its name and descriptor is one of the list, at or after the starting
position, and its name and descriptor entries read as the ones asked for. -/
theorem ParsedClass.findMethodAt_found :
    ∀ (ms : List Member) (i j : Nat) (m : Member),
      cf.findMethodAt name desc i ms = .ok (j, m) →
        i ≤ j ∧ m ∈ ms ∧ cf.pool.utf8 m.nameIndex = .ok name ∧ cf.pool.utf8 m.descIndex = .ok desc
  | [], i, j, m, h => by simp [ParsedClass.findMethodAt] at h
  | m₀ :: rest, i, j, m, h => by
    simp only [ParsedClass.findMethodAt, Except.bind_eq_ok] at h
    obtain ⟨n, hn, d, hd, found⟩ := h
    split at found
    · rename_i hit
      simp only [pure, Except.pure, Except.ok.injEq, Prod.mk.injEq] at found
      obtain ⟨rfl, rfl⟩ := found
      simp only [Bool.and_eq_true, beq_iff_eq] at hit
      obtain ⟨rfl, rfl⟩ := hit
      exact ⟨Nat.le_refl _, List.mem_cons_self, hn, hd⟩
    · obtain ⟨later, mem, named, described⟩ :=
        ParsedClass.findMethodAt_found rest (i + 1) j m found
      exact ⟨by omega, List.mem_cons_of_mem _ mem, named, described⟩

/-- A method found by its name and descriptor is found again, with its place in the list
given a member of the same name and descriptor, once the pool has grown. -/
theorem ParsedClass.findMethodAt_set (pool : cf.pool.Extends cf'.pool) (m' : Member) :
    ∀ (ms : List Member) (i j : Nat) (m : Member),
      cf.findMethodAt name desc i ms = .ok (j, m) → m'.nameIndex = m.nameIndex →
        m'.descIndex = m.descIndex → cf'.findMethodAt name desc i (ms.set (j - i) m') = .ok (j, m')
  | [], i, j, m, h, _, _ => by simp [ParsedClass.findMethodAt] at h
  | m₀ :: rest, i, j, m, h, sameName, sameDesc => by
    have bound := (ParsedClass.findMethodAt_found (m₀ :: rest) i j m h).1
    simp only [ParsedClass.findMethodAt, Except.bind_eq_ok] at h
    obtain ⟨n, hn, d, hd, found⟩ := h
    have hn' := pool.get (Pool.utf8_eq_ok.mp hn)
    have hd' := pool.get (Pool.utf8_eq_ok.mp hd)
    split at found
    · rename_i hit
      simp only [pure, Except.pure, Except.ok.injEq, Prod.mk.injEq] at found
      obtain ⟨rfl, rfl⟩ := found
      simp only [Bool.and_eq_true, beq_iff_eq] at hit
      simp [ParsedClass.findMethodAt, sameName, sameDesc, Pool.utf8_eq_ok.mpr hn',
        Pool.utf8_eq_ok.mpr hd', hit.1, hit.2, pure, Except.pure]
    · rename_i differs
      have later := (ParsedClass.findMethodAt_found rest (i + 1) j m found).1
      have shift : j - i = (j - (i + 1)) + 1 := by omega
      rw [shift, List.set_cons_succ]
      simp only [ParsedClass.findMethodAt, Except.bind_eq_ok]
      refine ⟨n, Pool.utf8_eq_ok.mpr hn', d, Pool.utf8_eq_ok.mpr hd', ?_⟩
      rw [if_neg differs]
      exact ParsedClass.findMethodAt_set pool m' rest (i + 1) j m found sameName sameDesc

/-- The first attribute of a name is still the first once it is replaced by another of the
same name. -/
theorem ParsedClass.findAttribute_set {attrs : List Attribute} {ai : Nat} {a : Attribute}
    (h : cf.findAttribute attrs name = some ai)
    (named : cf.pool.utf8 a.nameIndex = .ok name) :
    cf.findAttribute (attrs.set ai a) name = some ai := by
  unfold ParsedClass.findAttribute at h ⊢
  obtain ⟨inside, first, before⟩ := List.findIdx?_eq_some_iff_getElem.mp h
  refine List.findIdx?_eq_some_iff_getElem.mpr ⟨by simpa using inside, ?_, ?_⟩
  · simp [named]
  · intro j hj
    have := before j hj
    rwa [List.getElem_set_ne (by omega)]

end Finding

/-! ## Replacing the body of a method -/

/-- What `setMethodCode` did: the pool grew by the name `Code`, and the method found got
its Code attribute replaced by the payload written. -/
theorem ParsedClass.setMethodCode_eq {cf cf' : ParsedClass} {name desc : String} {code : Code}
    (h : cf.setMethodCode name desc code = .ok cf') :
    ∃ mi m data codeName ai,
      cf.findMethod name desc = .ok (mi, m) ∧ code.bytes = .ok data ∧
      cf.pool.addUtf8 "Code" = (cf'.pool, codeName) ∧
      ({ cf with pool := cf'.pool } : ParsedClass).findAttribute m.attributes "Code" = some ai ∧
      cf' = { cf with
        pool := cf'.pool
        methods := cf.methods.set mi { m with attributes := m.attributes.set ai ⟨codeName, data⟩ } } := by
  unfold ParsedClass.setMethodCode at h
  obtain ⟨⟨mi, m⟩, found, h⟩ := Except.bind_eq_ok.mp h
  dsimp only at h
  split at h
  · rename_i data written
    rcases hadd : cf.pool.addUtf8 "Code" with ⟨pool, codeName⟩
    simp only [hadd, pure, Except.pure, Except.ok_bind] at h
    split at h
    · rename_i ai hai
      obtain rfl := (Except.ok.inj h).symm
      exact ⟨mi, m, data, codeName, ai, found, written, rfl, hai, rfl⟩
    · simp at h
  · simp at h

/-- After replacing a method's body, reading its Code attribute reads the payload written. -/
theorem ParsedClass.setMethodCode_methodCode {cf cf' : ParsedClass} {name desc : String}
    {code : Code} {data : List UInt8} (h : cf.setMethodCode name desc code = .ok cf')
    (written : code.bytes = .ok data) (small : cf'.pool.count ≤ 2 ^ 16) :
    cf'.methodCode name desc = parseCode data := by
  obtain ⟨mi, m, data', codeName, ai, found, written', hadd, hai, hcf⟩ :=
    ParsedClass.setMethodCode_eq h
  have same : data' = data := Except.ok.inj (written'.symm.trans written)
  subst data'
  have added : cf.pool.add (.utf8 "Code") = (cf'.pool, codeName) := hadd
  have grown : cf.pool.Extends cf'.pool := by
    have := cf.pool.add_extends (.utf8 "Code")
    rwa [added] at this
  have hcode : cf'.pool.utf8 codeName = .ok "Code" := by
    have := Pool.add_get (p := cf.pool) (c := .utf8 "Code") (by simp) (by rw [added]; exact .refl _)
      small
    rw [added] at this
    exact Pool.utf8_eq_ok.mpr this
  have refound := ParsedClass.findMethodAt_set grown
    { m with attributes := m.attributes.set ai ⟨codeName, data⟩ } cf.methods 0 mi m found rfl rfl
  have methods : cf'.methods =
      cf.methods.set mi { m with attributes := m.attributes.set ai ⟨codeName, data⟩ } := by
    rw [hcf]
  -- the attribute search reads the pool only, and the pool is the edited class's
  have hai' : cf'.findAttribute m.attributes "Code" = some ai := by
    rw [← hai, hcf]
    rfl
  have attr := ParsedClass.findAttribute_set (a := ⟨codeName, data⟩) hai' hcode
  have inside : ai < m.attributes.length := (List.findIdx?_eq_some_iff_getElem.mp hai).1
  rw [Nat.sub_zero] at refound
  simp only [ParsedClass.methodCode, ParsedClass.findMethod, methods, refound, Except.ok_bind]
  rw [attr]
  simp [List.getD_eq_getElem?_getD, inside]

/-! ## Editing entries in place -/

section InPlace

/-- An edit of entries that keeps every entry's width, leaves the unusable slots alone and
keeps constants fitting. -/
structure SlotPreserving (g : Constant → Constant) : Prop where
  wide : ∀ c, (g c).isWide = c.isWide
  unusable : g .unusable = .unusable
  usable : ∀ c, c ≠ .unusable → g c ≠ .unusable
  fits : ∀ c, c.Fits → (g c).Fits

/-- Pointing every Class entry at one name entry keeps the slots. -/
theorem SlotPreserving.of_pointing {g : Constant → Constant} {n : Nat}
    (point : ∀ k, g (.classRef k) = .classRef n) (others : ∀ c, (∀ k, c ≠ .classRef k) → g c = c)
    (small : n < 2 ^ 16) : SlotPreserving g := by
  have cases : ∀ c, (∃ k, c = .classRef k ∧ g c = .classRef n) ∨ g c = c := by
    intro c
    cases c
    case classRef k => exact .inl ⟨k, rfl, point k⟩
    all_goals exact .inr (others _ (by simp))
  refine ⟨fun c => ?_, others _ (by simp), fun c usable => ?_, fun c fits => ?_⟩
  · rcases cases c with ⟨k, rfl, hg⟩ | hg <;> simp [hg, Constant.isWide]
  · rcases cases c with ⟨k, rfl, hg⟩ | hg <;> simp [hg, usable]
  · rcases cases c with ⟨k, rfl, hg⟩ | hg
    · rw [hg]
      exact small
    · rwa [hg]

/-- Rewriting texts into texts keeps the slots. -/
theorem SlotPreserving.of_texts {g : Constant → Constant}
    (texts : ∀ s, ∃ s', g (.utf8 s) = .utf8 s') (others : ∀ c, (∀ s, c ≠ .utf8 s) → g c = c) :
    SlotPreserving g := by
  have cases : ∀ c, (∃ s s', c = .utf8 s ∧ g c = .utf8 s') ∨ g c = c := by
    intro c
    cases c
    case utf8 s =>
      obtain ⟨s', hs'⟩ := texts s
      exact .inl ⟨s, s', rfl, hs'⟩
    all_goals exact .inr (others _ (by simp))
  refine ⟨fun c => ?_, others _ (by simp), fun c usable => ?_, fun c fits => ?_⟩
  · rcases cases c with ⟨s, s', rfl, hg⟩ | hg <;> simp [hg, Constant.isWide]
  · rcases cases c with ⟨s, s', rfl, hg⟩ | hg <;> simp [hg, usable]
  · rcases cases c with ⟨s, s', rfl, hg⟩ | hg
    · rw [hg]
      trivial
    · rwa [hg]

theorem SlotPreserving.slots {g : Constant → Constant} (h : SlotPreserving g) (c : Constant) :
    (g c).slots = c.slots.map g := by
  unfold Constant.slots
  rw [h.wide]
  split <;> simp [h.unusable]

theorem Constant.slots_of_wide {c : Constant} (h : c.isWide = true) :
    c.slots = [c, .unusable] := by
  simp [Constant.slots, h]

theorem Constant.slots_of_narrow {c : Constant} (h : c.isWide = false) : c.slots = [c] := by
  simp [Constant.slots, h]

theorem flatMap_slots_modify {g : Constant → Constant} (h : SlotPreserving g) :
    ∀ (cs : List Constant) (t : Nat), ∃ cs' : List Constant,
      (cs.flatMap Constant.slots).modify t g = cs'.flatMap Constant.slots ∧
        ∀ c' ∈ cs', c' ∈ cs ∨ ∃ c ∈ cs, c' = g c
  | [], t => ⟨[], by simp, by simp⟩
  | c :: rest, t => by
    -- a constant kept in front of the edited rest
    have keep : ∀ cs' : List Constant, (∀ c' ∈ cs', c' ∈ rest ∨ ∃ c ∈ rest, c' = g c) →
        ∀ c' ∈ c :: cs', c' ∈ c :: rest ∨ ∃ c'' ∈ c :: rest, c' = g c'' := by
      intro cs' mem c' hc'
      rcases List.mem_cons.mp hc' with rfl | later
      · exact .inl List.mem_cons_self
      · rcases mem c' later with old | ⟨c'', hc'', rfl⟩
        · exact .inl (List.mem_cons_of_mem _ old)
        · exact .inr ⟨c'', List.mem_cons_of_mem _ hc'', rfl⟩
    rw [List.flatMap_cons]
    cases hw : c.isWide with
    | false =>
      have one := Constant.slots_of_narrow hw
      cases t with
      | zero =>
        refine ⟨g c :: rest, ?_, ?_⟩
        · rw [one, List.singleton_append, List.modify_zero_cons, List.flatMap_cons,
            Constant.slots_of_narrow ((h.wide c).trans hw), List.singleton_append]
        · intro c' hc'
          rcases List.mem_cons.mp hc' with rfl | later
          · exact .inr ⟨c, List.mem_cons_self, rfl⟩
          · exact .inl (List.mem_cons_of_mem _ later)
      | succ t =>
        obtain ⟨cs', hcs', mem⟩ := flatMap_slots_modify h rest t
        refine ⟨c :: cs', ?_, keep cs' mem⟩
        rw [one, List.singleton_append, List.modify_succ_cons, hcs', List.flatMap_cons, one,
          List.singleton_append]
    | true =>
      have two := Constant.slots_of_wide hw
      cases t with
      | zero =>
        refine ⟨g c :: rest, ?_, ?_⟩
        · rw [two, List.cons_append, List.modify_zero_cons, List.flatMap_cons,
            Constant.slots_of_wide ((h.wide c).trans hw)]
          rfl
        · intro c' hc'
          rcases List.mem_cons.mp hc' with rfl | later
          · exact .inr ⟨c, List.mem_cons_self, rfl⟩
          · exact .inl (List.mem_cons_of_mem _ later)
      | succ t =>
        cases t with
        | zero =>
          -- the unusable second slot, which the edit leaves alone
          refine ⟨c :: rest, ?_, fun c' hc' => .inl hc'⟩
          rw [two, List.cons_append, List.modify_succ_cons, List.cons_append,
            List.modify_zero_cons, h.unusable, List.flatMap_cons, two]
          rfl
        | succ t =>
          obtain ⟨cs', hcs', mem⟩ := flatMap_slots_modify h rest t
          refine ⟨c :: cs', ?_, keep cs' mem⟩
          rw [two, List.cons_append, List.modify_succ_cons, List.cons_append,
            List.modify_succ_cons, List.nil_append, hcs', List.flatMap_cons, two]
          rfl

namespace Pool.WellLaid

variable {p : Pool} {g : Constant → Constant}

theorem map (h : p.WellLaid) (edit : SlotPreserving g) : (⟨p.entries.map g⟩ : Pool).WellLaid := by
  obtain ⟨cs, hentries, hfits⟩ := h
  refine ⟨cs.map g, ?_, ?_⟩
  · rw [Array.toList_map, hentries, List.map_cons, edit.unusable, List.map_flatMap,
      List.flatMap_map]
    simp [edit.slots]
  · intro c' hc'
    obtain ⟨c, hc, rfl⟩ := List.mem_map.mp hc'
    exact edit.fits c (hfits c hc)

theorem modify (h : p.WellLaid) (edit : SlotPreserving g) (t : Nat) :
    (⟨p.entries.modify t g⟩ : Pool).WellLaid := by
  obtain ⟨cs, hentries, hfits⟩ := h
  cases t with
  | zero =>
    refine ⟨cs, ?_, hfits⟩
    rw [Array.toList_modify, hentries, List.modify_zero_cons, edit.unusable]
  | succ t =>
    obtain ⟨cs', hcs', mem⟩ := flatMap_slots_modify edit cs t
    refine ⟨cs', ?_, ?_⟩
    · rw [Array.toList_modify, hentries, List.modify_succ_cons, hcs']
    · intro c' hc'
      rcases mem c' hc' with old | ⟨c, hc, rfl⟩
      · exact hfits c' old
      · exact edit.fits c (hfits c hc)

end Pool.WellLaid

theorem Pool.get_map {p : Pool} {g : Constant → Constant} {i : Nat} {c : Constant}
    (h : p.get i = .ok c) (usable : g c ≠ .unusable) : (⟨p.entries.map g⟩ : Pool).get i = .ok (g c) := by
  rw [Pool.get_eq_ok] at h ⊢
  simp [Array.getElem?_map, h.1, usable]

theorem Pool.get_modify_ne {p : Pool} {g : Constant → Constant} {t i : Nat} (ne : t ≠ i) :
    (⟨p.entries.modify t g⟩ : Pool).get i = p.get i := by
  simp [Pool.get, Array.getElem?_modify, ne]

theorem Pool.get_modify_self {p : Pool} {g : Constant → Constant} {t : Nat} {c : Constant}
    (h : p.get t = .ok c) (usable : g c ≠ .unusable) :
    (⟨p.entries.modify t g⟩ : Pool).get t = .ok (g c) := by
  rw [Pool.get_eq_ok] at h ⊢
  simp [Array.getElem?_modify, h.1, usable]

end InPlace

/-! ## Renaming -/

theorem ParsedClass.Fits.withPool {cf : ParsedClass} {P : Pool} (fits : cf.Fits)
    (laid : P.WellLaid) : ({ cf with pool := P } : ParsedClass).Fits :=
  { fits with pool := laid }

/-- The pool renaming builds from `p`: texts edited in place by `g₁`, the new name's text
added, and the class's own Class entry `t` pointed at it by `g₂`.  Within the 16-bit count,
entry `t` names `newName`, every other entry of `p` reads as `g₁` made it, and an entry past `p`
is the new name's text. -/
theorem Pool.renamed_entries {p : Pool} {g₁ g₂ : Constant → Constant} {newName : String}
    {t k : Nat} (usable : ∀ c, c ≠ .unusable → g₁ c ≠ .unusable)
    (classes : ∀ k, g₁ (.classRef k) = .classRef k)
    (point : ∀ k, g₂ (.classRef k) = .classRef ((⟨p.entries.map g₁⟩ : Pool).addUtf8 newName).2)
    (own : p.get t = .ok (.classRef k))
    (small : (⟨((⟨p.entries.map g₁⟩ : Pool).addUtf8 newName).1.entries.modify t g₂⟩ : Pool).count ≤ 2 ^ 16) :
    (⟨((⟨p.entries.map g₁⟩ : Pool).addUtf8 newName).1.entries.modify t g₂⟩ : Pool).className t =
      .ok newName ∧
    (∀ i c, p.get i = .ok c → i ≠ t →
      (⟨((⟨p.entries.map g₁⟩ : Pool).addUtf8 newName).1.entries.modify t g₂⟩ : Pool).get i =
        .ok (g₁ c)) ∧
    ∀ i c, (⟨((⟨p.entries.map g₁⟩ : Pool).addUtf8 newName).1.entries.modify t g₂⟩ : Pool).get i =
      .ok c → p.count ≤ i → c = .utf8 newName := by
  generalize hM : (⟨p.entries.map g₁⟩ : Pool) = M at point small ⊢
  rcases hadd : M.addUtf8 newName with ⟨P₁, nameIndex⟩
  rw [hadd] at point small
  dsimp only at point small ⊢
  have added : M.add (.utf8 newName) = (P₁, nameIndex) := hadd
  have sizeP₁ : P₁.count ≤ 2 ^ 16 := by simpa [Pool.count] using small
  have named : P₁.get nameIndex = .ok (.utf8 newName) := by
    have := Pool.addUtf8_get (p := M) (s := newName) (by rw [hadd]; exact .refl _) sizeP₁
    rwa [hadd] at this
  -- entries of the original pool as the pool with the name added reads them
  have mapped : ∀ i c, p.get i = .ok c → P₁.get i = .ok (g₁ c) := by
    intro i c hc
    have grown := M.addUtf8_extends newName
    rw [hadd] at grown
    apply grown.get
    rw [← hM]
    exact Pool.get_map hc (usable c (Pool.get_eq_ok.mp hc).2)
  have hk₁ : P₁.get t = .ok (.classRef k) := by
    rw [← classes k]
    exact mapped t _ own
  -- the new name's entry is a text, so it is not the class's own Class entry
  have apart : t ≠ nameIndex := by
    rintro rfl
    rw [hk₁] at named
    simp at named
  have pointed : (⟨P₁.entries.modify t g₂⟩ : Pool).get t = .ok (.classRef nameIndex) := by
    rw [← point k]
    exact Pool.get_modify_self hk₁ (by simp [point k])
  refine ⟨Pool.className_of_get pointed (by rw [Pool.get_modify_ne apart]; exact named), ?_, ?_⟩
  · intro i c hc other
    rw [Pool.get_modify_ne (Ne.symm other)]
    exact mapped i c hc
  · intro i c hc past
    -- the class's own entry is inside the old pool, so an entry past it is not edited by `g₂`
    have inside : t < p.count := (Array.getElem?_eq_some_iff.mp (Pool.get_eq_ok.mp own).1).1
    have sizeM : M.count = p.count := by
      rw [← hM]
      simp [Pool.count]
    rw [Pool.get_modify_ne (by omega)] at hc
    exact Pool.get_add_of_le (p := M) (by rw [added]; exact hc) (by omega)

/-- The pool of a renamed class: texts edited in place, the new name added, and the class's
own Class entry pointed at it.  The class's own name is then the new one, and every Class
entry that named something still names something. -/
theorem Pool.renamed {p : Pool} {g₁ g₂ : Constant → Constant} {newName : String} {t : Nat}
    (edit : SlotPreserving g₁) (classes : ∀ k, g₁ (.classRef k) = .classRef k)
    (texts : ∀ s, ∃ s', g₁ (.utf8 s) = .utf8 s')
    (point : ∀ k, g₂ (.classRef k) = .classRef ((⟨p.entries.map g₁⟩ : Pool).addUtf8 newName).2)
    (others : ∀ c, (∀ k, c ≠ .classRef k) → g₂ c = c)
    (laid : p.WellLaid) (own : ∃ old, p.className t = .ok old)
    (small : (⟨((⟨p.entries.map g₁⟩ : Pool).addUtf8 newName).1.entries.modify t g₂⟩ : Pool).count ≤ 2 ^ 16) :
    (⟨((⟨p.entries.map g₁⟩ : Pool).addUtf8 newName).1.entries.modify t g₂⟩ : Pool).WellLaid ∧
    (⟨((⟨p.entries.map g₁⟩ : Pool).addUtf8 newName).1.entries.modify t g₂⟩ : Pool).className t =
      .ok newName ∧
    (∀ i, (∃ s, p.className i = .ok s) →
      ∃ s, (⟨((⟨p.entries.map g₁⟩ : Pool).addUtf8 newName).1.entries.modify t g₂⟩ : Pool).className i =
        .ok s) ∧
    ∀ i s, p.get i = .ok (.utf8 s) →
      (⟨((⟨p.entries.map g₁⟩ : Pool).addUtf8 newName).1.entries.modify t g₂⟩ : Pool).get i =
        .ok (g₁ (.utf8 s)) := by
  obtain ⟨old, hold⟩ := own
  obtain ⟨k, hk, -⟩ := Pool.className_eq_ok.mp hold
  obtain ⟨named, kept, -⟩ := Pool.renamed_entries edit.usable classes point hk small
  have pointing : SlotPreserving g₂ :=
    SlotPreserving.of_pointing point others (Pool.add_index_lt _ _)
  refine ⟨((laid.map edit).addUtf8 newName).modify pointing t, named, ?_, ?_⟩
  · rintro i ⟨s, hs⟩
    by_cases own : i = t
    · subst own
      exact ⟨newName, named⟩
    obtain ⟨k', hk', hs'⟩ := Pool.className_eq_ok.mp hs
    obtain ⟨s', text⟩ := texts s
    -- the name's entry is a text, so it is not the class's own Class entry either
    have apart : k' ≠ t := by
      rintro rfl
      rw [hk] at hs'
      simp at hs'
    refine ⟨s', Pool.className_of_get (k := k') ?_ ?_⟩
    · rw [kept i _ hk' own, classes]
    · rw [kept k' _ hs' apart, text]
  · intro i s hs
    -- a text is not the class's own Class entry, so only the first edit reaches it
    have apart : i ≠ t := by
      rintro rfl
      rw [hk] at hs
      simp at hs
    exact kept i _ hs apart

/-- What renaming keeps and changes: the class still fits, its own name is the new one, its
superclass still has a name, and nothing but the pool changed. -/
theorem ParsedClass.rename_edited {cf cf' : ParsedClass} {newName : String}
    (h : cf.rename newName = .ok cf') (fits : cf.Fits) (super : ∃ s, cf.superName = .ok s)
    (small : cf'.pool.count ≤ 2 ^ 16) :
    cf'.Fits ∧ cf'.name = .ok newName ∧ (∃ s, cf'.superName = .ok s) ∧
      cf' = { cf with pool := cf'.pool } ∧
      ∀ old, cf.name = .ok old → ∀ i s, cf.pool.get i = .ok (.utf8 s) →
        ¬ ("L" ++ old ++ ";").toList <:+: s.toList → cf'.pool.get i = .ok (.utf8 s) := by
  unfold ParsedClass.rename at h
  split at h
  · simp at h
  obtain ⟨old, hold, h⟩ := Except.bind_eq_ok.mp h
  split at h
  · rename_i same
    obtain rfl := (Except.ok.inj h).symm
    refine ⟨fits, ?_, super, rfl, fun _ _ _ _ hs _ => hs⟩
    rw [hold, beq_iff_eq.mp same]
  dsimp only at h
  obtain rfl := (Except.ok.inj h).symm
  have renamed := Pool.renamed (t := cf.thisClass) (.of_texts ?texts ?untouched) (fun k => rfl)
    ?texts (fun k => rfl) ?others fits.pool ⟨old, hold⟩ small
  · obtain ⟨laid, named, supers, texts⟩ := renamed
    refine ⟨fits.withPool laid, named, supers cf.superClass super, rfl, ?_⟩
    intro old' hold' i s hs untouched
    obtain rfl : old = old' := Except.ok.inj (hold.symm.trans hold')
    rw [texts i s hs]
    simp only [if_neg untouched]
  case texts =>
    intro s
    dsimp only
    split
    · exact ⟨_, rfl⟩
    · exact ⟨s, rfl⟩
  case untouched =>
    intro c notText
    cases c
    case utf8 s => exact absurd rfl (notText s)
    all_goals rfl
  case others =>
    intro c notClass
    cases c
    case classRef k => exact absurd rfl (notClass k)
    all_goals rfl

/-- Replacing a method's body only adds to the pool and keeps the names and descriptors of
the methods. -/
theorem ParsedClass.setMethodCode_kept {cf cf' : ParsedClass} {name desc : String}
    {code : Code} (h : cf.setMethodCode name desc code = .ok cf') :
    cf.pool.Extends cf'.pool ∧ ∀ m' ∈ cf'.methods, ∃ m ∈ cf.methods,
      m'.nameIndex = m.nameIndex ∧ m'.descIndex = m.descIndex := by
  obtain ⟨mi, m, data, codeName, ai, found, -, hadd, -, hcf⟩ := ParsedClass.setMethodCode_eq h
  have added : cf.pool.add (.utf8 "Code") = (cf'.pool, codeName) := hadd
  refine ⟨?_, fun m' hm' => ?_⟩
  · have := cf.pool.add_extends (.utf8 "Code")
    rwa [added] at this
  · rw [hcf] at hm'
    rcases List.mem_or_eq_of_mem_set hm' with old | rfl
    · exact ⟨m', old, rfl, rfl⟩
    · exact ⟨m, (ParsedClass.findMethodAt_found _ _ _ _ found).2.1, rfl, rfl⟩

/-- What replacing a method's body keeps: the class still fits, its pool only grew, and the
names of the class and its superclass read as before. -/
theorem ParsedClass.setMethodCode_edited {cf cf' : ParsedClass} {name desc : String}
    {code : Code} (h : cf.setMethodCode name desc code = .ok cf') (fits : cf.Fits) :
    cf'.Fits ∧ (∀ s, cf.name = .ok s → cf'.name = .ok s) ∧
      (∀ s, cf.superName = .ok s → cf'.superName = .ok s) := by
  obtain ⟨mi, m, data, codeName, ai, found, -, hadd, -, hcf⟩ := ParsedClass.setMethodCode_eq h
  have added : cf.pool.add (.utf8 "Code") = (cf'.pool, codeName) := hadd
  have grown : cf.pool.Extends cf'.pool := (ParsedClass.setMethodCode_kept h).1
  have laid : cf'.pool.WellLaid := by
    have := Pool.WellLaid.addUtf8 fits.pool "Code"
    rwa [hadd] at this
  have codeNameFits : codeName < 2 ^ 16 := by
    have := cf.pool.add_index_lt (.utf8 "Code")
    rwa [added] at this
  -- the edited method is one of the class's, with one attribute's name replaced
  have member : m ∈ cf.methods := (ParsedClass.findMethodAt_found _ _ _ _ found).2.1
  have edited : Member.Fits { m with attributes := m.attributes.set ai ⟨codeName, data⟩ } := by
    obtain ⟨access, nameFits, descFits, count, attrs⟩ := fits.methods m member
    refine ⟨access, nameFits, descFits, by simpa using count, fun a ha => ?_⟩
    rcases List.mem_or_eq_of_mem_set ha with old | rfl
    · exact attrs a old
    · exact codeNameFits
  have thisClass : cf'.thisClass = cf.thisClass := by rw [hcf]
  have superClass : cf'.superClass = cf.superClass := by rw [hcf]
  refine ⟨?_, fun s hs => ?_, fun s hs => ?_⟩
  · rw [hcf]
    refine { fits.withPool laid with methodCount := ?_, methods := fun m' hm' => ?_ }
    · simpa using fits.methodCount
    · rcases List.mem_or_eq_of_mem_set hm' with old | rfl
      · exact fits.methods m' old
      · exact edited
  · unfold ParsedClass.name at hs ⊢
    rw [thisClass]
    exact grown.className hs
  · unfold ParsedClass.superName at hs ⊢
    rw [superClass]
    exact grown.className hs

/-- A class given a pool that grew from its own, and is laid out as a class file lays it
out, still fits and keeps its names. -/
theorem ParsedClass.withPool_edited {cf : ParsedClass} {P : Pool} (fits : cf.Fits)
    (grown : cf.pool.Extends P) (laid : P.WellLaid) :
    ({ cf with pool := P } : ParsedClass).Fits ∧
      (∀ s, cf.name = .ok s → ({ cf with pool := P } : ParsedClass).name = .ok s) ∧
      (∀ s, cf.superName = .ok s → ({ cf with pool := P } : ParsedClass).superName = .ok s) :=
  ⟨fits.withPool laid, fun _ hs => grown.className hs, fun _ hs => grown.className hs⟩

/-! ## The built-in template -/

/-- The methods of the built-in template, by name and descriptor. -/
def templateMethods : List (String × String) :=
  [("<init>", "()V"), ("main", "([Ljava/lang/String;)V"), ("run", "()V")]

/-- The template class fits, is named `BasProgram`, extends the runtime class and has the
three methods of `templateMethods`, as long as its pool has a 16-bit count. -/
theorem builtinTemplateClass_edited {runtimeClass : String} {major : Nat} {cf : ParsedClass}
    (h : builtinTemplateClass runtimeClass major = .ok cf) (small : cf.pool.count ≤ 2 ^ 16) :
    cf.Fits ∧ cf.name = .ok templateName ∧ cf.superName = .ok runtimeClass ∧
      ∀ m ∈ cf.methods, ∃ name desc, (name, desc) ∈ templateMethods ∧
        cf.pool.get m.nameIndex = .ok (.utf8 name) ∧ cf.pool.get m.descIndex = .ok (.utf8 desc) := by
  unfold builtinTemplateClass at h
  split at h
  · simp at h
  simp only [List.foldl, List.nil_append, List.cons_append, pure, Except.pure, Except.ok.injEq] at h
  subst h
  refine ⟨⟨by simp, Nat.mod_lt _ (by decide), ?_, by simp [accPublic, accSuper], Pool.add_index_lt _ _,
    Pool.add_index_lt _ _, by simp, by simp, by simp, by simp, by simp, ?_, by simp, by simp⟩,
    Pool.addClass_className ?_ small, Pool.addClass_className ?_ small, ?_⟩
  · repeat (first
      | exact Pool.WellLaid.empty
      | apply Pool.WellLaid.addUtf8
      | apply Pool.WellLaid.addMethodref
      | apply Pool.WellLaid.addClass)
  · simp only [List.mem_cons, List.not_mem_nil, or_false]
    rintro m (rfl | rfl | rfl) <;>
      exact ⟨by simp [accPublic, accStatic], Pool.add_index_lt _ _, Pool.add_index_lt _ _, by simp,
        fun a ha => by rw [List.mem_singleton.mp ha]; exact Pool.add_index_lt _ _⟩
  -- the three methods, whose names and descriptors are texts added on the way
  rotate_left 2
  simp only [List.mem_cons, List.not_mem_nil, or_false]
  rintro m (rfl | rfl | rfl) <;> [
    refine ⟨"<init>", "()V", by simp [templateMethods], Pool.addUtf8_get ?_ small,
      Pool.addUtf8_get ?_ small⟩;
    refine ⟨"main", "([Ljava/lang/String;)V", by simp [templateMethods], Pool.addUtf8_get ?_ small,
      Pool.addUtf8_get ?_ small⟩;
    refine ⟨"run", "()V", by simp [templateMethods], Pool.addUtf8_get ?_ small,
      Pool.addUtf8_get ?_ small⟩]
  -- every name and text was added on the way, and every later addition only grows the pool
  all_goals
    repeat (first
      | with_reducible exact Pool.Extends.refl _
      | with_reducible refine Pool.Extends.trans ?_ (Pool.addUtf8_extends _ _)
      | with_reducible refine Pool.Extends.trans ?_ (Pool.addMethodref_extends _ _ _ _)
      | with_reducible refine Pool.Extends.trans ?_ (Pool.addClass_extends _ _))

end BasicJvm.ClassFile
