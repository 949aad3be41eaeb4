import BasicJvm.Proofs.ClassFile.Editing

/-!
# What renaming a class rewrites

`ParsedClass.rename` edits the pool in three steps: every text entry holding `L<old>;` has
each occurrence replaced by `L<new>;`, the new name's text is added (or found), and the
class's own Class entry is pointed at it.  `ParsedClass.rename_rewrites` describes the
result entry by entry, for a class whose own name resolves and whose pool has room for one
more entry.

The replacement works on the characters of each text (`replaceFrom`), not on the class names
a descriptor mentions: a descriptor naming another class whose name ends in the old one is
rewritten too, and so is the text of a string constant (`rename_rewrites_longerName`).

The proof names the two edits the model writes inline (`Constant.renameText`,
`Constant.pointAt`, with `ParsedClass.rename_eq_ok`) and reads the edited pool through
`Pool.renamed_entries`, which needs nothing of the pool's layout.
-/

namespace BasicJvm.ClassFile

/-! ## Replacing text -/

/-- Characters with no occurrence of a non-empty pattern are left as they are. -/
theorem replaceFrom_of_absent {old new : List Char} (nonempty : old ≠ []) :
    ∀ {cs : List Char}, ¬ old <:+: cs → replaceFrom old new 0 cs = cs
  | [], _ => by simp [replaceFrom, nonempty]
  | c :: cs, absent => by
    have here : ¬ old <+: c :: cs := fun h => absent h.isInfix
    have later : ¬ old <:+: cs := fun h => absent (h.trans (List.suffix_cons c cs).isInfix)
    simp [replaceFrom, nonempty, here, replaceFrom_of_absent nonempty later]

/-- A text with no occurrence of a non-empty pattern is left as it is. -/
theorem replaceAll_of_absent {s old new : String} (nonempty : old.toList ≠ [])
    (absent : ¬ old.toList <:+: s.toList) : replaceAll s old new = s := by
  rw [replaceAll, replaceFrom_of_absent nonempty absent, String.ofList_toList]

/-! ## The name check -/

/-- A name that is not empty and holds none of `.`, `;` and `[` passes the check renaming
makes. -/
theorem renameCheck_eq_false {n : String} (named : n ≠ "")
    (plain : ∀ c ∈ n.toList, c ≠ '.' ∧ c ≠ ';' ∧ c ≠ '[') :
    (n.isEmpty || n.any fun c => c == '.' || c == ';' || c == '[') = false := by
  have empty : n.isEmpty = false := by simpa using named
  rw [empty, Bool.false_or, String.any, String.contains_bool_eq, List.any_eq_false]
  intro c hc
  obtain ⟨dot, semi, bracket⟩ := plain c hc
  simp [dot, semi, bracket]

/-! ## The two edits of the pool -/

-- The infix test is the one renaming itself is written with, so the edit below unfolds to it.
attribute [local instance (high)] List.instDecidableIsInfixOfDecidableEq

/-- The edit renaming makes to every entry: a text that holds `oldRef` has it replaced by
`newRef`, and every other entry stays. -/
def Constant.renameText (oldRef newRef : String) : Constant → Constant
  | .utf8 s => if oldRef.toList <:+: s.toList then .utf8 (replaceAll s oldRef newRef) else .utf8 s
  | c => c

/-- The edit renaming makes to the class's own Class entry: it names the entry `k`. -/
def Constant.pointAt (k : Nat) : Constant → Constant
  | .classRef _ => .classRef k
  | c => c

/-- For a non-empty `oldRef`, a text is edited by replacing `oldRef` everywhere in it. -/
theorem Constant.renameText_utf8 {oldRef newRef s : String} (nonempty : oldRef.toList ≠ []) :
    Constant.renameText oldRef newRef (.utf8 s) = .utf8 (replaceAll s oldRef newRef) := by
  rw [Constant.renameText]
  split_ifs with present
  · rfl
  · rw [replaceAll_of_absent nonempty present]

theorem Constant.renameText_of_ne {oldRef newRef : String} {c : Constant}
    (notText : ∀ s, c ≠ .utf8 s) : Constant.renameText oldRef newRef c = c := by
  cases c
  case utf8 s => exact absurd rfl (notText s)
  all_goals rfl

/-! ## Renaming a class -/

/-- Renaming a class named `old` to a different, well-formed name gives the class with its
pool edited by `Constant.renameText` and `Constant.pointAt`. -/
theorem ParsedClass.rename_eq_ok {cf : ParsedClass} {old n : String}
    (hold : cf.name = .ok old) (differ : old ≠ n) (named : n ≠ "")
    (plain : ∀ c ∈ n.toList, c ≠ '.' ∧ c ≠ ';' ∧ c ≠ '[') :
    cf.rename n = .ok { cf with
      pool := ⟨((⟨cf.pool.entries.map (Constant.renameText ("L" ++ old ++ ";") ("L" ++ n ++ ";"))⟩
          : Pool).addUtf8 n).1.entries.modify cf.thisClass (Constant.pointAt
        ((⟨cf.pool.entries.map (Constant.renameText ("L" ++ old ++ ";") ("L" ++ n ++ ";"))⟩
          : Pool).addUtf8 n).2)⟩ } := by
  unfold ParsedClass.rename
  rw [renameCheck_eq_false named plain]
  simp only [Bool.false_eq_true, if_false, hold, bind, Except.bind, beq_false_of_ne differ, pure,
    Except.pure]
  -- the model writes both edits as functions of its own: they agree with these case by case
  congr
  · funext c
    cases c <;> rfl
  · funext c
    cases c
    case classRef k =>
      show Constant.classRef _ = Constant.classRef _
      congr
      funext c
      cases c <;> rfl
    all_goals rfl

/-- Renaming a class named `old` to a different name `n` that is not empty and holds none of
`.`, `;` and `[`, when its pool has room for one more entry, succeeds.  Only the pool changes,
and entry by entry it is:

* at the class's own Class entry, the name `n`, so every field or method reference through
  that entry now has owner `n`;
* at a text entry, the text with every occurrence of `L<old>;` replaced by `L<n>;`, whatever
  the text is used for: a descriptor, the text of a string constant, or a reference to another
  class whose name ends in `old`;
* at every other entry of the old pool, the entry as it was;
* past the old pool, the text `n`. -/
theorem ParsedClass.rename_rewrites {cf : ParsedClass} {old n : String}
    (hold : cf.name = .ok old) (differ : old ≠ n) (named : n ≠ "")
    (plain : ∀ c ∈ n.toList, c ≠ '.' ∧ c ≠ ';' ∧ c ≠ '[') (room : cf.pool.count < 2 ^ 16) :
    ∃ cf', cf.rename n = .ok cf' ∧ cf' = { cf with pool := cf'.pool } ∧ cf'.name = .ok n ∧
      (∀ i s, cf.pool.get i = .ok (.utf8 s) →
        cf'.pool.get i = .ok (.utf8 (replaceAll s ("L" ++ old ++ ";") ("L" ++ n ++ ";")))) ∧
      (∀ i c, cf.pool.get i = .ok c → (∀ s, c ≠ .utf8 s) → i ≠ cf.thisClass →
        cf'.pool.get i = .ok c) ∧
      ∀ i c, cf'.pool.get i = .ok c → cf.pool.count ≤ i → c = .utf8 n := by
  obtain ⟨k, own, _⟩ := Pool.className_eq_ok.mp hold
  have nonempty : ("L" ++ old ++ ";").toList ≠ [] := by simp
  have edit : SlotPreserving (Constant.renameText ("L" ++ old ++ ";") ("L" ++ n ++ ";")) :=
    .of_texts (fun s => ⟨_, Constant.renameText_utf8 nonempty⟩) fun c => Constant.renameText_of_ne
  obtain ⟨renamedName, kept, past⟩ := @Pool.renamed_entries cf.pool
    (Constant.renameText ("L" ++ old ++ ";") ("L" ++ n ++ ";")) (Constant.pointAt _) n cf.thisClass k
    edit.usable (fun _ => rfl) (fun _ => rfl) own (by
      -- the pool grows by the new name's text at most
      have grows := Pool.add_count_le (p := ⟨cf.pool.entries.map
        (Constant.renameText ("L" ++ old ++ ";") ("L" ++ n ++ ";"))⟩) (c := .utf8 n) rfl
      simp only [Pool.addUtf8, Pool.count, Array.size_modify, Array.size_map] at grows room ⊢
      omega)
  refine ⟨_, ParsedClass.rename_eq_ok hold differ named plain, rfl, renamedName, ?_, ?_, past⟩
  · intro i s hs
    -- a text is not the class's own Class entry
    have apart : i ≠ cf.thisClass := by
      rintro rfl
      rw [own] at hs
      simp at hs
    rw [kept i _ hs apart, Constant.renameText_utf8 nonempty]
  · intro i c hc notText apart
    rw [kept i c hc apart, Constant.renameText_of_ne notText]

/-- The class `A` of version 52 with one abstract method `m(LBLA;)V`, whose argument is of
the class `BLA`. -/
def abstractA : ParsedClass :=
  ⟨0, 52, ⟨#[.unusable, .utf8 "A", .classRef 1, .utf8 "(LBLA;)V", .utf8 "m"]⟩, 1, 2, 0, [], [],
    [⟨0x401, 4, 3, []⟩], []⟩

/-- `abstractA` renamed to `B`. -/
theorem rename_rewrites_abstractA :
    (abstractA.name = .ok "A" ∧ "A" ≠ "B" ∧ "B" ≠ "" ∧
      (∀ c ∈ "B".toList, c ≠ '.' ∧ c ≠ ';' ∧ c ≠ '[') ∧ abstractA.pool.count < 2 ^ 16) ∧
    ∃ cf', abstractA.rename "B" = .ok cf' ∧ cf' = { abstractA with pool := cf'.pool } ∧
      cf'.name = .ok "B" ∧
      (∀ i s, abstractA.pool.get i = .ok (.utf8 s) →
        cf'.pool.get i = .ok (.utf8 (replaceAll s ("L" ++ "A" ++ ";") ("L" ++ "B" ++ ";")))) ∧
      (∀ i c, abstractA.pool.get i = .ok c → (∀ s, c ≠ .utf8 s) → i ≠ abstractA.thisClass →
        cf'.pool.get i = .ok c) ∧
      ∀ i c, cf'.pool.get i = .ok c → abstractA.pool.count ≤ i → c = .utf8 "B" := by
  have hold : abstractA.name = .ok "A" := by decide
  have differ : "A" ≠ "B" := by decide
  have named : "B" ≠ "" := by decide
  have plain : ∀ c ∈ "B".toList, c ≠ '.' ∧ c ≠ ';' ∧ c ≠ '[' := by simp
  have room : abstractA.pool.count < 2 ^ 16 := by decide
  exact ⟨⟨hold, differ, named, plain, room⟩,
    ParsedClass.rename_rewrites hold differ named plain room⟩

/-- Renaming `A` to `B` in the class read from these bytes, `abstractA`: the descriptor
`(LBLA;)V` becomes `(LBLB;)V`, since `LA;` is replaced wherever it occurs. -/
theorem rename_rewrites_longerName :
    parseClass [0xCA, 0xFE, 0xBA, 0xBE, 0, 0, 0, 0x34, 0, 5, 1, 0, 1, 0x41, 7, 0, 1, 1, 0, 8,
        0x28, 0x4C, 0x42, 0x4C, 0x41, 0x3B, 0x29, 0x56, 1, 0, 1, 0x6D, 0, 1, 0, 2, 0, 0, 0, 0,
        0, 0, 0, 1, 4, 1, 0, 4, 0, 3, 0, 0, 0, 0] = .ok abstractA ∧
    ∃ cf', abstractA.rename "B" = .ok cf' ∧ cf'.pool.get 3 = .ok (.utf8 "(LBLB;)V") := by
  refine ⟨by decide +kernel, _, @ParsedClass.rename_eq_ok abstractA "A" "B" (by decide) (by decide)
    (by decide) (by simp), by decide +kernel⟩

end BasicJvm.ClassFile
