import BasicJvm.Compiler.Emit
import BasicJvm.Machine.Run
import BasicJvm.Proofs.ClassFile.Editing
import BasicJvm.Proofs.Bytecode.Layout

/-!
# The emitted class, loaded

A plan's class file is the built-in template with its name changed, the constants of the
body added to its pool and the body put in as the code of `run`.  Every edit keeps the
class readable (`Proofs/ClassFile/Editing`), and the final check that the pool has a 16-bit
count bounds every pool along the way, since each one grew into the next.  So the machine
loads the bytes back as the edited class itself (`Plan.emit_loaded`): named as asked, with
the runtime class as its superclass, the assembled body as the code of `run`, and every
constant the body refers to still in its pool.
-/

namespace BasicJvm.Compiler

open BasicJvm.Bytecode BasicJvm.ClassFile BasicJvm.Vm

/-- The built-in template, read back from its bytes, is the template class. -/
theorem builtinTemplate_parsed {runtimeClass : String} {major : Nat} {template : List UInt8}
    (h : builtinTemplate runtimeClass major = .ok template) :
    ∃ cf, parseClass template = .ok cf ∧ cf.Fits ∧ cf.name = .ok templateName ∧
      cf.superName = .ok runtimeClass ∧
      ∀ m ∈ cf.methods, ∃ name desc, (name, desc) ∈ templateMethods ∧
        cf.pool.get m.nameIndex = .ok (.utf8 name) ∧ cf.pool.get m.descIndex = .ok (.utf8 desc) := by
  unfold builtinTemplate at h
  obtain ⟨cf, built, written⟩ := Except.bind_eq_ok.mp h
  have small := ParsedClass.bytes_count written
  obtain ⟨fits, named, super, methods⟩ := builtinTemplateClass_edited built (by omega)
  exact ⟨cf, parseClass_bytes fits named written, fits, named, super, methods⟩

/-- No name or descriptor of a template method mentions the template class, so renaming
leaves them as they are. -/
theorem templateMethods_unrenamed :
    ∀ nd ∈ templateMethods, ¬ ("L" ++ templateName ++ ";").toList <:+: nd.1.toList ∧
      ¬ ("L" ++ templateName ++ ";").toList <:+: nd.2.toList := by
  decide +kernel

/-- What the machine sees of a plan emitted into the built-in template: the class it loads,
the code of `run` as assembled, a pool holding every constant the assembly added, and no
methods but the template's. -/
structure EmittedClass (p : Plan) (className : String) (out : List UInt8) where
  code : List Instr
  instructions : p.instructions className = .ok code
  pool : Pool
  assembled : Assembled
  assembly : AssemblyRun pool className code assembled
  loaded : Loaded
  loads : loadClass out = .ok loaded
  named : loaded.name = className
  runCode : loaded.cf.methodCode "run" "()V" = .ok assembled.code
  poolKept : assembled.pool.Extends loaded.cf.pool
  methods : ∀ name desc r, loaded.cf.findMethod name desc = .ok r → (name, desc) ∈ templateMethods

/-- A plan emitted into the built-in template loads back as the edited class. -/
theorem Plan.emit_loaded {p : Plan} {className runtimeClass : String} {major : Nat}
    {template out : List UInt8} {logs : List Log.Record}
    (built : builtinTemplate runtimeClass major = .ok template)
    (h : p.emit className template = .ok (out, logs)) : Nonempty (EmittedClass p className out) := by
  obtain ⟨T, parsedT, fitsT, namedT, superT, methodsT⟩ := builtinTemplate_parsed built
  unfold Plan.emit at h
  dsimp only at h
  split at h
  rotate_left
  · simp [problem] at h
  rename_i cf₀ parsed
  simp only [pure_bind] at h
  split at h
  rotate_left
  · simp [problem] at h
  split at h
  rotate_left
  · simp [problem] at h
  rename_i cf₁ renamed
  obtain ⟨code, instrs, h⟩ := Except.bind_eq_ok.mp h
  split at h
  rotate_left
  all_goals try (simp [problem] at h; done)
  rename_i a assembled
  split at h
  rotate_left
  · simp [problem] at h
  rename_i cf₃ set
  split at h
  · simp [problem] at h
  rename_i notOverflowed
  split at h
  rotate_left
  · simp [problem] at h
  rename_i out' written
  simp only [pure, Except.pure, Except.ok.injEq, Prod.mk.injEq] at h
  obtain ⟨rfl, -⟩ := h
  obtain rfl : cf₀ = T := Except.ok.inj (parsed.symm.trans parsedT)
  obtain ⟨run⟩ := assemble_run assembled
  -- every pool along the way grew into the last one, whose count the emitter checked
  have grown₂ : cf₁.pool.Extends a.pool := run.grows.grown
  have grown₃ : a.pool.Extends cf₃.pool := (ParsedClass.setMethodCode_kept set).1
  have small₃ : cf₃.pool.count ≤ 2 ^ 16 := by
    have := ParsedClass.bytes_count written
    omega
  have small₁ : cf₁.pool.count ≤ 2 ^ 16 :=
    Nat.le_trans (grown₂.trans grown₃).count_le small₃
  obtain ⟨fits₁, named₁, ⟨super, super₁⟩, same₁, texts⟩ :=
    ParsedClass.rename_edited renamed fitsT ⟨runtimeClass, superT⟩ small₁
  obtain ⟨fits₂, named₂, super₂⟩ :=
    ParsedClass.withPool_edited fits₁ grown₂ (run.grows.laid fits₁.pool)
  obtain ⟨fits₃, named₃, super₃⟩ := ParsedClass.setMethodCode_edited set fits₂
  have name₃ : cf₃.name = .ok className := named₃ _ (named₂ _ named₁)
  have loads : loadClass out' = .ok ⟨cf₃, className, super⟩ := by
    unfold loadClass
    rw [parseClass_bytes fits₃ name₃ written]
    simp only [Except.mapError, bind, Except.bind]
    rw [name₃, super₃ _ (super₂ _ super₁)]
    rfl
  -- the run method's Code attribute holds the assembled body
  have runCode : cf₃.methodCode "run" "()V" = .ok a.code := by
    obtain ⟨-, -, data, -, -, -, bodyBytes, -⟩ := ParsedClass.setMethodCode_eq set
    rw [ParsedClass.setMethodCode_methodCode set bodyBytes small₃]
    exact parseCode_bytes run.codeFits bodyBytes
  -- a method of the final class has the indexes of a template method, whose texts renaming
  -- and growth both kept
  have methods : ∀ name desc r, cf₃.findMethod name desc = .ok r → (name, desc) ∈ templateMethods := by
    rintro name desc ⟨j, m⟩ found
    obtain ⟨-, mem, hname, hdesc⟩ := ParsedClass.findMethodAt_found _ _ _ _ found
    obtain ⟨m₀, mem₀, sameName, sameDesc⟩ := (ParsedClass.setMethodCode_kept set).2 m mem
    have mem₀' : m₀ ∈ cf₀.methods := by
      rw [same₁] at mem₀
      exact mem₀
    obtain ⟨n, d, listed, hn, hd⟩ := methodsT m₀ mem₀'
    obtain ⟨nKept, dKept⟩ := templateMethods_unrenamed (n, d) listed
    have hn₃ := grown₃.get (grown₂.get (texts templateName namedT _ _ hn nKept))
    have hd₃ := grown₃.get (grown₂.get (texts templateName namedT _ _ hd dKept))
    rw [← sameName] at hn₃
    rw [← sameDesc] at hd₃
    rw [Pool.utf8_eq_ok] at hname hdesc
    obtain rfl : n = name := by simpa using hn₃.symm.trans hname
    obtain rfl : d = desc := by simpa using hd₃.symm.trans hdesc
    exact listed
  exact ⟨⟨code, instrs, cf₁.pool, a, run, ⟨cf₃, className, super⟩, loads, rfl, runCode, grown₃,
    methods⟩⟩

end BasicJvm.Compiler
