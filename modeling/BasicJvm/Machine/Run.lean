import BasicJvm.Machine.Step
import BasicJvm.ClassFile.Reader

/-!
# Running a class

`loadClass` reads class bytes and names the class and its superclass.  `Loaded.run` runs its
method `run()V` on a fresh machine: the print column at zero, the random source seeded, no
arrays, the DATA pool the array with no place, and no field set.

Each turn of the loop (`Machine.runFor`) runs one instruction of the innermost activation,
and counts it first: the count past the step limit stops the run before the instruction
runs.  An activation whose instructions have run out stops the run ("fell off the end"), at
the call that started it.  When an activation returns, its caller goes on after the call,
with a null result pushed when the call expects one; when `run` returns, the run is over.

A runtime error is placed at the instruction that was running when it happened.  The
result of a run is its output, the number of instructions counted, the fault if the run
stopped early, and the log: each method decoded, then the end of the program.
-/

-- Powers use the core `NatPow` instance also where an algebra library is loaded, so that
-- the definitions below elaborate to the same terms in every build.
attribute [local instance (high)] instPowNat

namespace BasicJvm.Vm

open BasicJvm.ClassFile BasicJvm.Bytecode BasicJvm.Number

/-- How a run is set up. -/
structure RunOptions where
  /-- The answers to `INPUT`; `none` when there is no source of answers. -/
  input : Option Answers
  /-- The seed of the random source. -/
  seed : Int
  /-- The width of a print zone; zero or less means the default. -/
  zoneWidth : Int
  /-- The most instructions to run; zero or less means no limit. -/
  maxSteps : Int

/-- The print zone width when none is given. -/
def defaultZoneWidth : Nat := 14

/-- The settings of a run with these options. -/
def RunOptions.settings (o : RunOptions) : Settings :=
  ⟨if o.zoneWidth ≤ 0 then defaultZoneWidth else o.zoneWidth.toNat,
    if o.maxSteps ≤ 0 then 0 else o.maxSteps.toNat⟩

/-- What a run gave. -/
structure RunResult where
  output : String
  steps : Nat
  fault : Option Fault
  logs : List Log.Record

/-- Read class bytes and name the class and its superclass. -/
def loadClass (bytes : List UInt8) : Except Fault Loaded := do
  let cf ← (parseClass bytes).mapError .classFile
  let name ← cf.name.mapError .classFile
  let super ← cf.superName.mapError .classFile
  pure ⟨cf, name, super⟩

/-- A fresh machine for a class. -/
def Loaded.start (l : Loaded) (o : RunOptions) : Machine where
  settings := o.settings
  loaded := l
  methods := #[]
  frames := []
  heap := #[]
  data := .noObjects
  dataPtr := 0
  fields := []
  column := 0
  output := ""
  random := Random.seeded o.seed
  lastDraw := Single.zero
  steps := 0
  input := o.input
  logs := #[]

/-- The place of the innermost activation that is at an instruction. -/
def placeOf : List Frame → Option Place
  | [] => none
  | f :: rest =>
    match f.method.code[f.pc]? with
    | some d => some ⟨f.method.site, d.offset⟩
    | none => placeOf rest

/-- An activation's caller after the call returned. -/
def Frame.resume (caller : Frame) (givesResult : Bool) : Frame :=
  { caller with
    pc := caller.pc + 1
    stack := if givesResult then .null :: caller.stack else caller.stack }

/-- Run at most `fuel` instructions; the fault, if the run stopped early. -/
def Machine.runFor : Nat → Machine → Machine × Option Fault
  | 0, m => (m, some (.runtime (.stepLimit m.steps) (placeOf m.frames)))
  | fuel + 1, m =>
    match m.frames with
    | [] => (m, none)
    | f :: rest =>
      match f.method.code[f.pc]? with
      | none => (m, some (.runtime (.fellOff f.method.site) (placeOf rest)))
      | some d =>
        let here : Place := ⟨f.method.site, d.offset⟩
        let m := { m with steps := m.steps + 1 }
        if 0 < m.settings.maxSteps && m.settings.maxSteps < m.steps then
          (m, some (.runtime (.stepLimit m.settings.maxSteps) (some here)))
        else
          match ((execute f d).run.run { m with frames := rest }) with
          | (.ok (.next f'), m') => Machine.runFor fuel { m' with frames := f' :: rest }
          | (.ok (.call f' callee), m') =>
            Machine.runFor fuel { m' with frames := callee :: f' :: rest }
          | (.ok .done, m') =>
            match rest with
            | [] => (m', none)
            | caller :: outer =>
              Machine.runFor fuel { m' with frames := caller.resume f.givesResult :: outer }
          | (.error e, m') => ({ m' with frames := f :: rest }, some (e.placeAt here))

/-- Enough turns of the loop for any run: with a step limit, one more than the limit and
one to stop; without one, more than any run can take. -/
def Settings.fuel (s : Settings) : Nat := if 0 < s.maxSteps then s.maxSteps + 2 else 2 ^ (64 : Nat)

/-- The log record of the end of a run. -/
def finishedRecord (l : Loaded) (m : Machine) (fault : Option Fault) : Log.Record :=
  ⟨.debug, "Program finished", [("class", .text l.name), ("steps", .int m.steps),
    ("elapsed", .duration), ("err", (fault.map fun e => .text e.message).getD .none)]⟩

/-- Run the method `run()V` of a loaded class. -/
def Loaded.run (l : Loaded) (o : RunOptions) : RunResult :=
  match (methodFor "run" "()V").run.run (l.start o) with
  | (.error e, m) => ⟨m.output, m.steps, some e, m.logs.toList⟩
  | (.ok main, m) =>
    let locals := (Array.replicate (max main.maxLocals 1) Value.null).set! 0 .program
    let m := { m with frames := [⟨main, 0, [], locals, false⟩] }
    let (m, fault) := m.runFor m.settings.fuel
    ⟨m.output, m.steps, fault, (m.logs.push (finishedRecord l m fault)).toList⟩

end BasicJvm.Vm
