import BasicJvm.Console.Session
import BasicJvm.Tools.Config
import BasicJvm.Text.Utf8

/-!
# Loading configurations and running classes

Two steps that the compiler's `--run` and the class runner share.

* `loadConfigFile` reads a TOML file over the defaults.  A problem at a line of the file is
  reported after the file's name (`cfg.toml, line 2: …`); a file that cannot be read, or
  values that make no sense, are reported as they are.
* `runClass` runs class bytes with the answers to `INPUT` taken from standard input, one
  line each: it writes the program's output, then the log of the run, and fails with the
  fault that stopped the run, if any.
-/

namespace BasicJvm.Tools

open BasicJvm.Console

/-- Read a configuration file over the defaults. -/
def loadConfigFile (file : String) : Session Config := do
  match ← readBytes file with
  | .error e => fail e.message
  | .ok bytes =>
    match Config.defaults.read (Text.ofUtf8 bytes) with
    | .ok c => pure c
    | .error e => fail (if e.hasLine then file ++ ", " ++ e.message else e.message)

/-- How a configuration runs a class, with answers from standard input. -/
def runOptions (c : Config) (input : String) : Vm.RunOptions :=
  ⟨some (Vm.answerLines input), c.runtime.seed, c.runtime.printZoneWidth, c.runtime.maxSteps⟩

/-- Run class bytes: print the output and log the run; fail with the fault that stopped
it. -/
def runClass (bytes : List UInt8) (opts : Vm.RunOptions) : Session Unit := do
  match Vm.loadClass bytes with
  | .error e => fail e.message
  | .ok loaded =>
    let r := loaded.run opts
    say r.output
    logRecords r.logs
    match r.fault with
    | some e => fail e.message
    | none => pure ()

end BasicJvm.Tools
