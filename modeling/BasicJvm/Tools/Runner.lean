import BasicJvm.Tools.Build

/-!
# The class runner

`basrun <Program.class>` runs a compiled class.  It needs exactly one argument.  Its log
shows records up to `--verbosity` (warnings by default; the configuration file's verbosity
plays no part).  The run takes the `[Runtime]` settings of the defaults or of the `--config`
file, each replaced by `--seed`, `--zone` or `--maxsteps` when that flag is given; the
answers to `INPUT` come from standard input.
-/

namespace BasicJvm.Tools

open BasicJvm.Console

/-- The runner's `--seed`. -/
def runnerSeedFlag : Flag := ⟨["seed"], "RND seed (0 picks one from the clock)", .number 0⟩

/-- The flag `--zone`. -/
def zoneFlag : Flag := ⟨["zone"], "Print zone width", .number Vm.defaultZoneWidth⟩

/-- The flag `--maxsteps`. -/
def maxStepsFlag : Flag :=
  ⟨["maxsteps"], "Abort after this many instructions (0 means no limit)", .number 0⟩

/-- The level of warnings, the runner's default verbosity. -/
def warnVerbosity : Int := Log.Level.warn.rank

/-- The runner program. -/
def runnerApp : App where
  name := "basrun"
  usage := "Run a compiled BASIC class file"
  version := "0.0.0"
  argsUsage := "<Program.class>"
  flags := [configFlag, runnerSeedFlag, zoneFlag, maxStepsFlag, verbosityFlag warnVerbosity]
  commands := []

/-- Run the class a runner's arguments name. -/
def runnerAction (flags : FlagSet) : Session Unit := do
  let file ← match flags.args with
    | [file] => pure file
    | _ => fail "need exactly one class file"
  setVerbosity (flags.number "verbosity")
  let config := flags.text "config"
  let c ← if config.isEmpty then pure Config.defaults else loadConfigFile config
  let c := if flags.isSet "seed" then { c with runtime.seed := flags.number "seed" } else c
  let c := if flags.isSet "zone" then { c with runtime.printZoneWidth := flags.number "zone" } else c
  let c := if flags.isSet "maxsteps" then { c with runtime.maxSteps := flags.number "maxsteps" } else c
  let bytes ← match ← readBytes file with
    | .ok bytes => pure bytes
    | .error e => fail e.message
  runClass bytes (runOptions c (← get).input)

/-- Run the runner program on its arguments. -/
def runnerMain (args : List String) : Session Unit :=
  runnerApp.start args (fun _ _ _ => pure ()) (some runnerAction)

end BasicJvm.Tools
