import TierCheck.CommandLine.Run
/-!
# The program

Reads the command line and the environment, and prints and writes what comes of it. This build has
no way to start a process, so every launch fails; listing scenarios and all that is checked before
the first launch work.
-/

namespace TierCheck

/-- The variables that are read. -/
def environmentKeys : List String :=
  ["TIERPROBE_SUT", "TIERPROBE_SUT_ARGS", "TIERPROBE_SCHEDULE", "TIERPROBE_FLOAT_TOLERANCE",
    "TIERPROBE_CORRUPTION_THRESHOLD", "TIERPROBE_TIMEOUT_SECS", "TIERPROBE_REGISTER_ARG_LIMIT",
    "TIERPROBE_CHUNK_BYTES", "TIERPROBE_STABILITY_RUNS", "TIERPROBE_FILTER",
    "TIERPROBE_ADVISORY"]

/-- A launcher that starts nothing. -/
def noLauncher : Launcher Unit where
  launch world _ _ _ := (.error (.unspawned "Operation not supported (os error 95)"), world)

def readEnvironment : IO Environment := do
  let texts ← environmentKeys.filterMapM fun key => do
    return (← IO.getEnv key).map fun text => (key, text)
  return fun key => (texts.find? fun (other, _) => other = key).map (·.2)

/-- Writes the report, if there is one, and gives the effect that is left. -/
def storeReport (effect : Effect) : IO Effect := do
  match effect.report with
  | none => return effect
  | some file =>
    try
      let directory := Path.parent file.path
      if directory ≠ "" then IO.FS.createDirAll directory
      IO.FS.writeFile file.path file.text
      return effect
    catch e => return effect.withoutReport (toString e)

end TierCheck

/-- The program for the words of its command line. -/
def main (words : List String) : IO UInt32 := do
  let env ← TierCheck.readEnvironment
  let effect := TierCheck.CommandLine.execute TierCheck.noLauncher () env words
  let effect ← TierCheck.storeReport effect
  IO.print effect.output
  if let some diagnosis := effect.diagnosis then IO.eprintln diagnosis
  return effect.exitCode.toUInt32
