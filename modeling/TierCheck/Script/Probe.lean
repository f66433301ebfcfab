import TierCheck.Scenario.Basic
import TierCheck.Script.Code
/-!
# Probes

A probe is a script for the subject with what has to be known about it: the scenario it is for and
the checkpoints it reports. The script of a scenario defines the scenario's function, puts every
argument into a variable of its own, and calls the function in one loop per checkpoint. After a
loop it reports the last result; if a call throws it reports that and stops.

The timing probe has no checkpoints. It calls a small function in batches of 1, 2, 4, … calls until
a number of calls is reached, and reports after each batch how long it took.

* `Probe.ofScenario`: the probe of a scenario.
* `Probe.fileName`: the file it is written to.
* `Script.timing`: the timing probe.
-/

namespace TierCheck

structure Probe where
  /-- The scenario the script is for. -/
  id : String
  /-- The names of the checkpoints it reports, in order. -/
  checkpoints : List String
  source : String
deriving DecidableEq, Repr, Inhabited

namespace Probe

/-- The character that stands for `c` in a file name. -/
def fileNameCharacter (c : Char) : Char := if c.isAlphanum || c = '-' then c else '_'

/-- The name of the script's file without its extension. -/
def fileStem (p : Probe) : String := String.ofList (p.id.toList.map fileNameCharacter)

/-- The name of the script's file. -/
def fileName (p : Probe) : String := p.fileStem ++ ".js"

/-- The line that opens every script. -/
def header (id : String) : String := "// tierprobe scenario: " ++ id

/-- The line that announces a checkpoint. -/
def checkpointHeader (name : String) : String := "// checkpoint: " ++ name

def argumentName (set place : Nat) : String :=
  "__tp_a" ++ naturalText set ++ "_" ++ naturalText place

def setDeclarations (set : List Value) (number : Nat) : Code :=
  set.zipIdx.map fun (value, place) =>
    "var " ++ argumentName number place ++ " = " ++ value.literal ++ ";"

def declarations (sets : List (List Value)) : Code :=
  sets.zipIdx.flatMap fun (set, number) => setDeclarations set number

/-- A call of the function with the variables of an argument set. -/
def call (function : String) (arity set : Nat) : String :=
  function ++ "(" ++ ", ".intercalate ((List.range arity).map (argumentName set)) ++ ")"

/-- The loop that leads up to a checkpoint, and its report. -/
def segment (function : String) (arity : Nat) (checkpoint : Checkpoint) (calls : Nat) : Code :=
  let name := Json.quote checkpoint.name
  let loop :=
    Code.block ("for (__tp_i = 0; __tp_i < " ++ naturalText calls ++ "; __tp_i++)")
      ["__tp_r = " ++ call function arity checkpoint.argumentSet ++ ";"]
  Code.chain "try" loop
    [("catch (__tp_e)", ["__tp_fault(" ++ name ++ ", __tp_e);", "return false;"])] ++
  ["__tp_emit(" ++ name ++ ", __tp_r);"]

/-- The loops of the checkpoints when `made` calls have been made before them. -/
def segments (function : String) (arity made : Nat) : List Checkpoint → Code
  | [] => []
  | checkpoint :: rest =>
    segment function arity checkpoint (checkpoint.iterations - made) ++
      segments function arity checkpoint.iterations rest

/-- The function that makes all calls. It gives `false` when one of them throws. -/
def runner (s : Scenario) : Code :=
  Code.block "function __tp_run()" <|
    ["var __tp_r;", "var __tp_i;"] ++ segments s.function s.arity 0 s.checkpoints ++
      ["return true;"]

/-- The lines of a scenario's script. -/
def code (s : Scenario) : Code :=
  [header s.id] ++ s.checkpoints.map (fun checkpoint => checkpointHeader checkpoint.name) ++
  Script.prelude ++ ["", trim s.source, ""] ++ declarations s.argumentSets ++
  [""] ++ runner s ++ [""] ++ Code.block "if (__tp_run())" ["__tp_print(\"DONE\");"]

def ofScenario (s : Scenario) : Probe :=
  { id := s.id
    checkpoints := s.checkpoints.map (·.name)
    source := (code s).text }

end Probe

/-! ## Timing -/

namespace Script

def clock : Code :=
  ["var __tp_now = (typeof performance !== \"undefined\" && " ++
      "typeof performance.now === \"function\")",
    "  ? function () " ++ braced "return performance.now();",
    "  : function () " ++ braced "return Date.now();" ++ ";"]

def kernel : Code :=
  Code.block "function __tp_kernel(x)" <|
    ["var s = 0;"] ++
    Code.block "for (var k = 0; k < 16; k++)" ["s = (s + x * k) | 0;"] ++
    ["return s;"]

def batches : Code :=
  Code.block "function __tp_calibrate(limit)" <|
    ["var sink = 0;", "var batch = 1;", "var total = 0;"] ++
    Code.block "while (total < limit)"
      (["var t0 = __tp_now();"] ++
        Code.block "for (var i = 0; i < batch; i++)" ["sink = (sink + __tp_kernel(i)) | 0;"] ++
        ["var dt = __tp_now() - t0;",
          "total += batch;",
          "__tp_print(\"SAMPLE:\" + batch + \":\" + (dt < 0 ? 0 : dt));",
          "batch *= 2;"]) ++
    ["return sink;"]

/-- The id under which the timing probe is run. -/
def timingId : String := "calibration/threshold"

/-- The probe that times batches until `calls` calls are made. -/
def timing (calls : Nat) : Probe :=
  { id := timingId
    checkpoints := []
    source := Code.text <|
      [Probe.header timingId] ++ prelude ++ [""] ++ clock ++ [""] ++ kernel ++ [""] ++ batches ++
      ["", "__tp_calibrate(" ++ naturalText calls ++ ");", "__tp_print(\"DONE\");"] }

end Script

end TierCheck
