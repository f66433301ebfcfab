import TierCheck.Catalog.Filter
import TierCheck.Catalog.Standard
import TierCheck.Run.Classify
import TierCheck.Text.Blank
/-!
# Settings

What a run can be told: the plan of the catalog, the criteria of the verdicts, how often each
scenario runs, which scenarios are selected and which of them are only reported. Settings come from
environment variables; a variable that is missing or blank leaves the default.

* `Settings.ofEnvironment`: the settings of an environment.
* `Settings.fault?`: the first setting that is out of range.
* `Settings.selection`: the scenarios that the settings select.
-/

namespace TierCheck

structure Settings where
  plan : Plan := {}
  criteria : Criteria := {}
  /-- How often each scenario runs. -/
  runs : Nat := 1
  /-- Which scenarios are selected. -/
  filter : Option String := none
  /-- Which scenarios are only reported. -/
  advisory : Option String := none
deriving DecidableEq, Repr

/-! ### Reading the text of a setting -/

/-- A positive number below `2 ^ 64`, in which underscores group digits. -/
def readCount (key text : String) : Except SettingFault Nat :=
  match Schedule.readGrouped? (trim text).toList with
  | some (n + 1) => .ok (n + 1)
  | _ => .error (.notCount key text)

/-- A finite number that is not negative. -/
def readTolerance (key text : String) : Except SettingFault Double :=
  match Double.read? (trim text).toList with
  | some x => if x.isFinite ∧ Double.zero ≤ x then .ok x else .error (.notTolerance key text)
  | none => .error (.notTolerance key text)

/-- A positive number of seconds. One that is too large for a time span ends the program. -/
def readTimeout (key text : String) : Except Failure Timespan :=
  match Double.read? (trim text).toList with
  | some x =>
    if x.isFinite ∧ Double.zero < x then
      match Timespan.ofSeconds? x with
      | some t => .ok t
      | none => .error .timeoutOverflow
    else .error (.invalidSetting (.notSeconds key text))
  | none => .error (.invalidSetting (.notSeconds key text))

/-- A number of runs below `2 ^ 32`. -/
def readRuns (key text : String) : Except SettingFault Nat := do
  let n ← readCount key text
  if n < wordLimit 32 then return n else throw (.tooManyRuns key text)

def readSchedule (text : String) : Except SettingFault Schedule :=
  (Schedule.read text).mapError .schedule

/-! ### The ranges of settings -/

def highestRegisterLimit : Nat := 64

def highestChunkBytes : Nat := 4096

namespace Settings

/-- The first setting that is out of range. -/
def fault? (c : Settings) : Option SettingFault :=
  if ¬(c.criteria.tolerance.isFinite ∧ Double.zero ≤ c.criteria.tolerance) then
    some (.toleranceRange c.criteria.tolerance)
  else if c.criteria.lengthThreshold = 0 then some .zeroThreshold
  else if c.criteria.timeout.nanoseconds = 0 then some .zeroTimeout
  else if c.runs = 0 then some .zeroRuns
  else if ¬(1 ≤ c.plan.registerLimit ∧ c.plan.registerLimit ≤ highestRegisterLimit) then
    some (.registerLimitRange highestRegisterLimit c.plan.registerLimit)
  else if ¬(1 ≤ c.plan.chunkBytes ∧ c.plan.chunkBytes ≤ highestChunkBytes) then
    some (.chunkRange highestChunkBytes c.plan.chunkBytes)
  else none

def check (c : Settings) : Except Failure Unit :=
  match c.fault? with
  | some fault => .error (.invalidSetting fault)
  | none => .ok ()

/-- The value that a variable sets, and the default if it sets none. -/
def valueOr {α : Type} (env : Environment) (key : String) (default : α)
    (read : String → Except Failure α) : Except Failure α :=
  match env.value? key with
  | some text => read text
  | none => .ok default

/-- A reader whose faults are failures of the run. -/
def checked {α : Type} (read : String → Except SettingFault α) (text : String) :
    Except Failure α :=
  (read text).mapError .invalidSetting

def ofEnvironment (env : Environment) : Except Failure Settings := do
  let default : Settings := {}
  let schedule ← valueOr env "TIERPROBE_SCHEDULE" default.plan.schedule (checked readSchedule)
  let tolerance ← valueOr env "TIERPROBE_FLOAT_TOLERANCE" default.criteria.tolerance
    (checked (readTolerance "TIERPROBE_FLOAT_TOLERANCE"))
  let lengthThreshold ← valueOr env "TIERPROBE_CORRUPTION_THRESHOLD"
    default.criteria.lengthThreshold (checked (readCount "TIERPROBE_CORRUPTION_THRESHOLD"))
  let timeout ← valueOr env "TIERPROBE_TIMEOUT_SECS" default.criteria.timeout
    (readTimeout "TIERPROBE_TIMEOUT_SECS")
  let registerLimit ← valueOr env "TIERPROBE_REGISTER_ARG_LIMIT" default.plan.registerLimit
    (checked (readCount "TIERPROBE_REGISTER_ARG_LIMIT"))
  let chunkBytes ← valueOr env "TIERPROBE_CHUNK_BYTES" default.plan.chunkBytes
    (checked (readCount "TIERPROBE_CHUNK_BYTES"))
  let runs ← valueOr env "TIERPROBE_STABILITY_RUNS" default.runs
    (checked (readRuns "TIERPROBE_STABILITY_RUNS"))
  let settings : Settings :=
    { plan := { schedule, registerLimit, chunkBytes }
      criteria := { tolerance, lengthThreshold, timeout }
      runs
      filter := env.value? "TIERPROBE_FILTER"
      advisory := env.value? "TIERPROBE_ADVISORY" }
  settings.check
  return settings

/-- The scenarios that the settings select, some of them marked as only reported. -/
def selection (c : Settings) : Except Failure Catalog := do
  let catalog ← Catalog.standard c.plan
  let selected ← match c.filter with
    | some filter => catalog.select filter
    | none => pure catalog
  return match c.advisory with
    | some filter => selected.markAdvisory filter
    | none => selected

end Settings

end TierCheck
