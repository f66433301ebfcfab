import TierCheck.Failure
import TierCheck.Report.Tally
import TierCheck.Run.Classify
import TierCheck.Settings
import TierCheck.Subject.Basic
/-!
# Running suites

One run executes a scenario's probe and classifies the transcript. If the subject did not get
through, it is reset at once, so the next run finds it clean. A repeated run stops at the first run
whose verdicts differ in kind from those of the first, and says so in one more verdict.

A suite runs its scenarios one after another on one subject and reports them. A subject that fails
a scenario is no failure of the run; a failure of the run ends the suite without a report. Suites on
different subjects share nothing but the scenarios and the settings.

* `Criteria.runOnce`, `Criteria.runRepeated`: one scenario, run once and several times.
* `Settings.runSuite`: one suite as a task.
* `Settings.runSuites`: one suite per subject.
-/

namespace TierCheck

/-! ## Scenarios -/

namespace Criteria

/-- Whether the list ends because the subject did not get through. -/
def endsEarly (verdicts : List Verdict) : Bool :=
  verdicts.getLast?.any fun verdict => verdict.kind.endsScenario

def runOnce (c : Criteria) (s : Scenario) : Task (List Verdict) := do
  .ofExcept s.check
  .execute (.ofScenario s) c.timeout fun transcript => do
    let verdicts ← .ofExcept (c.classify s transcript)
    if endsEarly verdicts then .reset (pure verdicts) else pure verdicts

/-- The verdict that run number `attempt` differs from the first one at a place. -/
def unstable (first again : List Verdict) (attempt place : Nat) : Verdict :=
  { kind := .unstable
    checkpoint := ((first[place]?.or again[place]?).map (·.checkpoint)).getD ""
    detail := "run 1: [" ++ kindList first ++ "]; run " ++ naturalText attempt ++ ": [" ++
      kindList again ++ "]" }

/-- The verdicts when the first run gave `first` and `remaining` runs are still to be made, the
next of which is number `attempt`. -/
def repeatFrom (c : Criteria) (s : Scenario) (first : List Verdict) (attempt : Nat) :
    Nat → Task (List Verdict)
  | 0 => pure first
  | remaining + 1 => do
    let again ← c.runOnce s
    match firstDivergence? first again with
    | some place => pure (first ++ [unstable first again attempt place])
    | none => repeatFrom c s first (attempt + 1) remaining

/-- The verdicts of `runs` runs, at least one. -/
def runRepeated (c : Criteria) (s : Scenario) (runs : Nat) : Task (List Verdict) := do
  let first ← c.runOnce s
  c.repeatFrom s first 2 (runs - 1)

end Criteria

/-! ## Suites -/

namespace Settings

/-- Runs the scenarios that are left and adds their verdicts to those collected. -/
def runFrom (c : Settings) (collection : Collection) : List Scenario → Task SuiteReport
  | [] => pure collection.report
  | s :: rest => do
    let verdicts ← c.criteria.runRepeated s c.runs
    runFrom c (collection.recordAll s verdicts) rest

def runSuite (c : Settings) (name : String) (scenarios : List Scenario) : Task SuiteReport :=
  c.runFrom (.start name) scenarios

/-- Runs the scenarios on each subject, from its state. The reports are in the order of the
subjects; of several failures the first in that order counts. -/
def runSuites {σ : Type} (c : Settings) (scenarios : List Scenario)
    (subjects : List (Subject σ × σ)) : Except Failure CombinedReport := do
  let suites ← subjects.mapM fun (subject, state) =>
    ((c.runSuite subject.label scenarios).run subject state).1
  return ⟨suites⟩

end Settings

end TierCheck
