import TierCheck.Event.Basic
import TierCheck.Scenario.Basic
/-!
# Failures of a run

A misbehaving subject is a verdict. A failure means that the run itself cannot be trusted, and it
ends the run: no report is made. `Failure.message` words it.

A scenario that is unfit to run is such a failure. It is checked when its draft is built, when it
enters a catalog and before each run.
-/

namespace TierCheck

/-- What can be wrong with the settings of a run. A fault in a text names the setting by `key`. -/
inductive SettingFault where
  | schedule (fault : ScheduleFault)
  | notCount (key text : String)
  | notTolerance (key text : String)
  | notSeconds (key text : String)
  | tooManyRuns (key text : String)
  | toleranceRange (tolerance : Double)
  | zeroThreshold
  | zeroTimeout
  | zeroRuns
  | registerLimitRange (highest value : Nat)
  | chunkRange (highest value : Nat)
  | noProgram
  | profileShape (profile : String)
  | profileName (profile : String)
deriving DecidableEq, Repr

/-- A number in the words of a setting fault, which abbreviates infinity. -/
def settingNumberText : Double → String
  | .infinite negative => if negative then "-inf" else "inf"
  | n => n.text

def SettingFault.message : SettingFault → String
  | schedule fault => fault.message
  | notCount key text => key ++ "=" ++ quoted text ++ " is not a positive integer"
  | notTolerance key text => key ++ "=" ++ quoted text ++ " is not a finite non-negative number"
  | notSeconds key text => key ++ "=" ++ quoted text ++ " is not a positive number of seconds"
  | tooManyRuns key text => key ++ "=" ++ quoted text ++ " is too large"
  | toleranceRange tolerance =>
    "float tolerance must be a finite non-negative number, got " ++ settingNumberText tolerance
  | zeroThreshold => "corruption length threshold must be positive"
  | zeroTimeout => "scenario timeout must be positive"
  | zeroRuns => "stability runs must be at least 1"
  | registerLimitRange highest value =>
    "register argument limit must be in 1..=" ++ naturalText highest ++ ", got " ++
      naturalText value
  | chunkRange highest value =>
    "vector chunk width must be in 1..=" ++ naturalText highest ++ " bytes, got " ++
      naturalText value
  | noProgram => "TIERPROBE_SUT is not set"
  | profileShape profile => "profile " ++ quoted profile ++ " must look like name=arg,arg"
  | profileName profile =>
    "profile " ++ quoted profile ++ " needs a non-empty name without whitespace"

inductive Failure where
  /-- The subject could not be started. -/
  | unreachable (program cause : String)
  /-- A file, a directory or a pipe that the run needs is out of order. -/
  | inputOutput (cause : String)
  | malformedLine (line : MalformedLine)
  /-- An event that has no place where it came. -/
  | outOfOrder (scenario expected actual : String)
  | invalidScenario (id : String) (fault : ScenarioFault)
  | duplicateScenario (id : String)
  | invalidSetting (fault : SettingFault)
  | emptySelection (filter : String)
  /-- A deadline past the end of the clock. It stops what waits for it, and of a suite, which waits
  in a task of its own, this is all that is left. -/
  | pastClock (suite : String)
  /-- A deadline that is too large. The program stops there, without a diagnosis. -/
  | timeoutOverflow
deriving DecidableEq, Repr

def Failure.message : Failure → String
  | unreachable program cause => "SUT unreachable: failed to spawn " ++ program ++ ": " ++ cause
  | inputOutput cause => "I/O error: " ++ cause
  | malformedLine line => line.message
  | outOfOrder scenario expected actual =>
    "sentinel out of order in scenario " ++ scenario ++ ": expected checkpoint " ++
      quoted expected ++ ", got " ++ quoted actual
  | invalidScenario id fault => "invalid scenario " ++ id ++ ": " ++ fault.message
  | duplicateScenario id => "duplicate scenario id " ++ id
  | invalidSetting fault => "invalid configuration: " ++ fault.message
  | emptySelection filter => "filter " ++ quoted filter ++ " matched 0 scenarios"
  | pastClock suite => "suite " ++ suite ++ " aborted: the deadline is past the end of the clock"
  | timeoutOverflow => "timeout out of range"

/-! ## Checked scenarios -/

def Scenario.check (s : Scenario) : Except Failure Unit :=
  match s.fault? with
  | some fault => .error (.invalidScenario s.id fault)
  | none => .ok ()

/-- The scenario of a draft that has a reference and is fit to run. -/
def Draft.build (d : Draft) : Except Failure Scenario :=
  match d.reference? with
  | none => .error (.invalidScenario d.id .noReference)
  | some reference => do
    let s := d.toScenario reference
    s.check
    return s

theorem Scenario.check_eq_ok_iff (s : Scenario) : s.check = .ok () ↔ s.IsValid := by
  unfold Scenario.check Scenario.IsValid
  cases s.fault? <;> simp

end TierCheck
