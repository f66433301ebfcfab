import TierCheck.Number.Decimal
import TierCheck.Report.Basic
import TierCheck.Text.Line
/-!
# Reports as text

The summary of a suite is its counts, one a line, and then a line for each scenario that failed.
Texts that the subject reported are shown on one line and cut where they are long.
-/

namespace TierCheck

/-- A line that gives a number. -/
def countLine (name : String) (count : Nat) : String := name ++ ": " ++ naturalText count

/-- The line of a scenario that failed, made of its decisive verdict. The detail of the verdict
stands in for a result that was not reported. -/
def ScenarioReport.failureLine (r : ScenarioReport) (verdict : Verdict) : String :=
  r.id ++ " @ " ++ verdict.checkpoint ++ ": " ++ verdict.kind.name ++
    " expected=" ++ singleLine (verdict.expected.getD "-") ++
    " actual=" ++ singleLine ((verdict.actual.or verdict.detail).getD "-") ++
    if r.expectation = .advisory then " (advisory)" else ""

namespace SuiteReport

def failureLines (r : SuiteReport) : List String :=
  (r.scenarios.filter ScenarioReport.isFailure).filterMap fun scenario =>
    scenario.decisive?.map scenario.failureLine

def summaryLines (r : SuiteReport) : List String :=
  ["suite: " ++ r.suite, countLine "total scenarios" r.totalScenarios,
    countLine "passed" r.passed, countLine "failed" r.failed] ++
  (if r.advisoryFailures = 0 then [] else [countLine "advisory failures" r.advisoryFailures]) ++
  (VerdictKind.all.map fun kind => countLine kind.name (r.verdictCounts.get kind.name)) ++
  r.failureLines

def render (r : SuiteReport) : String := String.join (r.summaryLines.map (· ++ "\n"))

end SuiteReport

/-- The summaries of all suites, with an empty line between two of them. Several suites are added
up in the end. -/
def CombinedReport.render (r : CombinedReport) : String :=
  "\n".intercalate (r.suites.map SuiteReport.render) ++
    if r.suites.length ≤ 1 then ""
    else
      "\n" ++ countLine "suites" r.suites.length ++ ", " ++
        countLine "failed scenarios" (r.suites.foldl (fun n suite => n + suite.failed) 0) ++ "\n"

end TierCheck
