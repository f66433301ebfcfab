import TierCheck.Json.Basic
import TierCheck.Report.Basic
/-!
# Reports as JSON

A report is written as one object per suite, scenario and verdict. Reading takes any order of
members and ignores unknown ones. An optional member may be missing or `null`; every other member
has to be there. The counts are taken as they are written and not checked against the verdicts.

* `CombinedReport.toJson`, `CombinedReport.ofJson?`: a combined report.
-/

namespace TierCheck

def VerdictKind.ofName? (name : String) : Option VerdictKind :=
  VerdictKind.all.find? fun kind => kind.name = name

def Family.ofName? (name : String) : Option Family :=
  Family.all.find? fun family => family.name = name

def Expectation.ofName? (name : String) : Option Expectation :=
  [Expectation.strict, .advisory].find? fun expectation => expectation.name = name

namespace Verdict

def toJson (v : Verdict) : Json :=
  .record
    [("kind", .ofText v.kind.name),
      ("checkpoint", .ofText v.checkpoint),
      ("expected", .ofOption v.expected),
      ("actual", .ofOption v.actual),
      ("raw", .ofOption v.raw),
      ("detail", .ofOption v.detail)]

def ofJson? (document : Json) : Option Verdict := do
  let fields ← document.asRecord?
    ["kind", "checkpoint", "expected", "actual", "raw", "detail"]
  match fields with
  | [some kind, some checkpoint, expected, actual, raw, detail] =>
    return { kind := ← VerdictKind.ofName? (← kind.asCase?)
             checkpoint := ← checkpoint.asText?
             expected := ← Json.asOption? Json.asText? expected
             actual := ← Json.asOption? Json.asText? actual
             raw := ← Json.asOption? Json.asText? raw
             detail := ← Json.asOption? Json.asText? detail }
  | _ => none

end Verdict

namespace ScenarioReport

def toJson (r : ScenarioReport) : Json :=
  .record
    [("id", .ofText r.id),
      ("family", .ofText r.family.name),
      ("description", .ofText r.description),
      ("expectation", .ofText r.expectation.name),
      ("overall", .ofText r.overall.name),
      ("checkpoints_run", .ofNatural r.checkpointsRun),
      ("checkpoints_total", .ofNatural r.checkpointsTotal),
      ("first_failure", (r.firstFailure.map Verdict.toJson).getD .null),
      ("verdicts", .array (r.verdicts.map Verdict.toJson))]

def ofJson? (document : Json) : Option ScenarioReport := do
  let fields ← document.asRecord?
    ["id", "family", "description", "expectation", "overall", "checkpoints_run",
      "checkpoints_total", "first_failure", "verdicts"]
  match fields with
  | [some id, some family, some description, some expectation, some overall, some run, some total,
      firstFailure, some verdicts] =>
    return { id := ← id.asText?
             family := ← Family.ofName? (← family.asCase?)
             description := ← description.asText?
             expectation := ← Expectation.ofName? (← expectation.asCase?)
             overall := ← VerdictKind.ofName? (← overall.asCase?)
             checkpointsRun := ← run.asNatural?
             checkpointsTotal := ← total.asNatural?
             firstFailure := ← Json.asOption? Verdict.ofJson? firstFailure
             verdicts := ← verdicts.asList? Verdict.ofJson? }
  | _ => none

end ScenarioReport

namespace Counts

def toJson (c : Counts) : Json :=
  .record (c.entries.map fun (name, count) => (name, .ofNatural count))

def ofJson? (document : Json) : Option Counts := do
  let members ← document.asMembers?
  return .ofList (← members.mapM fun (name, count) => do return (name, ← count.asNatural?))

end Counts

namespace SuiteReport

def toJson (r : SuiteReport) : Json :=
  .record
    [("suite", .ofText r.suite),
      ("total_scenarios", .ofNatural r.totalScenarios),
      ("passed", .ofNatural r.passed),
      ("failed", .ofNatural r.failed),
      ("advisory_failures", .ofNatural r.advisoryFailures),
      ("verdict_counts", r.verdictCounts.toJson),
      ("checkpoint_counts", r.checkpointCounts.toJson),
      ("scenarios", .array (r.scenarios.map ScenarioReport.toJson))]

def ofJson? (document : Json) : Option SuiteReport := do
  let fields ← document.asRecord?
    ["suite", "total_scenarios", "passed", "failed", "advisory_failures", "verdict_counts",
      "checkpoint_counts", "scenarios"]
  match fields with
  | [some suite, some total, some passed, some failed, some advisory, some verdictCounts,
      some checkpointCounts, some scenarios] =>
    return { suite := ← suite.asText?
             totalScenarios := ← total.asNatural?
             passed := ← passed.asNatural?
             failed := ← failed.asNatural?
             advisoryFailures := ← advisory.asNatural?
             verdictCounts := ← Counts.ofJson? verdictCounts
             checkpointCounts := ← Counts.ofJson? checkpointCounts
             scenarios := ← scenarios.asList? ScenarioReport.ofJson? }
  | _ => none

end SuiteReport

namespace CombinedReport

def toJson (r : CombinedReport) : Json :=
  .record [("suites", .array (r.suites.map SuiteReport.toJson))]

def ofJson? (document : Json) : Option CombinedReport := do
  match ← document.asRecord? ["suites"] with
  | [some suites] => return { suites := ← suites.asList? SuiteReport.ofJson? }
  | _ => none

end CombinedReport

end TierCheck
