import TierCheck.Proofs.Report.Summary
import TierCheck.Proofs.Run.Coverage
import TierCheck.Proofs.Scenario.Validity

/-!
# The summary of a suite that was run

The scenarios of a suite were checked before they ran, so their ids and the names of their
checkpoints hold no blanks. Every verdict is named for a checkpoint of its scenario, the one that
tells of runs that differ included. With that the summary has the lines that it should have, and no
text of the subject is among them but in the place where results are quoted.

* `Criteria.runRepeated_isNamedFor`: the checkpoints that verdicts are named for.
* `Settings.RunsInTurn.forall₂_isPresentable`: the scenarios of a suite that was run can be shown
  line by line.
* `Settings.runSuite_render`: the result.
-/
namespace TierCheck

/-! ## The names of verdicts -/

namespace Criteria

variable (c : Criteria) (s : Scenario) {t : Transcript} {first verdicts : List Verdict} {σ : Type}
  {subject : Subject σ} {state after : σ}

/-- The verdict is named for a checkpoint of the scenario. -/
def IsNamedFor (s : Scenario) (verdict : Verdict) : Prop :=
  verdict.checkpoint ∈ s.checkpoints.map (·.name)

theorem classify_isNamedFor (h : c.classify s t = .ok verdicts) :
    ∀ verdict ∈ verdicts, IsNamedFor s verdict :=
  fun _ hverdict => (c.classify_names s t h).subset (List.mem_map_of_mem hverdict)

/-- The verdict that two runs differ is named for the checkpoint at which they do. -/
theorem repeatFrom_isNamedFor (hfirst : c.classify s t = .ok first) {attempt remaining : Nat}
    (h : (c.repeatFrom s first attempt remaining).run subject state = (.ok verdicts, after)) :
    ∀ verdict ∈ verdicts, IsNamedFor s verdict := by
  induction remaining generalizing attempt state with
  | zero =>
    simp only [repeatFrom, pure, Task.run, Prod.mk.injEq, Except.ok.injEq] at h
    obtain ⟨rfl, -⟩ := h
    exact c.classify_isNamedFor s hfirst
  | succ remaining ih =>
    obtain ⟨again, middle, honce, hrest, -⟩ := Task.run_bind_eq_ok h
    obtain ⟨-, t', hagain, -⟩ := c.runOnce_eq_ok s honce
    cases hplace : firstDivergence? first again with
    | none =>
      simp only [hplace] at hrest
      exact ih hrest
    | some place =>
      simp only [hplace, pure, Task.run, Prod.mk.injEq, Except.ok.injEq] at hrest
      obtain ⟨rfl, -⟩ := hrest
      obtain ⟨x, -, hx, -⟩ := c.exists_of_firstDivergence? s hfirst hagain hplace
      have hnames := c.classify_isNamedFor s hfirst
      rw [List.forall_mem_append, List.forall_mem_singleton, unstable_eq hx]
      exact ⟨hnames, hnames x (List.mem_of_getElem? hx)⟩

/-- All verdicts of a repeated run are named for checkpoints of its scenario. -/
theorem runRepeated_isNamedFor {runs : Nat}
    (h : (c.runRepeated s runs).run subject state = (.ok verdicts, after)) :
    ∀ verdict ∈ verdicts, IsNamedFor s verdict := by
  obtain ⟨first, middle, honce, hrest, -⟩ := Task.run_bind_eq_ok h
  obtain ⟨-, t, hfirst, -⟩ := c.runOnce_eq_ok s honce
  exact c.repeatFrom_isNamedFor s hfirst hrest

end Criteria

/-! ## The scenarios of a suite -/

/-- The report has the id and the expectation of the scenario, and its verdicts are named for
checkpoints of the scenario. -/
structure ScenarioReport.IsNamedFor (r : ScenarioReport) (s : Scenario) : Prop where
  id_eq : r.id = s.id
  expectation_eq : r.expectation = s.expectation
  verdicts : ∀ verdict ∈ r.verdicts, Criteria.IsNamedFor s verdict

/-- The report of a valid scenario holds no blank where the summary quotes a name. -/
theorem ScenarioReport.IsNamedFor.isPresentable {r : ScenarioReport} {s : Scenario}
    {given : List Verdict} (h : r.IsNamedFor s) (hs : s.IsValid) (htells : r.Tells s given) :
    r.IsPresentable := by
  obtain ⟨⟨-, hid⟩, -, -, -, -, hschedule, -⟩ := (Scenario.isValid_iff s).1 hs
  refine ⟨h.id_eq ▸ hid, fun verdict hverdict => ?_, htells.overall_mem, htells.le_overall⟩
  obtain ⟨checkpoint, hcheckpoint, hname⟩ := List.mem_map.1 (h.verdicts verdict hverdict)
  have hvalid := hschedule.named checkpoint hcheckpoint
  simp only [isCheckpointName, Bool.and_eq_true, Bool.not_eq_true'] at hvalid
  exact hname ▸ hvalid.1.2

namespace Settings

variable {σ : Type} {c : Settings} {subject : Subject σ} {state after : σ}

/-- The reports of scenarios that ran in turn can be shown line by line. -/
theorem RunsInTurn.forall₂_isPresentable {outcomes : List (Scenario × List Verdict)}
    (h : c.RunsInTurn subject state outcomes after) :
    List.Forall₂ (fun s r => r.IsNamedFor s ∧ r.IsPresentable) (outcomes.map (·.1))
      (outcomes.map fun o => (Tally.ofVerdicts o.1 o.2).report) := by
  induction h with
  | nil => exact .nil
  | @cons _ _ _ s verdicts _ hfirst _ ih =>
    obtain ⟨hvalid, t, first, hclassify, houtcome⟩ := c.criteria.runRepeated_verdicts s hfirst
    have haccounts := Tally.accounts_report c.criteria hvalid hclassify houtcome
    have hnamed : (Tally.ofVerdicts s verdicts).report.IsNamedFor s := by
      refine ⟨rfl, rfl, ?_⟩
      rw [haccounts.verdicts_eq]
      exact c.criteria.runRepeated_isNamedFor s hfirst
    exact .cons ⟨hnamed, hnamed.isPresentable hvalid haccounts.tells⟩ ih

/-- **The summary of a suite has one line for each scenario that failed, in order, and otherwise
the lines of its counts, whatever the subject reported.** -/
theorem runSuite_render (c : Settings) (subject : Subject σ) (state after : σ) (name : String)
    (hname : '\n' ∉ name.toList) (scenarios : List Scenario) (hids : (scenarios.map (·.id)).Nodup)
    (report : SuiteReport)
    (h : (c.runSuite name scenarios).run subject state = (.ok report, after)) :
    ∃ failures : List String,
      (∀ lines, HasLines report.render lines ↔
        lines =
          ["suite: " ++ name, countLine "total scenarios" report.totalScenarios,
            countLine "passed" report.passed, countLine "failed" report.failed] ++
          (if 0 < report.advisoryFailures then
            [countLine "advisory failures" report.advisoryFailures] else []) ++
          (VerdictKind.all.map fun kind =>
            countLine kind.name (report.scenarios.countP fun r => r.overall = kind)) ++
          failures) ∧
      List.Forall₂ ScenarioReport.IsShownBy (report.scenarios.filter fun r => r.overall ≠ .pass)
        failures ∧
      failures.length = report.failed + report.advisoryFailures ∧
      List.Forall₂ (fun s r => r.IsNamedFor s) scenarios report.scenarios := by
  obtain ⟨outcomes, rfl, hruns, rfl⟩ := runFrom_eq_ok_iff.1 h
  have hids' : (outcomes.map (·.1.id)).Nodup := by rwa [List.map_map] at hids
  rw [Collection.report_recordOutcomes name hids']
  have hreports := hruns.forall₂_isPresentable
  generalize (outcomes.map fun o => (Tally.ofVerdicts o.1 o.2).report) = reports at hreports ⊢
  have hpresentable : ∀ r ∈ reports, r.IsPresentable := by
    intro r hr
    obtain ⟨s, -, -, hr⟩ := exists_of_mem_forall₂ hreports hr
    exact hr
  have hfilter : (fun r : ScenarioReport => decide (r.overall ≠ .pass)) =
      ScenarioReport.isFailure := by
    funext r
    simp [ScenarioReport.isFailure, VerdictKind.isPass]
  have hfailures := SuiteReport.forall₂_failureLines (r := .ofScenarios name reports) hpresentable
  have hlines := SuiteReport.hasLines_render (r := .ofScenarios name reports) hname hpresentable
  refine ⟨(SuiteReport.ofScenarios name reports).failureLines, fun lines => ?_, ?_, ?_,
    hreports.imp fun _ _ hr => hr.1⟩
  · have hadvisory (line : String) (count : Nat) :
        (if 0 < count then [line] else []) = if count = 0 then [] else [line] := by
      cases count <;> rfl
    simp only [SuiteReport.summaryLines, SuiteReport.get_verdictCounts] at hlines
    rw [hadvisory]
    exact ⟨fun h => h.unique hlines, fun h => h ▸ hlines⟩
  · rw [hfilter]
    exact hfailures.imp fun _ _ hr => hr.1
  · rw [← hfailures.length_eq]
    exact SuiteReport.length_filter_isFailure name reports

/-- A mimic that gives texts with line ends in them, as a result or as the message it throws. -/
def breaksLines : Mimic Unit :=
  { known := Mimic.knowledge [sumScenario, { sumScenario with id := "arity/text" }]
    behaviour := fun memory call =>
      if call.scenario = "arity/thrown" then (.fault "no\rsum\nat all", memory)
      else if call.scenario = "arity/text" ∧ call.index = 1 then (.value (.string "3\r\n4"), memory)
      else Mimic.giveExpected memory call }

/-- The texts with line ends are shown with escapes, each on the one line of its scenario. -/
theorem runSuite_render_breaksLines :
    let scenarios := [{ sumScenario with id := "arity/text" }, sumScenario,
      { sumScenario with id := "arity/thrown", expectation := .advisory }]
    let result := (({} : Settings).runSuite "fake" scenarios).run breaksLines.subject ⟨(), [], 0⟩
    let failures := ["arity/text @ retype:hot: WrongValue expected=3 actual=3\\r\\n4",
      "arity/thrown @ warm: Crashed expected=- actual=uncaught exception: no\\rsum (advisory)"]
    '\n' ∉ "fake".toList ∧ (scenarios.map (·.id)).Nodup ∧
      ∃ report, result = (.ok report, result.2) ∧
        HasLines report.render
          (["suite: fake", "total scenarios: 3", "passed: 1", "failed: 1", "advisory failures: 1",
            "Pass: 1", "WrongValue: 1", "Unstable: 0", "Timeout: 0", "Crashed: 1",
            "Corrupted: 0"] ++ failures) ∧
        List.Forall₂ ScenarioReport.IsShownBy (report.scenarios.filter fun r => r.overall ≠ .pass)
          failures ∧
        List.Forall₂ (fun s r => r.IsNamedFor s) scenarios report.scenarios := by
  intro scenarios result failures
  have hname : '\n' ∉ "fake".toList := by decide
  have hids : (scenarios.map (·.id)).Nodup := by decide
  have hseen : result.1.toOption.map (fun r => (r.render, r.advisoryFailures)) =
      some (String.join ((["suite: fake", "total scenarios: 3", "passed: 1", "failed: 1",
        "advisory failures: 1", "Pass: 1", "WrongValue: 1", "Unstable: 0", "Timeout: 0",
        "Crashed: 1", "Corrupted: 0"] ++ failures).map (· ++ "\n")), 1) := by
    decide +kernel
  rcases hresult : result.1 with failure | report
  · rw [hresult] at hseen
    cases hseen
  · have hrun : result = (.ok report, result.2) := Prod.ext hresult rfl
    rw [hresult] at hseen
    obtain ⟨hrender, hadvisory⟩ := Prod.mk.inj (Option.some.inj hseen)
    obtain ⟨shown, hlines, hshown, -, hnamed⟩ :=
      runSuite_render {} breaksLines.subject _ _ "fake" hname scenarios hids report hrun
    rw [show report.advisoryFailures = 1 from hadvisory] at hlines
    -- the lines of the failures come after those of the counts, of which there are eleven here
    have hread : HasLines report.render _ := ⟨hrender, by decide⟩
    obtain rfl : failures = shown := congrArg (List.drop 11) ((hlines _).1 hread)
    exact ⟨hname, hids, report, hrun, hread, hshown, hnamed⟩

end Settings
end TierCheck
