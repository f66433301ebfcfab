import Mathlib.Data.List.Forall2
import TierCheck.Proofs.Report.Mentions
import TierCheck.Proofs.Run.Flapping

/-!
# How far scenarios get

The report of a suite has the scenarios in the order in which they ran, each with the verdicts of
its repeated run and the number of checkpoints that were run. That number is the length of the first
run's verdicts: the verdict that two runs did not agree stands for no checkpoint. So it tells how
far the first run got, and a run that got less than the whole way ended in an abort at the last
checkpoint that counts.

* `Criteria.runRepeated_verdicts`: the verdicts of a repeated run are those of its first run, with
  at most one more.
* `Settings.RunsInTurn`: repeated runs of scenarios one after another.
  `Settings.runFrom_eq_ok_iff`: a suite has a report if and only if it consists of such runs.
* `ScenarioReport.Accounts`: what the report of a scenario says of how far it got.
* `Settings.runSuite_accounts`: the result.
-/
namespace TierCheck

/-! ## The verdicts of a repeated run -/

namespace Criteria

variable (c : Criteria) (s : Scenario) {t : Transcript} {first verdicts : List Verdict}

/-- The verdicts of a repeated run are those of the first run. If another run did not agree, one
more verdict says so. -/
inductive IsOutcome (first : List Verdict) : List Verdict → Prop
  | agreed : IsOutcome first first
  | differed (again : List Verdict) (attempt place : Nat) :
    IsOutcome first (first ++ [unstable first again attempt place])

theorem runRepeated_verdicts {σ : Type} {subject : Subject σ} {state after : σ} {runs : Nat}
    (h : (c.runRepeated s runs).run subject state = (.ok verdicts, after)) :
    s.IsValid ∧ ∃ t first, c.classify s t = .ok first ∧ IsOutcome first verdicts := by
  obtain ⟨first, middle, honce, hrest, -⟩ := Task.run_bind_eq_ok h
  obtain ⟨hvalid, t, hclassify, -⟩ := c.runOnce_eq_ok s honce
  refine ⟨hvalid, t, first, hclassify, ?_⟩
  rcases c.repeatFrom_eq_ok s hrest with ⟨rfl, -⟩ | ⟨again, attempt, place, rfl⟩
  · exact .agreed
  · exact .differed again attempt place

theorem IsOutcome.prefix_verdicts (h : IsOutcome first verdicts) : first <+: verdicts := by
  cases h with
  | agreed => exact List.prefix_rfl
  | differed => exact List.prefix_append _ _

/-- The verdicts that stand for checkpoints are those of the first run. -/
theorem IsOutcome.filter_eq (h : IsOutcome first verdicts)
    (hclassify : c.classify s t = .ok first) :
    (verdicts.filter fun verdict => verdict.kind ≠ .unstable) = first := by
  have hfirst : (first.filter fun verdict => verdict.kind ≠ .unstable) = first := by
    apply List.filter_eq_self.2
    intro verdict hmem
    simpa using c.classify_ne_unstable s t hclassify verdict hmem
  cases h with
  | agreed => exact hfirst
  | differed => rw [List.filter_append, hfirst]; simp [unstable]

/-! ## The verdict of a scenario of which nothing was reported -/

theorem missing_ne_nothingReported (t : Transcript) (checkpoint : Checkpoint) :
    c.missing t checkpoint ≠ Tally.nothingReported := by
  intro h
  unfold missing at h
  split at h
  · cases congrArg Verdict.kind h
  · -- the details begin with different letters
    have hdetail := congrArg String.toList (Option.some.inj (congrArg Verdict.detail h))
    simp [String.toList_append] at hdetail

theorem nothingReported_not_mem_classify (h : c.classify s t = .ok first) :
    Tally.nothingReported ∉ first := by
  obtain ⟨readings, pending, rest, -, hcases⟩ := c.classify_eq_ok s t h
  have hjudged : Tally.nothingReported ∉ readings.map (c.judgeReading s) := by
    intro hmem
    obtain ⟨r, -, hr⟩ := List.mem_map.1 hmem
    exact (c.judgeReading_kind s r).1 (congrArg Verdict.kind hr)
  rcases hcases with ⟨-, rfl⟩ | ⟨checkpoint, later, verdict, -, hstop, rfl⟩
  · exact hjudged
  · intro hmem
    rcases List.mem_append.1 hmem with hmem | hmem
    · exact hjudged hmem
    · have hlast := List.mem_singleton.1 hmem
      cases hstop with
      | silent => exact c.missing_ne_nothingReported t checkpoint hlast.symm
      | reached => exact c.missing_ne_nothingReported t checkpoint hlast.symm
      | threw message later => cases congrArg Verdict.raw hlast

theorem IsOutcome.nothingReported_not_mem (h : IsOutcome first verdicts)
    (hclassify : c.classify s t = .ok first) : Tally.nothingReported ∉ verdicts := by
  intro hmem
  -- its kind is one that stands for a checkpoint
  have hfirst : Tally.nothingReported ∈ first := by
    rw [← h.filter_eq c s hclassify]
    exact List.mem_filter.2 ⟨hmem, rfl⟩
  exact c.nothingReported_not_mem_classify s hclassify hfirst

/-- Verdicts that do not reach the last checkpoint end in an abort at the last one they reach. -/
theorem exists_abort_of_length_lt (h : c.classify s t = .ok first)
    (hlt : first.length < s.checkpoints.length) :
    ∃ verdict checkpoint, first[first.length - 1]? = some verdict ∧
      s.checkpoints[first.length - 1]? = some checkpoint ∧
      verdict.checkpoint = checkpoint.name ∧
      (verdict.kind = .crashed ∨ verdict.kind = .timeout) := by
  obtain ⟨verdict, hlast, hkind⟩ := c.endInAbort_of_length_lt s h hlt
  rw [List.getLast?_eq_getElem?] at hlast
  obtain ⟨checkpoint, hcheckpoint, hname⟩ := c.classify_checkpoint s h hlast
  exact ⟨verdict, checkpoint, hlast, hcheckpoint, hname, hkind⟩

end Criteria

/-! ## The report of a scenario -/

/-- What the report of a scenario says of the run that gave it these verdicts. -/
structure ScenarioReport.Accounts (r : ScenarioReport) (s : Scenario) (given : List Verdict) :
    Prop where
  tells : r.Tells s given
  verdicts_eq : r.verdicts = given
  /-- The verdict of a scenario of which nothing was reported does not occur. -/
  reported : Tally.nothingReported ∉ r.verdicts
  run_pos : 1 ≤ r.checkpointsRun
  run_le_total : r.checkpointsRun ≤ r.checkpointsTotal
  total_eq : r.checkpointsTotal = s.checkpoints.length
  /-- The verdicts that count are those of the first checkpoints, in order. -/
  names_eq : (r.verdicts.filter fun verdict => verdict.kind ≠ .unstable).map (·.checkpoint) =
    (s.checkpoints.take r.checkpointsRun).map (·.name)
  /-- A scenario that was cut short was so at the last checkpoint that counts. -/
  cutShort : r.checkpointsRun < r.checkpointsTotal →
    ∃ verdict checkpoint, r.verdicts[r.checkpointsRun - 1]? = some verdict ∧
      s.checkpoints[r.checkpointsRun - 1]? = some checkpoint ∧
      verdict.checkpoint = checkpoint.name ∧
      (verdict.kind = .crashed ∨ verdict.kind = .timeout)
  whole : r.overall = .pass →
    r.checkpointsRun = r.checkpointsTotal ∧ ∀ verdict ∈ r.verdicts, verdict.kind = .pass

/-- The verdicts of a repeated run are accounted for in the report of its scenario. -/
theorem Tally.accounts_report (c : Criteria) {s : Scenario} (hs : s.IsValid) {t : Transcript}
    {first verdicts : List Verdict} (hclassify : c.classify s t = .ok first)
    (houtcome : Criteria.IsOutcome first verdicts) :
    (Tally.ofVerdicts s verdicts).report.Accounts s verdicts := by
  have hfirst : first ≠ [] := c.classify_ne_nil s t hs.checkpoints_ne_nil hclassify
  have hne : verdicts ≠ [] := by
    rintro rfl
    exact hfirst (List.prefix_nil.1 houtcome.prefix_verdicts)
  have hverdicts : (Tally.ofVerdicts s verdicts).report.verdicts = verdicts :=
    if_neg (c := verdicts = []) hne
  have hrun : (Tally.ofVerdicts s verdicts).report.checkpointsRun = first.length := by
    have hcount : (Tally.ofVerdicts s verdicts).report.checkpointsRun =
      (Tally.ofVerdicts s verdicts).report.verdicts.countP fun v => v.kind ≠ .unstable := rfl
    rw [hcount, hverdicts, List.countP_eq_length_filter, houtcome.filter_eq c s hclassify]
  have hlength := c.classify_length_le s hclassify
  have hcutShort : first.length < s.checkpoints.length →
      ∃ verdict checkpoint, verdicts[first.length - 1]? = some verdict ∧
        s.checkpoints[first.length - 1]? = some checkpoint ∧
        verdict.checkpoint = checkpoint.name ∧
        (verdict.kind = .crashed ∨ verdict.kind = .timeout) := by
    intro hlt
    obtain ⟨verdict, checkpoint, hverdict, hrest⟩ := c.exists_abort_of_length_lt s hclassify hlt
    obtain ⟨more, rfl⟩ := houtcome.prefix_verdicts
    have hplace := (List.getElem?_eq_some_iff.1 hverdict).1
    exact ⟨verdict, checkpoint, (List.getElem?_append_left hplace).trans hverdict, hrest⟩
  refine ⟨Tally.tells_report s verdicts, hverdicts, ?_, ?_, ?_, rfl, ?_, ?_, ?_⟩
  · rw [hverdicts]
    exact houtcome.nothingReported_not_mem c s hclassify
  · rw [hrun]
    exact List.length_pos_of_ne_nil hfirst
  · rw [hrun]
    exact hlength
  · rw [hrun, hverdicts, houtcome.filter_eq c s hclassify]
    obtain ⟨rest, hrest⟩ := c.classify_names s t hclassify
    rw [List.map_take, ← hrest, ← List.length_map (·.checkpoint), List.take_left]
  · rw [hrun, hverdicts]
    exact hcutShort
  · intro hoverall
    obtain ⟨-, hpass⟩ := Tally.report_overall_pass hoverall
    rw [hrun, hverdicts]
    refine ⟨?_, hpass⟩
    by_contra hshort
    obtain ⟨verdict, -, hverdict, -, -, hkind⟩ :=
      hcutShort (Nat.lt_of_le_of_ne hlength hshort)
    rw [hpass verdict (List.mem_of_getElem? hverdict)] at hkind
    rcases hkind with hkind | hkind <;> cases hkind

/-! ## Suites -/

namespace Settings

variable {σ : Type} (c : Settings)

/-- Repeated runs of scenarios one after another, none of which fails: the scenarios in order, each
with its verdicts, and the subject's state before and after them. -/
inductive RunsInTurn (subject : Subject σ) : σ → List (Scenario × List Verdict) → σ → Prop
  | nil (state : σ) : RunsInTurn subject state [] state
  | cons {state middle after : σ} {s : Scenario} {verdicts : List Verdict}
      {rest : List (Scenario × List Verdict)} :
    (c.criteria.runRepeated s c.runs).run subject state = (.ok verdicts, middle) →
    RunsInTurn subject middle rest after →
    RunsInTurn subject state ((s, verdicts) :: rest) after

variable {c} {subject : Subject σ} {state after : σ}

/-- A suite has a report if and only if the runs of its scenarios one after another do not fail.
The report is that of the verdicts they gave. -/
theorem runFrom_eq_ok_iff {scenarios : List Scenario} {collection : Collection}
    {report : SuiteReport} :
    (c.runFrom collection scenarios).run subject state = (.ok report, after) ↔
      ∃ outcomes, outcomes.map (·.1) = scenarios ∧ c.RunsInTurn subject state outcomes after ∧
        report = (collection.recordOutcomes outcomes).report := by
  induction scenarios generalizing collection state with
  | nil =>
    simp only [runFrom, pure, Task.run, Prod.mk.injEq, Except.ok.injEq, List.map_eq_nil_iff,
      exists_eq_left]
    constructor
    · rintro ⟨rfl, rfl⟩
      exact ⟨.nil state, rfl⟩
    · rintro ⟨hruns, rfl⟩
      cases hruns
      exact ⟨rfl, rfl⟩
  | cons s rest ih =>
    constructor
    · intro h
      obtain ⟨verdicts, middle, hfirst, hrest, -⟩ := Task.run_bind_eq_ok h
      obtain ⟨outcomes, rfl, hruns, rfl⟩ := ih.1 hrest
      exact ⟨(s, verdicts) :: outcomes, rfl, .cons hfirst hruns, rfl⟩
    · rintro ⟨outcomes, hmap, hruns, rfl⟩
      cases hruns with
      | nil => cases hmap
      | cons hfirst hlater =>
        obtain ⟨rfl, hrest⟩ := List.cons.inj hmap
        rw [runFrom, Task.run_bind, hfirst]
        exact ih.2 ⟨_, hrest, hlater, rfl⟩

/-- Every scenario that ran in turn has the outcome of a repeated run. -/
theorem RunsInTurn.accounts {outcomes : List (Scenario × List Verdict)}
    (h : c.RunsInTurn subject state outcomes after) :
    List.Forall₂ (fun o r => r.Accounts o.1 o.2) outcomes
      (outcomes.map fun o => (Tally.ofVerdicts o.1 o.2).report) := by
  induction h with
  | nil => exact .nil
  | cons hfirst _ ih =>
    obtain ⟨hvalid, t, first, hclassify, houtcome⟩ := c.criteria.runRepeated_verdicts _ hfirst
    exact .cons (Tally.accounts_report c.criteria hvalid hclassify houtcome) ih

/-- The report of a suite lists its scenarios in order, each with the verdicts that its repeated run
gave, and says truly how far each of them got. -/
theorem runSuite_accounts (c : Settings) (subject : Subject σ) (state after : σ) (name : String)
    (scenarios : List Scenario) (hids : (scenarios.map (·.id)).Nodup) (report : SuiteReport)
    (h : (c.runSuite name scenarios).run subject state = (.ok report, after)) :
    report.suite = name ∧
      ∃ outcomes : List (Scenario × List Verdict), outcomes.map (·.1) = scenarios ∧
        c.RunsInTurn subject state outcomes after ∧
        List.Forall₂ (fun o r => r.Accounts o.1 o.2) outcomes report.scenarios := by
  obtain ⟨outcomes, rfl, hruns, rfl⟩ := runFrom_eq_ok_iff.1 h
  have hids' : (outcomes.map (·.1.id)).Nodup := by rwa [List.map_map] at hids
  rw [Collection.report_recordOutcomes name hids']
  exact ⟨rfl, outcomes, rfl, hruns, hruns.accounts⟩

/-- Of three runs of a scenario with two checkpoints the second one exits at its second checkpoint;
the next scenario hangs at its first one. -/
def flapsThenHangs : Mimic Unit :=
  { known := Mimic.knowledge [sumScenario]
    behaviour := fun memory call =>
      if call.scenario = "arity/other" then (.hang, memory)
      else if call.run = 2 ∧ call.index = 1 then (.exit 139, memory)
      else Mimic.giveExpected memory call }

/-- The first scenario flaps: its three verdicts stand for two checkpoints. The second one did not
get past the first of its two checkpoints. -/
theorem runSuite_accounts_flapsThenHangs :
    let scenarios := [sumScenario, { sumScenario with id := "arity/other" }]
    let result := (({ runs := 3 } : Settings).runSuite "fake" scenarios).run
      flapsThenHangs.subject ⟨(), [], 0⟩
    (scenarios.map (·.id)).Nodup ∧
      ∃ report outcomes, result = (.ok report, result.2) ∧ report.suite = "fake" ∧
        outcomes.map (·.1) = scenarios ∧
        RunsInTurn { runs := 3 } flapsThenHangs.subject ⟨(), [], 0⟩ outcomes result.2 ∧
        List.Forall₂ (fun o r => r.Accounts o.1 o.2) outcomes report.scenarios ∧
        report.scenarios.map (fun r =>
            (r.verdicts.map (·.kind), r.checkpointsRun, r.checkpointsTotal)) =
          [([.pass, .pass, .unstable], 2, 2), ([.timeout], 1, 2)] := by
  intro scenarios result
  have hids : (scenarios.map (·.id)).Nodup := by decide
  have hseen : result.1.toOption.map (fun r => r.scenarios.map fun r =>
        (r.verdicts.map (·.kind), r.checkpointsRun, r.checkpointsTotal)) =
      some [([.pass, .pass, .unstable], 2, 2), ([.timeout], 1, 2)] := by decide +kernel
  rcases hresult : result.1 with failure | report
  · rw [hresult] at hseen
    cases hseen
  · have hrun : result = (.ok report, result.2) := Prod.ext hresult rfl
    rw [hresult] at hseen
    obtain ⟨hname, outcomes, hmap, hruns, haccounts⟩ :=
      runSuite_accounts { runs := 3 } flapsThenHangs.subject _ _ "fake" scenarios hids report hrun
    exact ⟨hids, report, outcomes, hrun, hname, hmap, hruns, haccounts, Option.some.inj hseen⟩

end Settings
end TierCheck
