import TierCheck.Proofs.Report.Collecting
import TierCheck.Proofs.Run.Classification
import TierCheck.Proofs.Run.Repetition
import TierCheck.Run.Suite
import TierCheck.Subject.Mimic

/-!
# Soundness of success

A suite that succeeds has seen every strict scenario do its work, in every run and at every
checkpoint. The way there leads back from the exit code: all verdicts of a strict scenario pass, so
none of them says that a run differed, so every transcript has verdicts that pass, so every
transcript has a reading for each checkpoint and every reading agrees with the right result.

* `classify_all_pass`: what the transcript of a run looks like if all its verdicts pass.
* `runFrom_eq_ok`: the verdicts that a suite collects, with the transcripts they come from.
* `exitCode_zero_sound`: the result.
-/
namespace TierCheck

/-- The transcript has a reading for each checkpoint of the scenario, in order and before anything
else but chatter, and every reading agrees with the right result. -/
def Criteria.IsCorrectRun (c : Criteria) (s : Scenario) (t : Transcript) : Prop :=
  ∃ readings : List Reading, readings.map (·.checkpoint) = s.checkpoints ∧
    readingEvents readings <+: t.scriptEvents ∧
    ∀ r ∈ readings, (c.agreement s).holds r.value (s.expectedAt r.checkpoint) = true

namespace Criteria

variable (c : Criteria) (s : Scenario)

theorem judgeReading_kind_eq_pass_iff (r : Reading) :
    (c.judgeReading s r).kind = .pass ↔
      (c.agreement s).holds r.value (s.expectedAt r.checkpoint) = true := by
  unfold judgeReading judge
  dsimp only
  split
  · next h => simp [h]
  · next h =>
    refine ⟨fun hkind => ?_, fun hholds => absurd hholds h⟩
    split at hkind <;> cases hkind

theorem classify_all_pass {t : Transcript} {verdicts : List Verdict}
    (h : c.classify s t = .ok verdicts) (hpass : ∀ verdict ∈ verdicts, verdict.kind = .pass) :
    c.IsCorrectRun s t := by
  obtain ⟨readings, pending, rest, hprogress, hcases⟩ := c.classify_eq_ok s t h
  rcases hcases with ⟨rfl, rfl⟩ | ⟨checkpoint, later, verdict, rfl, hstop, rfl⟩
  · refine ⟨readings, by simpa using hprogress.checkpoints_eq.symm, ?_, fun r hr => ?_⟩
    · exact ⟨rest, hprogress.events_eq.symm⟩
    · exact (c.judgeReading_kind_eq_pass_iff s r).1
        (hpass _ (List.mem_map_of_mem (f := c.judgeReading s) hr))
  · -- a transcript that stops early ends with a verdict that does not pass
    have hkind := hpass verdict (by simp)
    rcases hstop.kind_eq with hcrashed | htimeout
    · rw [hcrashed] at hkind; cases hkind
    · rw [htimeout] at hkind; cases hkind

/-- If all verdicts of a repeated run pass, then all its runs were made and are correct. -/
theorem runRepeated_all_pass {σ : Type} {subject : Subject σ} {state state' : σ} {runs : Nat}
    {verdicts : List Verdict}
    (h : (c.runRepeated s runs).run subject state = (.ok verdicts, state'))
    (hpass : ∀ verdict ∈ verdicts, verdict.kind = .pass) :
    (transcriptsOf s.id ((c.runRepeated s runs).calls subject state)).length = max 1 runs ∧
      ∀ t ∈ transcriptsOf s.id ((c.runRepeated s runs).calls subject state),
        c.IsCorrectRun s t := by
  have hstable : ∀ verdict ∈ verdicts, verdict.kind ≠ .unstable := by
    intro verdict hmem hunstable
    rw [hpass verdict hmem] at hunstable
    cases hunstable
  obtain ⟨hlength, hagree⟩ := c.runRepeated_eq_ok s h hstable
  refine ⟨hlength, fun t ht => ?_⟩
  obtain ⟨again, hclassify, hkinds⟩ := hagree t ht
  refine c.classify_all_pass s hclassify fun verdict hmem => ?_
  have hkind : verdict.kind ∈ verdicts.map (·.kind) := hkinds ▸ List.mem_map_of_mem hmem
  obtain ⟨first, hfirst, heq⟩ := List.mem_map.1 hkind
  rw [← heq, hpass first hfirst]

end Criteria

namespace Settings

variable {σ : Type} (c : Settings) {subject : Subject σ}

theorem runFrom_transcripts_of_not_mem {scenarios : List Scenario} {id : String}
    (h : ∀ s ∈ scenarios, s.id ≠ id) (collection : Collection) (state : σ) :
    transcriptsOf id ((c.runFrom collection scenarios).calls subject state) = [] := by
  induction scenarios generalizing collection state with
  | nil => rfl
  | cons s rest ih =>
    have hs : transcriptsOf id ((c.criteria.runRepeated s c.runs).calls subject state) = [] :=
      (c.criteria.runRepeated_executes s c.runs).transcriptsOf_calls
        (h s List.mem_cons_self) subject state
    rw [runFrom, Task.calls_bind, transcriptsOf_append, hs, List.nil_append]
    split
    · exact ih (fun s' hs' => h s' (List.mem_cons_of_mem _ hs')) _ _
    · rfl

/-- A suite that comes to its end has collected the verdicts of each scenario, and the transcripts
of a scenario are those of its own repeated run. -/
theorem runFrom_eq_ok {scenarios : List Scenario} (hids : (scenarios.map (·.id)).Nodup)
    {collection : Collection} {state state' : σ} {report : SuiteReport}
    (h : (c.runFrom collection scenarios).run subject state = (.ok report, state')) :
    ∃ outcomes : List (Scenario × List Verdict), outcomes.map (·.1) = scenarios ∧
      report = (collection.recordOutcomes outcomes).report ∧
      ∀ outcome ∈ outcomes, ∃ before after,
        (c.criteria.runRepeated outcome.1 c.runs).run subject before = (.ok outcome.2, after) ∧
        transcriptsOf outcome.1.id ((c.runFrom collection scenarios).calls subject state) =
          transcriptsOf outcome.1.id
            ((c.criteria.runRepeated outcome.1 c.runs).calls subject before) := by
  induction scenarios generalizing collection state with
  | nil =>
    simp only [runFrom, pure, Task.run, Prod.mk.injEq, Except.ok.injEq] at h
    exact ⟨[], rfl, h.1.symm, fun _ hmem => absurd hmem List.not_mem_nil⟩
  | cons s rest ih =>
    rw [List.map_cons, List.nodup_cons] at hids
    obtain ⟨verdicts, middle, hfirst, hrest, hcalls⟩ := Task.run_bind_eq_ok h
    rw [show (c.runFrom collection (s :: rest)).calls subject state = _ from hcalls]
    obtain ⟨outcomes, hmap, hreport, houtcomes⟩ := ih hids.2 hrest
    have hother : ∀ s' ∈ rest, s'.id ≠ s.id := by
      intro s' hs' heq
      exact hids.1 (heq ▸ List.mem_map_of_mem hs')
    refine ⟨(s, verdicts) :: outcomes, by rw [List.map_cons, hmap], hreport, fun outcome hmem => ?_⟩
    rcases List.mem_cons.1 hmem with rfl | hmem
    · refine ⟨state, middle, hfirst, ?_⟩
      rw [transcriptsOf_append, c.runFrom_transcripts_of_not_mem hother, List.append_nil]
    · obtain ⟨before, after, hrun, htranscripts⟩ := houtcomes outcome hmem
      have hne : (Probe.ofScenario s).id ≠ outcome.1.id := fun heq =>
        hother outcome.1 (hmap ▸ List.mem_map_of_mem hmem) heq.symm
      have hnone := (c.criteria.runRepeated_executes s c.runs).transcriptsOf_calls hne subject state
      refine ⟨before, after, hrun, ?_⟩
      rw [transcriptsOf_append, hnone, List.nil_append, htranscripts]

/-- If the report succeeds, all verdicts that were collected for a strict scenario pass. -/
theorem all_pass_of_exitCode_zero {name : String} {outcomes : List (Scenario × List Verdict)}
    (hids : (outcomes.map (·.1.id)).Nodup)
    (hexit : (((Collection.start name).recordOutcomes outcomes).report).exitCode = 0)
    {s : Scenario} {verdicts : List Verdict} (hmem : (s, verdicts) ∈ outcomes)
    (hstrict : s.expectation = .strict) : ∀ verdict ∈ verdicts, verdict.kind = .pass := by
  rw [Collection.report_recordOutcomes name hids] at hexit
  have hoverall : (Tally.ofVerdicts s verdicts).report.overall = .pass := by
    refine SuiteReport.exitCode_ofScenarios_eq_zero hexit _ ?_ hstrict
    exact List.mem_map.2 ⟨(s, verdicts), hmem, rfl⟩
  exact (Tally.report_overall_pass hoverall).2

/-- A suite that succeeds has made all runs of every strict scenario, and every one of them
reported the right result at every checkpoint. -/
theorem exitCode_zero_sound (subject : Subject σ) (name : String) (scenarios : List Scenario)
    (hids : (scenarios.map (·.id)).Nodup) (state : σ) (report : SuiteReport)
    (hrun : ((c.runSuite name scenarios).run subject state).1 = .ok report)
    (hexit : report.exitCode = 0) :
    ∀ s ∈ scenarios, s.expectation = .strict →
      let transcripts := transcriptsOf s.id ((c.runSuite name scenarios).calls subject state)
      transcripts.length = max 1 c.runs ∧ ∀ t ∈ transcripts, c.criteria.IsCorrectRun s t := by
  intro s hs hstrict
  rcases hsuite : (c.runSuite name scenarios).run subject state with ⟨result, after⟩
  rw [hsuite] at hrun
  obtain rfl := hrun
  obtain ⟨outcomes, hmap, rfl, houtcomes⟩ := c.runFrom_eq_ok hids hsuite
  obtain ⟨⟨_, verdicts⟩, hmem, rfl⟩ := List.mem_map.1 (hmap ▸ hs)
  have hnodup : (outcomes.map (·.1.id)).Nodup := by
    rw [← hmap, List.map_map] at hids
    exact hids
  have hpass := all_pass_of_exitCode_zero hnodup hexit hmem hstrict
  obtain ⟨before, _, hrepeated, htranscripts⟩ := houtcomes _ hmem
  obtain ⟨hlength, hcorrect⟩ := c.criteria.runRepeated_all_pass _ hrepeated hpass
  dsimp only [runSuite]
  rw [htranscripts]
  exact ⟨hlength, hcorrect⟩

/-- The sum scenario, and once more as one that is only reported. The mimic does not know the
second one and gets it wrong, but both runs of the first one are correct. -/
theorem exitCode_zero_sound_mimic :
    let scenarios :=
      [sumScenario, { sumScenario with id := "arity/other", expectation := .advisory }]
    let suite := ({ runs := 2 } : Settings).runSuite "fake" scenarios
    let subject := (Mimic.faithful [sumScenario]).subject
    ∃ report, (suite.run subject ⟨(), [], 0⟩).1 = .ok report ∧ report.exitCode = 0 ∧
      report.advisoryFailures = 1 ∧
      (transcriptsOf "arity/sum2" (suite.calls subject ⟨(), [], 0⟩)).length = 2 ∧
      ∀ t ∈ transcriptsOf "arity/sum2" (suite.calls subject ⟨(), [], 0⟩),
        Criteria.IsCorrectRun {} sumScenario t := by
  intro scenarios suite subject
  have hcodes : (suite.run subject ⟨(), [], 0⟩).1.toOption.map
      (fun report => (report.exitCode, report.advisoryFailures)) = some (0, 1) := by
    decide +kernel
  cases hreport : (suite.run subject ⟨(), [], 0⟩).1 with
  | error failure =>
    rw [hreport] at hcodes
    cases hcodes
  | ok report =>
    rw [hreport] at hcodes
    obtain ⟨hexit, hadvisory⟩ := Prod.mk.inj (Option.some.inj hcodes)
    have hsound := exitCode_zero_sound { runs := 2 } subject "fake" scenarios (by decide)
      ⟨(), [], 0⟩ report hreport hexit sumScenario List.mem_cons_self rfl
    exact ⟨report, rfl, hexit, hadvisory, hsound⟩

end Settings
end TierCheck
