import TierCheck.Proofs.Judgement.Agreement
import TierCheck.Proofs.Report.Collecting
import TierCheck.Proofs.Run.Imitation
import TierCheck.Run.Suite

/-!
# What success is sure of

A subject that gives the right results passes every scenario, whatever the results are: each of
them agrees with itself, so it is never inspected for corruption, and repeated runs do not differ.

* `Mimic.nextAnswers_faithful`: a mimic that knows the scenarios gives the right results.
* `Settings.runFrom_faithful`: the suite on such a mimic, with the runs that it makes.
* `ScenarioReport.IsFlawless`: what the report of a scenario says then.
* `Settings.runSuite_faithful`: the result.
-/
namespace TierCheck

/-! ## Right results pass -/

namespace Scenario

/-- The verdict of the right result. -/
def rightVerdict (s : Scenario) (checkpoint : Checkpoint) : Verdict :=
  { kind := .pass
    checkpoint := checkpoint.name
    expected := (s.expectedAt checkpoint).text
    actual := (s.expectedAt checkpoint).text
    raw := (s.expectedAt checkpoint).text }

def rightVerdicts (s : Scenario) : List Verdict := s.checkpoints.map s.rightVerdict

def rightAnswers (s : Scenario) : List (Checkpoint × MimicResponse) :=
  s.checkpoints.map fun checkpoint => (checkpoint, .value (s.expectedAt checkpoint))

theorem stop?_rightAnswers (s : Scenario) : stop? s.rightAnswers = none := by
  rw [stop?, List.find?_eq_none]
  intro answer hmem
  obtain ⟨checkpoint, -, rfl⟩ := List.mem_map.1 hmem
  simp [MimicResponse.isValue]

theorem upToStop_rightAnswers (s : Scenario) : upToStop s.rightAnswers = s.rightAnswers := by
  rw [upToStop, s.stop?_rightAnswers, Option.toList_none, List.append_nil,
    List.takeWhile_eq_self_iff]
  intro answer hmem
  obtain ⟨checkpoint, -, rfl⟩ := List.mem_map.1 hmem
  rfl

end Scenario

theorem Criteria.answerVerdict_right (c : Criteria) (s : Scenario) (checkpoint : Checkpoint) :
    c.answerVerdict s (checkpoint, .value (s.expectedAt checkpoint)) =
      s.rightVerdict checkpoint := by
  rw [answerVerdict, judge]
  simp only [Agreement.holds_self, if_true]
  rfl

theorem Criteria.map_answerVerdict_right (c : Criteria) (s : Scenario) :
    (upToStop s.rightAnswers).map (c.answerVerdict s) = s.rightVerdicts := by
  rw [s.upToStop_rightAnswers, Scenario.rightAnswers, List.map_map]
  exact List.map_congr_left fun checkpoint _ => c.answerVerdict_right s checkpoint

/-! ## A mimic that knows the scenarios -/

namespace Mimic

variable {scenarios : List Scenario} {s : Scenario}
  (hids : (scenarios.map (·.id)).Nodup) (hs : s ∈ scenarios)

include hids hs

/-- The results of a scenario are found by its id. -/
theorem find?_knowledge :
    (knowledge scenarios).reverse.find? (fun (other, _) => other = s.id) =
      some (s.id, s.expectedResults) := by
  have hmem : (s.id, s.expectedResults) ∈ (knowledge scenarios).reverse :=
    List.mem_reverse.2 (List.mem_map_of_mem hs)
  cases hfind : (knowledge scenarios).reverse.find? (fun (other, _) => other = s.id) with
  | none => simpa using List.find?_eq_none.1 hfind _ hmem
  | some entry =>
    obtain ⟨other, hother, rfl⟩ :=
      List.mem_map.1 (List.mem_reverse.1 (List.mem_of_find?_eq_some hfind))
    have hid : other.id = s.id := by simpa using List.find?_some hfind
    rw [List.inj_on_of_nodup_map hids hother hs hid]

theorem expected?_faithful (index : Nat) :
    (faithful scenarios).expected? s.id index = s.checkpoints[index]?.map s.expectedAt := by
  rw [expected?, show (faithful scenarios).known = knowledge scenarios from rfl,
    find?_knowledge hids hs, Option.bind_some]
  exact List.getElem?_map

theorem answers_faithful (run : Nat) (memory : Unit) {later : List Checkpoint} {index : Nat}
    (hlater : s.checkpoints.drop index = later) :
    (faithful scenarios).answers s.id run memory index later =
      later.map fun checkpoint => (checkpoint, .value (s.expectedAt checkpoint)) := by
  -- the checkpoints that are left are those from the mimic's own index on
  induction later generalizing index with
  | nil => rfl
  | cons checkpoint later ih =>
    have hhere : s.checkpoints[index]? = some checkpoint := by
      rw [← List.head?_drop, hlater, List.head?_cons]
    have hrest : s.checkpoints.drop (index + 1) = later := by
      rw [← List.tail_drop, hlater, List.tail_cons]
    rw [answers, List.map_cons, ← ih hrest, expected?_faithful hids hs, hhere]
    rfl

theorem nextAnswers_faithful (state : MimicState Unit) :
    (faithful scenarios).nextAnswers state s = s.rightAnswers :=
  answers_faithful hids hs _ _ List.drop_zero

end Mimic

/-! ## Runs -/

namespace Criteria

variable (c : Criteria) {scenarios : List Scenario} {s : Scenario}
  (hids : (scenarios.map (·.id)).Nodup) (hs : s ∈ scenarios) (hvalid : s.IsValid)

include hids hs hvalid

theorem runOnce_faithful (state : MimicState Unit) :
    (c.runOnce s).run (Mimic.faithful scenarios).subject state =
      (.ok s.rightVerdicts, { state with executed := s.id :: state.executed }) := by
  obtain ⟨memory, hrun⟩ := c.runOnce_mimic (Mimic.faithful scenarios) hvalid state
  rw [hrun, Mimic.nextAnswers_faithful hids hs, c.map_answerVerdict_right, s.stop?_rightAnswers]
  rfl

/-- Runs with the same verdicts do not differ. -/
theorem repeatFrom_faithful (attempt remaining : Nat) (state : MimicState Unit) :
    (c.repeatFrom s s.rightVerdicts attempt remaining).run (Mimic.faithful scenarios).subject
        state =
      (.ok s.rightVerdicts,
        { state with executed := List.replicate remaining s.id ++ state.executed }) := by
  induction remaining generalizing attempt state with
  | zero => rfl
  | succ remaining ih =>
    rw [repeatFrom, Task.run_bind, c.runOnce_faithful hids hs hvalid]
    simp only [firstDivergence?_eq_none_iff.2 rfl, ih]
    simp [List.replicate_succ']

theorem runRepeated_faithful (runs : Nat) (state : MimicState Unit) :
    (c.runRepeated s runs).run (Mimic.faithful scenarios).subject state =
      (.ok s.rightVerdicts,
        { state with executed := List.replicate (max 1 runs) s.id ++ state.executed }) := by
  rw [runRepeated, Task.run_bind, c.runOnce_faithful hids hs hvalid]
  simp only [c.repeatFrom_faithful hids hs hvalid]
  rw [show max 1 runs = runs - 1 + 1 by omega]
  simp [List.replicate_succ']

end Criteria

namespace Settings

variable (c : Settings)

/-- The ids of the scenarios, as often as they run. -/
def runsOf (scenarios : List Scenario) : List String :=
  scenarios.flatMap fun s => List.replicate (max 1 c.runs) s.id

theorem runFrom_faithful {all scenarios : List Scenario} (hids : (all.map (·.id)).Nodup)
    (hall : scenarios ⊆ all) (hvalid : ∀ s ∈ scenarios, s.IsValid) (collection : Collection)
    (state : MimicState Unit) :
    (c.runFrom collection scenarios).run (Mimic.faithful all).subject state =
      (.ok (collection.recordOutcomes (scenarios.map fun s => (s, s.rightVerdicts))).report,
        { state with executed := (c.runsOf scenarios).reverse ++ state.executed }) := by
  induction scenarios generalizing collection state with
  | nil => rfl
  | cons s rest ih =>
    rw [runFrom, Task.run_bind, c.criteria.runRepeated_faithful hids (hall List.mem_cons_self)
      (hvalid s List.mem_cons_self)]
    simp only
    rw [ih (fun s' hs' => hall (List.mem_cons_of_mem s hs'))
      fun s' hs' => hvalid s' (List.mem_cons_of_mem s hs')]
    simp [runsOf, Collection.recordOutcomes]

end Settings

/-! ## Reports -/

structure ScenarioReport.IsFlawless (r : ScenarioReport) (s : Scenario) : Prop where
  id_eq : r.id = s.id
  overall_eq : r.overall = .pass
  checkpointsTotal_eq : r.checkpointsTotal = s.checkpoints.length
  checkpointsRun_eq : r.checkpointsRun = r.checkpointsTotal
  firstFailure_eq : r.firstFailure = none
  verdicts_pass : List.Forall₂
    (fun checkpoint verdict => verdict.checkpoint = checkpoint.name ∧ verdict.kind = .pass)
    s.checkpoints r.verdicts

theorem Scenario.kind_of_mem_rightVerdicts {s : Scenario} {verdict : Verdict}
    (h : verdict ∈ s.rightVerdicts) : verdict.kind = .pass := by
  obtain ⟨checkpoint, -, rfl⟩ := List.mem_map.1 h
  rfl

theorem Tally.isFlawless_report {s : Scenario} (hs : s.checkpoints ≠ []) :
    (Tally.ofVerdicts s s.rightVerdicts).report.IsFlawless s := by
  have hne : s.rightVerdicts ≠ [] := by simpa [Scenario.rightVerdicts] using hs
  obtain ⟨hverdicts, hoverall, hrun, hfirst⟩ :=
    Tally.report_of_pass (t := Tally.ofVerdicts s s.rightVerdicts) hne
      fun verdict hmem => Scenario.kind_of_mem_rightVerdicts hmem
  constructor
  · rfl
  · exact hoverall
  · rfl
  · rw [hrun]
    exact List.length_map _
  · exact hfirst
  · rw [hverdicts]
    show List.Forall₂ _ _ (s.checkpoints.map s.rightVerdict)
    rw [List.forall₂_map_right_iff, List.forall₂_same]
    intro checkpoint _
    exact ⟨rfl, rfl⟩

namespace Settings

/-- A mimic that knows the scenarios passes them all, whatever their results and the settings are:
the suite has a report, every checkpoint of every scenario passes, each scenario runs as often as it
should, in order, and there is no reset. -/
theorem runSuite_faithful (c : Settings) (name : String) (scenarios : List Scenario)
    (hids : (scenarios.map (·.id)).Nodup) (hvalid : ∀ s ∈ scenarios, s.IsValid)
    (state : MimicState Unit) :
    ∃ report after, (c.runSuite name scenarios).run (Mimic.faithful scenarios).subject state =
        (.ok report, after) ∧
      List.Forall₂ (fun s r => r.IsFlawless s) scenarios report.scenarios ∧
      report.totalScenarios = scenarios.length ∧
      report.passed = report.totalScenarios ∧
      report.exitCode = 0 ∧
      after.executed =
        (scenarios.flatMap fun s => List.replicate (max 1 c.runs) s.id).reverse ++ state.executed ∧
      after.resets = state.resets := by
  have hids' : ((scenarios.map fun s => (s, s.rightVerdicts)).map (·.1.id)).Nodup := by
    rwa [List.map_map]
  have hreport := Collection.report_recordOutcomes name hids'
  rw [List.map_map] at hreport
  have hflawless : List.Forall₂ (fun s r => r.IsFlawless s) scenarios
      (scenarios.map fun s => (Tally.ofVerdicts s s.rightVerdicts).report) := by
    rw [List.forall₂_map_right_iff, List.forall₂_same]
    intro s hs
    exact Tally.isFlawless_report (hvalid s hs).checkpoints_ne_nil
  have hpass : ∀ r ∈ scenarios.map fun s => (Tally.ofVerdicts s s.rightVerdicts).report,
      r.overall = .pass := by
    intro r hr
    obtain ⟨s, hs, rfl⟩ := List.mem_map.1 hr
    exact (Tally.isFlawless_report (hvalid s hs).checkpoints_ne_nil).overall_eq
  obtain ⟨hpassed, hexit⟩ := SuiteReport.ofScenarios_of_pass name hpass
  refine ⟨_, _, c.runFrom_faithful hids (List.Subset.refl _) hvalid _ state, ?_⟩
  rw [hreport]
  exact ⟨hflawless, List.length_map _, hpassed, hexit, rfl, rfl⟩

/-- Results that are hard to compare: a value that is not a number, a zero with a sign, and the
source of a function where a number is due. -/
def awkwardResult : List Value → Value
  | [.number a, .number b] =>
    if a.isZero then .number .negZero
    else if b.isZero then .number .nan
    else .function "function leaked(x) \x7b return x; \x7d"
  | _ => .undefined

/-- A scenario with these results. -/
def awkwardScenario : Scenario :=
  { sumScenario with
    id := "arity/awkward"
    zeroSign := true
    checkpoints := [⟨"warm", 10, 0⟩, ⟨"hot", 100, 1⟩, ⟨"hotter", 1000, 2⟩]
    argumentSets :=
      [[.ofNat 0, .ofNat 1], [.ofNat 1, .ofNat 0], [.ofNat 1, .ofNat 1]]
    reference := awkwardResult }

/-- Two runs of each of two scenarios, one of them awkward. -/
theorem runSuite_faithful_awkward :
    let scenarios := [sumScenario, awkwardScenario]
    awkwardScenario.expectedResults = [.number .negZero, .number .nan,
        .function "function leaked(x) \x7b return x; \x7d"] ∧
      (scenarios.map (·.id)).Nodup ∧ (∀ s ∈ scenarios, s.IsValid) ∧ ∃ report after,
      (({ runs := 2 } : Settings).runSuite "fake" scenarios).run (Mimic.faithful scenarios).subject
          ⟨(), [], 0⟩ = (.ok report, after) ∧
        report.passed = 2 ∧ report.exitCode = 0 ∧
        after.executed = ["arity/awkward", "arity/awkward", "arity/sum2", "arity/sum2"] ∧
        after.resets = 0 := by
  intro scenarios
  have hids : (scenarios.map (·.id)).Nodup := by decide
  have hvalid : ∀ s ∈ scenarios, s.IsValid := by
    intro s hs
    rcases List.mem_pair.1 hs with rfl | rfl
    · exact sumScenario_isValid
    · rfl
  obtain ⟨report, after, hrun, -, htotal, hpassed, hexit, hexecuted, hresets⟩ :=
    runSuite_faithful { runs := 2 } "fake" scenarios hids hvalid ⟨(), [], 0⟩
  exact ⟨by decide +kernel, hids, hvalid, report, after, hrun, hpassed.trans htotal, hexit,
    hexecuted, hresets⟩

end Settings

end TierCheck
