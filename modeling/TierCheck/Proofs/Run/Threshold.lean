import TierCheck.Proofs.Report.Balance
import TierCheck.Proofs.Run.Classification
import TierCheck.Proofs.Scenario.Validity
import TierCheck.Proofs.Subject.Calls
import TierCheck.Run.Suite
import TierCheck.Subject.Mimic

/-!
# The length threshold of corrupted results

A wrong result is called corrupted if its text is longer than a threshold. A higher threshold
releases some corrupted results: they are wrong values then, or are corrupted for another reason.
What passes, what aborts and what is asked of the subject does not depend on the threshold, so with
one run of each scenario the success of a suite does not either.

* `Value.corruption?_eq_none_of_le`: what no sign tells of stays so.
* `Verdict.Relaxes`: a verdict under a lower threshold, and under a higher one.
* `Criteria.classify_relaxes`, `Criteria.runOnce_coupled`: one run under both thresholds.
* `Tally.relaxes_report`, `SuiteReport.relaxes_ofScenarios`: both reports.
* `Settings.runSuite_relaxes`: the result.
-/
namespace TierCheck

/-- A value that no sign of corruption tells of is not told of under a higher threshold. -/
theorem Value.corruption?_eq_none_of_le {v : Value} {declared : ResultKind} {low high : Nat}
    (h : low ≤ high) (hlow : v.corruption? declared low = none) :
    v.corruption? declared high = none := by
  unfold corruption? at hlow ⊢
  dsimp only at hlow ⊢
  split
  · rfl
  · next hscalar =>
    rw [if_neg hscalar] at hlow
    split at hlow
    · cases hlow
    · next hcallable =>
      rw [if_neg hcallable]
      split at hlow
      · cases hlow
      · next hsource =>
        rw [if_neg hsource]
        split at hlow
        · cases hlow
        · split at hlow
          · cases hlow
          · next hshort => exact if_neg (by omega)

/-! ## Verdicts under two thresholds -/

/-- What the verdict `strict` of a lower threshold is under a higher one: the kind and the detail
may change, and only if the verdict was that of a corrupted result. -/
structure Verdict.Relaxes (strict loose : Verdict) : Prop where
  same : loose = { strict with kind := loose.kind, detail := loose.detail }
  kind : loose.kind = strict.kind ∨ strict.kind = .corrupted ∧ loose.kind = .wrongValue
  eq_of_ne : strict.kind ≠ .corrupted → loose = strict

namespace Verdict.Relaxes

variable {strict loose : Verdict}

theorem refl (v : Verdict) : v.Relaxes v := ⟨rfl, .inl rfl, fun _ => rfl⟩

/-- What kinds count for, the kind of corrupted results apart, is the same. -/
theorem apply_kind {β : Type} {f : VerdictKind → β} (hf : f .wrongValue = f .corrupted)
    (h : strict.Relaxes loose) : f loose.kind = f strict.kind := by
  rcases h.kind with hkind | ⟨hstrict, hloose⟩
  · rw [hkind]
  · rw [hstrict, hloose, hf]

end Verdict.Relaxes

/-- The criteria with another threshold. -/
def Criteria.withThreshold (c : Criteria) (threshold : Nat) : Criteria :=
  { c with lengthThreshold := threshold }

namespace Criteria

variable (c : Criteria) {low high : Nat}

@[simp] theorem missing_withThreshold (threshold : Nat) (t : Transcript)
    (checkpoint : Checkpoint) :
    (c.withThreshold threshold).missing t checkpoint = c.missing t checkpoint := rfl

theorem judge_relaxes (h : low ≤ high) (s : Scenario) (checkpoint : Checkpoint) (value : Value)
    (raw : String) :
    ((c.withThreshold low).judge s checkpoint value raw).Relaxes
      ((c.withThreshold high).judge s checkpoint value raw) := by
  unfold judge
  by_cases hholds :
      ((c.withThreshold low).agreement s).holds value (s.expectedAt checkpoint) = true
  · have hhigh :
        ((c.withThreshold high).agreement s).holds value (s.expectedAt checkpoint) = true := hholds
    simp only [if_pos hholds, if_pos hhigh]
    exact .refl _
  · have hhigh :
        ¬((c.withThreshold high).agreement s).holds value (s.expectedAt checkpoint) = true := hholds
    simp only [if_neg hholds, if_neg hhigh]
    simp only [withThreshold]
    cases hlow : value.corruption? s.returns low with
    | none =>
      rw [Value.corruption?_eq_none_of_le h hlow]
      exact .refl _
    | some sign =>
      cases value.corruption? s.returns high with
      | none => exact ⟨rfl, .inr ⟨rfl, rfl⟩, fun hne => absurd rfl hne⟩
      | some sign' => exact ⟨rfl, .inl rfl, fun hne => absurd rfl hne⟩

/-- The verdicts of one transcript. -/
theorem classifyFrom_relaxes (h : low ≤ high) (s : Scenario) (t : Transcript)
    (checkpoints : List Checkpoint) (events : List Event) :
    Matches (List.Forall₂ Verdict.Relaxes)
      ((c.withThreshold low).classifyFrom s t checkpoints events)
      ((c.withThreshold high).classifyFrom s t checkpoints events) := by
  have hrefl : ∀ result, Matches (List.Forall₂ Verdict.Relaxes) result result :=
    .refl fun verdicts => List.forall₂_same.2 fun v _ => .refl v
  fun_induction classifyFrom (c.withThreshold low) s t checkpoints events with
  | case8 checkpoint later value raw events ih =>
    rw [classifyFrom_reading _ s t ⟨checkpoint, value, raw⟩ later events]
    exact ih.map fun verdicts verdicts' hverdicts =>
      .cons (c.judge_relaxes h s checkpoint value raw) hverdicts
  | _ => simp [classifyFrom, *]

/-- Whether the verdicts end early is the same. -/
theorem endsEarly_relaxes {strict loose : List Verdict}
    (h : List.Forall₂ Verdict.Relaxes strict loose) : endsEarly loose = endsEarly strict := by
  have hends : ∀ verdicts : List Verdict, endsEarly verdicts =
      (verdicts.map fun v => v.kind.endsScenario).getLast?.any id := by
    intro verdicts
    unfold endsEarly
    rw [List.getLast?_map, Option.any_map]
    rfl
  rw [hends, hends, map_eq_of_forall₂ (h.imp fun _ _ hv => hv.apply_kind rfl)]

/-- One run asks for the same under both thresholds. -/
theorem runOnce_coupled (h : low ≤ high) (s : Scenario) :
    Task.Coupled (List.Forall₂ Verdict.Relaxes) ((c.withThreshold low).runOnce s)
      ((c.withThreshold high).runOnce s) := by
  unfold runOnce
  refine .bind (.done (.refl (R := fun _ _ => True) (fun _ => trivial) s.check)) fun _ _ _ => ?_
  refine .execute _ _ fun transcript => ?_
  refine .bind (.done (c.classifyFrom_relaxes h s transcript _ _)) fun strict loose hverdicts => ?_
  rw [endsEarly_relaxes hverdicts]
  split
  · exact .reset (.pure hverdicts)
  · exact .pure hverdicts

/-- So does a scenario that runs once. -/
theorem runRepeated_coupled (h : low ≤ high) (s : Scenario) :
    Task.Coupled (List.Forall₂ Verdict.Relaxes) ((c.withThreshold low).runRepeated s 1)
      ((c.withThreshold high).runRepeated s 1) :=
  .bind (c.runOnce_coupled h s) fun _ _ hverdicts => .pure hverdicts

end Criteria

/-! ## Collections and reports under two thresholds -/

structure Tally.Relaxes (strict loose : Tally) : Prop where
  same : loose = { strict with verdicts := loose.verdicts }
  verdicts : List.Forall₂ Verdict.Relaxes strict.verdicts loose.verdicts

structure Collection.Relaxes (strict loose : Collection) : Prop where
  suite : loose.suite = strict.suite
  tallies : List.Forall₂ Tally.Relaxes strict.tallies loose.tallies

theorem Tally.Relaxes.id_eq {strict loose : Tally} (h : strict.Relaxes loose) :
    loose.id = strict.id := by rw [h.same]

theorem Tally.Relaxes.add {strict loose : Tally} {v v' : Verdict} (h : strict.Relaxes loose)
    (hv : v.Relaxes v') : (strict.add v).Relaxes (loose.add v') where
  same := by rw [Tally.add, Tally.add, h.same]
  verdicts := List.rel_append h.verdicts (.cons hv .nil)

namespace Collection.Relaxes

variable {strict loose : Collection} (h : strict.Relaxes loose) (s : Scenario)
include h

theorem register : (strict.register s).Relaxes (loose.register s) := by
  refine ⟨by simp [h.suite], ?_⟩
  have hids : loose.tallies.map (·.id) = strict.tallies.map (·.id) :=
    map_eq_of_forall₂ (h.tallies.imp fun _ _ => Tally.Relaxes.id_eq)
  by_cases hmem : s.id ∈ strict.tallies.map (·.id)
  · have hmem' : s.id ∈ loose.tallies.map (·.id) := hids ▸ hmem
    rw [strict.register_mentioned s (List.mem_map.1 hmem),
      loose.register_mentioned s (List.mem_map.1 hmem')]
    exact h.tallies
  · have hmem' : s.id ∉ loose.tallies.map (·.id) := hids ▸ hmem
    rw [strict.tallies_register_new s fun tally ht hid => hmem (List.mem_map.2 ⟨tally, ht, hid⟩),
      loose.tallies_register_new s fun tally ht hid => hmem' (List.mem_map.2 ⟨tally, ht, hid⟩)]
    exact List.rel_append h.tallies (.cons ⟨rfl, .nil⟩ .nil)

theorem record {v v' : Verdict} (hv : v.Relaxes v') :
    (strict.record s v).Relaxes (loose.record s v') := by
  have hregister := h.register s
  refine ⟨by simp [h.suite], ?_⟩
  rw [tallies_record, tallies_record, List.forall₂_map_left_iff, List.forall₂_map_right_iff]
  refine hregister.tallies.imp fun tally tally' htally => ?_
  rw [htally.id_eq]
  split
  · exact htally.add hv
  · exact htally

theorem recordAll {verdicts verdicts' : List Verdict}
    (hverdicts : List.Forall₂ Verdict.Relaxes verdicts verdicts') :
    (strict.recordAll s verdicts).Relaxes (loose.recordAll s verdicts') := by
  unfold Collection.recordAll
  have hstart := h.register s
  revert hstart
  generalize strict.register s = collection
  generalize loose.register s = collection'
  intro hstart
  induction hverdicts generalizing collection collection' with
  | nil => exact hstart
  | cons hv _ ih => exact ih _ _ (hstart.record s hv)

end Collection.Relaxes

structure ScenarioReport.Relaxes (strict loose : ScenarioReport) : Prop where
  same : loose = { strict with
    overall := loose.overall
    firstFailure := loose.firstFailure
    verdicts := loose.verdicts }
  verdicts : List.Forall₂ Verdict.Relaxes strict.verdicts loose.verdicts
  overall : loose.overall = .pass ↔ strict.overall = .pass
  firstFailure : Option.Rel Verdict.Relaxes strict.firstFailure loose.firstFailure

/-- The same report of a suite with the verdicts of a higher threshold. Only the numbers by kind
may differ. -/
structure SuiteReport.Relaxes (strict loose : SuiteReport) : Prop where
  same : loose = { strict with
    verdictCounts := loose.verdictCounts
    checkpointCounts := loose.checkpointCounts
    scenarios := loose.scenarios }
  scenarios : List.Forall₂ ScenarioReport.Relaxes strict.scenarios loose.scenarios

theorem countP_eq_of_forall₂ {α : Type} {R : α → α → Prop} {p : α → Bool} {l l' : List α}
    (h : List.Forall₂ R l l') (hp : ∀ a a', R a a' → p a' = p a) : l'.countP p = l.countP p := by
  have hmap := map_eq_of_forall₂ (h.imp hp)
  have hcount : ∀ l : List α, l.countP p = (l.map p).countP id := by
    intro l
    rw [List.countP_map]
    rfl
  rw [hcount, hcount, hmap]

theorem rel_find?_of_forall₂ {α : Type} {R : α → α → Prop} {p : α → Bool} {l l' : List α}
    (h : List.Forall₂ R l l') (hp : ∀ a a', R a a' → p a' = p a) :
    Option.Rel R (l.find? p) (l'.find? p) := by
  induction h with
  | nil => exact .none
  | @cons a a' l l' ha _ ih =>
    rw [List.find?_cons, List.find?_cons, hp a a' ha]
    cases p a with
    | true => exact .some ha
    | false => exact ih

theorem Tally.relaxes_report {strict loose : Tally} (h : strict.Relaxes loose) :
    strict.report.Relaxes loose.report := by
  have hnil : loose.verdicts = [] ↔ strict.verdicts = [] := by
    rw [← List.length_eq_zero_iff, ← List.length_eq_zero_iff, h.verdicts.length_eq]
  have hverdicts : List.Forall₂ Verdict.Relaxes strict.report.verdicts loose.report.verdicts := by
    simp only [report, hnil]
    split
    · exact .cons (.refl _) .nil
    · exact h.verdicts
  refine ⟨?_, hverdicts, ?_, ?_⟩
  · have hrun : loose.report.checkpointsRun = strict.report.checkpointsRun :=
      countP_eq_of_forall₂ hverdicts fun _ _ hv =>
        hv.apply_kind (f := fun kind => decide (kind ≠ .unstable)) rfl
    rw [ScenarioReport.mk.injEq]
    refine ⟨h.id_eq, ?_, ?_, ?_, rfl, hrun, ?_, rfl, rfl⟩ <;> simp only [report] <;> rw [h.same]
  · have hpasses : loose.verdicts.map (fun v => v.kind.isPass) =
        strict.verdicts.map fun v => v.kind.isPass :=
      map_eq_of_forall₂ (h.verdicts.imp fun _ _ hv => hv.apply_kind rfl)
    have hfails : ∀ verdicts : List Verdict, (∃ v ∈ verdicts, v.kind ≠ .pass) ↔
        false ∈ verdicts.map fun v => v.kind.isPass := by
      simp [VerdictKind.isPass]
    rw [← not_iff_not]
    change loose.report.overall ≠ .pass ↔ strict.report.overall ≠ .pass
    rw [report_overall_ne_pass_iff, report_overall_ne_pass_iff, hnil, hfails, hfails, hpasses]
  · exact rel_find?_of_forall₂ hverdicts fun _ _ hv =>
      hv.apply_kind (f := fun kind => !kind.isPass) rfl

theorem SuiteReport.relaxes_ofScenarios (suite : String) {strict loose : List ScenarioReport}
    (h : List.Forall₂ ScenarioReport.Relaxes strict loose) :
    (ofScenarios suite strict).Relaxes (ofScenarios suite loose) := by
  have hpass : ∀ r r' : ScenarioReport, r.Relaxes r' → r'.overall.isPass = r.overall.isPass :=
    fun r r' hr => decide_eq_decide.2 hr.overall
  have hexpectation : ∀ r r' : ScenarioReport, r.Relaxes r' → r'.expectation = r.expectation :=
    fun r r' hr => by rw [hr.same]
  have hfailure : ∀ expectation, ∀ r r' : ScenarioReport, r.Relaxes r' →
      (r'.isFailure && decide (r'.expectation = expectation)) =
        (r.isFailure && decide (r.expectation = expectation)) := by
    intro expectation r r' hr
    rw [ScenarioReport.isFailure, ScenarioReport.isFailure, hpass r r' hr, hexpectation r r' hr]
  refine ⟨?_, h⟩
  simp only [ofScenarios, h.length_eq, countP_eq_of_forall₂ h hpass,
    countP_eq_of_forall₂ h (hfailure _)]

/-- The reports of both collections. -/
theorem Collection.Relaxes.report {strict loose : Collection} (h : strict.Relaxes loose) :
    strict.report.Relaxes loose.report := by
  unfold Collection.report
  rw [h.suite]
  apply SuiteReport.relaxes_ofScenarios
  rw [List.forall₂_map_left_iff, List.forall₂_map_right_iff]
  exact h.tallies.imp fun _ _ => Tally.relaxes_report

/-! ## Suites under two thresholds -/

namespace Settings

variable (c : Settings) {low high : Nat}

/-- The settings with one run of each scenario and this threshold. -/
def runningOnce (c : Settings) (threshold : Nat) : Settings :=
  { c with runs := 1, criteria := c.criteria.withThreshold threshold }

theorem runFrom_coupled (h : low ≤ high) (scenarios : List Scenario) {strict loose : Collection}
    (hcollections : strict.Relaxes loose) :
    Task.Coupled SuiteReport.Relaxes ((c.runningOnce low).runFrom strict scenarios)
      ((c.runningOnce high).runFrom loose scenarios) := by
  induction scenarios generalizing strict loose with
  | nil => exact .pure hcollections.report
  | cons s rest ih =>
    exact .bind (c.criteria.runRepeated_coupled h s) fun verdicts verdicts' hverdicts =>
      ih (hcollections.recordAll s hverdicts)

/-- The length threshold decides nothing but which wrong values are called corrupted. With one run
of each scenario, whatever the subject, a suite makes the same calls under two thresholds, and
either fails alike or reports the same scenarios with the same numbers of successes and failures.
Each verdict is the same, unless it is that of a corrupted result under the lower threshold: under
the higher one it may be that of a wrong value, or have another detail. -/
theorem runSuite_relaxes {σ : Type} (subject : Subject σ) (name : String)
    (scenarios : List Scenario) (state : σ) (h : low ≤ high) :
    let suite threshold :=
      ((c.runningOnce threshold).runSuite name scenarios).run subject.recorded (state, [])
    (suite low).2 = (suite high).2 ∧
      ((∃ failure, (suite low).1 = .error failure ∧ (suite high).1 = .error failure) ∨
        ∃ strict loose, (suite low).1 = .ok strict ∧ (suite high).1 = .ok loose ∧
          strict.Relaxes loose ∧ loose.exitCode = strict.exitCode) := by
  intro suite
  have hstart : (Collection.start name).Relaxes (.start name) := ⟨rfl, .nil⟩
  obtain ⟨hcalls, hmatch⟩ := (c.runFrom_coupled h scenarios hstart).run subject.recorded (state, [])
  refine ⟨hcalls, ?_⟩
  change Matches SuiteReport.Relaxes (suite low).1 (suite high).1 at hmatch
  generalize (suite low).1 = x at hmatch ⊢
  generalize (suite high).1 = y at hmatch ⊢
  cases hmatch with
  | error failure => exact .inl ⟨failure, rfl, rfl⟩
  | @ok strict loose hrelaxes =>
    have hfailed : loose.failed = strict.failed := by rw [hrelaxes.same]
    refine .inr ⟨strict, loose, rfl, rfl, hrelaxes, ?_⟩
    unfold SuiteReport.exitCode SuiteReport.isSuccess
    rw [hfailed]

/-- A mimic that tells a long story at the first checkpoint and exits on the way to the second. -/
def longWinded : Mimic Unit :=
  { behaviour := fun memory call =>
      (if call.index = 0 then .value (.string "the sum of one and two") else .exit 1, memory) }

/-- The long text is corrupted under a threshold of 10 and a wrong value under one of 50. The abort
after it is the same, and so are the executions, the reset and the exit code. -/
theorem runSuite_relaxes_longWinded :
    let suite threshold := ((({} : Settings).runningOnce threshold).runSuite "fake"
      [sumScenario]).run longWinded.subject.recorded (⟨(), [], 0⟩, [])
    let kinds (report : SuiteReport) := report.scenarios.map fun r => r.verdicts.map (·.kind)
    10 ≤ 50 ∧ (suite 10).2.1.executed = ["arity/sum2"] ∧ (suite 10).2.1.resets = 1 ∧
      (suite 10).2 = (suite 50).2 ∧
      ∃ strict loose, (suite 10).1 = .ok strict ∧ (suite 50).1 = .ok loose ∧
        kinds strict = [[.corrupted, .crashed]] ∧ kinds loose = [[.wrongValue, .crashed]] ∧
        strict.Relaxes loose ∧ strict.exitCode = 1 ∧ loose.exitCode = 1 := by
  intro suite kinds
  obtain ⟨hcalls, hresult⟩ := runSuite_relaxes {} longWinded.subject "fake" [sumScenario]
    ⟨(), [], 0⟩ (by decide : 10 ≤ 50)
  have hkinds : (suite 10).1.toOption.map kinds = some [[.corrupted, .crashed]] ∧
      (suite 50).1.toOption.map kinds = some [[.wrongValue, .crashed]] := by decide +kernel
  have hcode : (suite 10).1.toOption.map (·.exitCode) = some 1 := by decide +kernel
  rcases hresult with ⟨failure, hlow, -⟩ | ⟨strict, loose, hlow, hhigh, hrelaxes, hsame⟩
  · rw [show (suite 10).1 = .error failure from hlow] at hcode
    cases hcode
  · rw [show (suite 10).1 = .ok strict from hlow] at hkinds hcode
    rw [show (suite 50).1 = .ok loose from hhigh] at hkinds
    have hstrict : strict.exitCode = 1 := Option.some.inj hcode
    exact ⟨by decide, by decide +kernel, by decide +kernel, hcalls, strict, loose, hlow, hhigh,
      Option.some.inj hkinds.1, Option.some.inj hkinds.2, hrelaxes, hstrict, hsame.trans hstrict⟩

end Settings
end TierCheck
