import TierCheck.Report.Tally

/-!
# What a collection reports

A verdict goes to the tally of its scenario, wherever that stands. A scenario that was not mentioned
before gets a tally at the end. So after scenarios with different ids the tallies are the scenarios
in order, each with its own verdicts, and the report passes a scenario only if all its verdicts
pass. Another order of the scenarios is nothing but another order in the report.

* `tallies_record`: one verdict.
* `tallies_recordOutcomes`, `report_recordOutcomes`: a row of new scenarios.
* `Tally.report_overall_pass`, `Tally.report_of_pass`: what it takes to pass.
* `SuiteReport.exitCode_ofScenarios_eq_zero`, `SuiteReport.ofScenarios_of_pass`: what it takes to
  succeed.
* `SuiteReport.ofScenarios_perm`: the report on the same scenarios in another order.
-/
namespace TierCheck

/-! ## The worst kind -/

namespace VerdictKind

theorem le_max (a b : VerdictKind) : a ≤ max a b ∧ b ≤ max a b := by
  cases a <;> cases b <;> decide

theorem le_foldl_max {kinds : List VerdictKind} {start kind : VerdictKind}
    (h : kind ≤ start ∨ kind ∈ kinds) : kind ≤ kinds.foldl max start := by
  induction kinds generalizing start with
  | nil => simpa using h
  | cons first rest ih =>
    refine ih ?_
    rcases h with h | h
    · exact .inl (Nat.le_trans h (le_max start first).1)
    · rcases List.mem_cons.1 h with rfl | h
      · exact .inl (le_max start kind).2
      · exact .inr h

theorem le_worst {kinds : List VerdictKind} {kind : VerdictKind} (h : kind ∈ kinds) :
    kind ≤ worst kinds := by
  cases kinds with
  | nil => cases h
  | cons first rest =>
    rcases List.mem_cons.1 h with rfl | h
    · exact le_foldl_max (.inl (Nat.le_refl _))
    · exact le_foldl_max (.inr h)

instance : Std.MaxEqOr VerdictKind where
  max_eq_or a b := by cases a <;> cases b <;> decide

/-- The worst of the kinds is one of them. -/
theorem worst_mem {kinds : List VerdictKind} (h : kinds ≠ []) : worst kinds ∈ kinds := by
  obtain ⟨first, rest, rfl⟩ := List.exists_cons_of_ne_nil h
  exact List.max?_mem rfl

theorem eq_pass_of_le_pass {kind : VerdictKind} (h : kind ≤ pass) : kind = pass := by
  cases kind <;> first | rfl | exact absurd h (by decide)

end VerdictKind

/-! ## Single mentions -/

/-- A tally that holds these verdicts. -/
def Tally.ofVerdicts (s : Scenario) (verdicts : List Verdict) : Tally :=
  { Tally.start s with verdicts }

namespace Collection

variable (c : Collection) (s : Scenario)

@[simp] theorem tallies_start (suite : String) : (start suite).tallies = [] := rfl

/-- The scenario has a place if and only if it was mentioned. -/
theorem places_eq_none_iff {id : String} :
    c.places[id]? = none ↔ ∀ tally ∈ c.tallies, tally.id ≠ id := by
  constructor
  · intro hnone tally hmem hid
    obtain ⟨place, hplace⟩ := List.mem_iff_getElem?.1 hmem
    rw [(c.arePlaces id place).2 ⟨tally, hplace, hid⟩] at hnone
    cases hnone
  · intro hnew
    cases hplace : c.places[id]? with
    | none => rfl
    | some place =>
      obtain ⟨tally, htally, hid⟩ := (c.arePlaces id place).1 hplace
      exact absurd hid (hnew tally (List.mem_of_getElem? htally))

theorem register_mentioned (h : ∃ tally ∈ c.tallies, tally.id = s.id) : c.register s = c := by
  unfold register slot
  split
  · rfl
  · next hnone =>
    obtain ⟨tally, hmem, hid⟩ := h
    exact absurd hid (c.places_eq_none_iff.1 hnone tally hmem)

theorem tallies_register_new (h : ∀ tally ∈ c.tallies, tally.id ≠ s.id) :
    (c.register s).tallies = c.tallies ++ [Tally.ofVerdicts s []] := by
  unfold register slot
  split
  · next place hplace =>
    rw [c.places_eq_none_iff.2 h] at hplace
    cases hplace
  · rfl

@[simp] theorem suite_register : (c.register s).suite = c.suite := by
  unfold register slot
  split <;> rfl

@[simp] theorem suite_record (verdict : Verdict) : (c.record s verdict).suite = c.suite :=
  c.suite_register s

/-- The place of the slot is that of the scenario's tally. -/
theorem exists_getElem?_slot :
    ∃ tally : Tally, (c.slot s).1.tallies[(c.slot s).2]? = some tally ∧ tally.id = s.id := by
  unfold slot
  split
  · next place hplace => exact (c.arePlaces s.id place).1 hplace
  · exact ⟨Tally.start s, by simp, rfl⟩

/-- A verdict goes to the tally of its scenario and to no other one. -/
theorem tallies_record (verdict : Verdict) :
    (c.record s verdict).tallies = (c.register s).tallies.map fun tally =>
      if tally.id = s.id then tally.add verdict else tally := by
  have hrecord : (c.record s verdict).tallies =
      (c.register s).tallies.modify (c.slot s).2 fun tally => tally.add verdict := rfl
  obtain ⟨mine, hmine, hid⟩ := c.exists_getElem?_slot s
  rw [hrecord]
  apply List.ext_getElem?
  intro place
  rw [List.getElem?_modify, List.getElem?_map]
  cases htally : (c.register s).tallies[place]? with
  | none => rfl
  | some tally =>
    -- only the tally at the slot's place has the scenario's id
    have hplace : (c.slot s).2 = place ↔ tally.id = s.id := by
      constructor
      · rintro rfl
        rw [← hid, ← Option.some.inj (hmine.symm.trans htally)]
      · intro htid
        exact (c.register s).arePlaces.place_unique hmine htally (hid.trans htid.symm)
    by_cases h : tally.id = s.id <;> simp [h, hplace]

/-! ## Scenarios one after another -/

/-- One more verdict of the scenario that was mentioned last. -/
theorem record_last {before : List Tally} {verdicts : List Verdict}
    (hc : c.tallies = before ++ [Tally.ofVerdicts s verdicts])
    (hbefore : ∀ tally ∈ before, tally.id ≠ s.id) (verdict : Verdict) :
    (c.record s verdict).tallies = before ++ [Tally.ofVerdicts s (verdicts ++ [verdict])] := by
  have hkeep : (before.map fun tally => if tally.id = s.id then tally.add verdict else tally) =
      before := by
    refine (List.map_congr_left fun tally hmem => ?_).trans (List.map_id _)
    rw [if_neg (hbefore tally hmem)]
    rfl
  have hmentioned : c.register s = c :=
    c.register_mentioned s ⟨Tally.ofVerdicts s verdicts, by simp [hc], rfl⟩
  rw [tallies_record, hmentioned, hc, List.map_append, hkeep]
  simp [Tally.ofVerdicts, Tally.start, Tally.add]

variable {c} {s}

theorem tallies_foldl_record {before : List Tally} (hbefore : ∀ tally ∈ before, tally.id ≠ s.id)
    (more : List Verdict) {verdicts : List Verdict}
    (hc : c.tallies = before ++ [Tally.ofVerdicts s verdicts]) :
    (more.foldl (fun c verdict => c.record s verdict) c).tallies =
      before ++ [Tally.ofVerdicts s (verdicts ++ more)] := by
  induction more generalizing c verdicts with
  | nil => rw [List.foldl_nil, List.append_nil, hc]
  | cons verdict more ih =>
    rw [List.foldl_cons, ih (c.record_last s hc hbefore verdict), List.append_assoc]
    rfl

theorem tallies_recordAll (h : ∀ tally ∈ c.tallies, tally.id ≠ s.id) (verdicts : List Verdict) :
    (c.recordAll s verdicts).tallies = c.tallies ++ [Tally.ofVerdicts s verdicts] :=
  tallies_foldl_record h verdicts (c.tallies_register_new s h)

theorem suite_foldl_record (more : List Verdict) :
    (more.foldl (fun c verdict => c.record s verdict) c).suite = c.suite := by
  induction more generalizing c with
  | nil => rfl
  | cons verdict more ih => rw [List.foldl_cons, ih, suite_record]

/-- The collection with the verdicts of several scenarios. -/
def recordOutcomes (c : Collection) (outcomes : List (Scenario × List Verdict)) : Collection :=
  outcomes.foldl (fun c outcome => c.recordAll outcome.1 outcome.2) c

theorem suite_recordOutcomes (outcomes : List (Scenario × List Verdict)) :
    (c.recordOutcomes outcomes).suite = c.suite := by
  induction outcomes generalizing c with
  | nil => rfl
  | cons first rest ih =>
    rw [recordOutcomes, List.foldl_cons]
    refine ih.trans ?_
    rw [recordAll, suite_foldl_record, suite_register]

theorem tallies_recordOutcomes {outcomes : List (Scenario × List Verdict)}
    (hids : (outcomes.map (·.1.id)).Nodup)
    (hnew : ∀ outcome ∈ outcomes, ∀ tally ∈ c.tallies, tally.id ≠ outcome.1.id) :
    (c.recordOutcomes outcomes).tallies =
      c.tallies ++ outcomes.map fun o => Tally.ofVerdicts o.1 o.2 := by
  induction outcomes generalizing c with
  | nil => simp [recordOutcomes]
  | cons first rest ih =>
    obtain ⟨s, verdicts⟩ := first
    rw [List.map_cons, List.nodup_cons] at hids
    have hfirst : (c.recordAll s verdicts).tallies =
        c.tallies ++ [Tally.ofVerdicts s verdicts] :=
      tallies_recordAll (hnew _ List.mem_cons_self) verdicts
    rw [recordOutcomes, List.foldl_cons]
    refine (ih hids.2 ?_).trans (by simp [hfirst])
    intro outcome hmem tally htally
    rw [hfirst] at htally
    rcases List.mem_append.1 htally with htally | htally
    · exact hnew outcome (List.mem_cons_of_mem _ hmem) tally htally
    · rw [List.mem_singleton.1 htally]
      intro hid
      exact hids.1 (List.mem_map.2 ⟨outcome, hmem, hid.symm⟩)

/-- The report on scenarios with different ids, each with its own verdicts. -/
theorem report_recordOutcomes (suite : String) {outcomes : List (Scenario × List Verdict)}
    (hids : (outcomes.map (·.1.id)).Nodup) :
    ((start suite).recordOutcomes outcomes).report =
      SuiteReport.ofScenarios suite (outcomes.map fun o => (Tally.ofVerdicts o.1 o.2).report) := by
  have htallies := tallies_recordOutcomes (c := start suite) hids fun _ _ _ h => nomatch h
  rw [report, suite_recordOutcomes, htallies, tallies_start, List.nil_append, List.map_map]
  rfl

end Collection

/-! ## What it takes to pass -/

/-- A scenario that passes was reported, and all its verdicts pass. -/
theorem Tally.report_overall_pass {t : Tally} (h : t.report.overall = .pass) :
    t.verdicts ≠ [] ∧ ∀ verdict ∈ t.verdicts, verdict.kind = .pass := by
  simp only [Tally.report] at h
  have hpass : ∀ verdict ∈ (if t.verdicts = [] then [nothingReported] else t.verdicts),
      verdict.kind = .pass := fun verdict hmem =>
    VerdictKind.eq_pass_of_le_pass
      (h ▸ VerdictKind.le_worst (List.mem_map.2 ⟨verdict, hmem, rfl⟩))
  by_cases hnil : t.verdicts = []
  · rw [if_pos hnil] at hpass
    exact absurd (hpass _ (List.mem_singleton.2 rfl)) (by decide)
  · rw [if_neg hnil] at hpass
    exact ⟨hnil, hpass⟩

/-- A scenario with verdicts that all pass is as it should be. -/
theorem Tally.report_of_pass {t : Tally} (hne : t.verdicts ≠ [])
    (hpass : ∀ verdict ∈ t.verdicts, verdict.kind = .pass) :
    t.report.verdicts = t.verdicts ∧ t.report.overall = .pass ∧
      t.report.checkpointsRun = t.verdicts.length ∧ t.report.firstFailure = none := by
  unfold report
  simp only [if_neg hne, true_and]
  refine ⟨?_, ?_, ?_⟩
  · have hsome : t.verdicts.map (·.kind) ≠ [] := by simpa using hne
    obtain ⟨verdict, hmem, hkind⟩ := List.mem_map.1 (VerdictKind.worst_mem hsome)
    rw [← hkind, hpass verdict hmem]
  · apply List.countP_eq_length.2
    intro verdict hmem
    simp [hpass verdict hmem]
  · apply List.find?_eq_none.2
    intro verdict hmem
    simp [hpass verdict hmem, VerdictKind.isPass]

/-- A suite whose scenarios all pass. -/
theorem SuiteReport.ofScenarios_of_pass (suite : String) {scenarios : List ScenarioReport}
    (h : ∀ r ∈ scenarios, r.overall = .pass) :
    (ofScenarios suite scenarios).passed = scenarios.length ∧
      (ofScenarios suite scenarios).exitCode = 0 := by
  constructor
  · apply List.countP_eq_length.2
    intro r hr
    simp [h r hr, VerdictKind.isPass]
  · have hfailed : (ofScenarios suite scenarios).failed = 0 := by
      apply List.countP_eq_zero.2
      intro r hr
      simp [ScenarioReport.isFailure, h r hr, VerdictKind.isPass]
    unfold exitCode isSuccess
    rw [hfailed]
    rfl

theorem SuiteReport.exitCode_ofScenarios_eq_zero {suite : String} {scenarios : List ScenarioReport}
    (h : (ofScenarios suite scenarios).exitCode = 0) :
    ∀ r ∈ scenarios, r.expectation = .strict → r.overall = .pass := by
  intro r hmem hstrict
  have hfailed : (ofScenarios suite scenarios).failed = 0 := by
    unfold exitCode isSuccess at h
    split at h
    · next hsuccess => exact of_decide_eq_true hsuccess
    · cases h
  have hr := List.countP_eq_zero.1 hfailed r hmem
  simpa [ScenarioReport.isFailure, VerdictKind.isPass, hstrict] using hr

/-! ## Another order -/

theorem Counts.ofKinds_perm {kinds kinds' : List VerdictKind} (h : kinds.Perm kinds') :
    Counts.ofKinds kinds = Counts.ofKinds kinds' := by
  unfold Counts.ofKinds
  simp only [h.count_eq]

/-- Another order of the scenarios changes no number of the report. -/
theorem SuiteReport.ofScenarios_perm (suite : String) {scenarios permuted : List ScenarioReport}
    (h : permuted.Perm scenarios) :
    ofScenarios suite permuted = { ofScenarios suite scenarios with scenarios := permuted } := by
  unfold ofScenarios
  simp only [h.length_eq, h.countP_eq, Counts.ofKinds_perm (h.map _),
    Counts.ofKinds_perm (h.flatMap_right _)]

end TierCheck
