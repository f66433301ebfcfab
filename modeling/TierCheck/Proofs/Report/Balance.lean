import TierCheck.Proofs.Lists
import TierCheck.Proofs.Report.Mentions

/-!
# What the numbers of a report say

The numbers of a report are counted apart from each other, and they agree: a scenario is counted as
passed, as failed or as an advisory failure, and under one kind; a verdict is counted under one
kind. The exit code tells whether a strict scenario has a verdict that does not pass, or none at
all. What is expected of a scenario decides only on which side its failure is counted.

* `Counts.total_ofKinds`: counts by kind leave none out.
* `SuiteReport.passed_add_failures`: every scenario is counted once.
* `CombinedReport.exitCode_eq`: the exit code is that of success or that of failure.
* `Collection.isSuccess_report_iff`: what success is, in terms of what was recorded.
* `Collection.report_expecting`: what a change of expectations leaves alone.
* `CombinedReport.exitCode_le_of_marked`: what advisory marks do to the exit code.
* `CombinedReport.ofMentions_balances`: the result.
-/
namespace TierCheck

/-! ## Counts by kind -/

/-- The sum of the counts of entries. -/
def sumCounts (entries : List (String × Nat)) : Nat :=
  entries.foldr (fun entry n => entry.2 + n) 0

@[simp] theorem sumCounts_nil : sumCounts [] = 0 := rfl

@[simp] theorem sumCounts_cons (entry : String × Nat) (entries : List (String × Nat)) :
    sumCounts (entry :: entries) = entry.2 + sumCounts entries := rfl

theorem sumCounts_insertCount {name : String} {count : Nat} {entries : List (String × Nat)}
    (h : ∀ entry ∈ entries, entry.1 ≠ name) :
    sumCounts (insertCount name count entries) = count + sumCounts entries := by
  induction entries with
  | nil => rfl
  | cons first rest ih =>
    obtain ⟨other, n⟩ := first
    obtain ⟨hfirst, hrest⟩ := List.forall_mem_cons.1 h
    rw [insertCount]
    split
    · rfl
    · rw [if_neg (Ne.symm hfirst), sumCounts_cons, sumCounts_cons, ih hrest]
      omega

namespace Counts

def total (c : Counts) : Nat := sumCounts c.entries

/-- If no name is there twice, every count goes into the sum. -/
theorem total_foldl_insert {entries : List (String × Nat)} (hnames : (entries.map (·.1)).Nodup)
    {c : Counts} (hnew : ∀ entry ∈ entries, ∀ old ∈ c.entries, old.1 ≠ entry.1) :
    (entries.foldl (fun c (name, count) => c.insert name count) c).total =
      c.total + sumCounts entries := by
  induction entries generalizing c with
  | nil => rfl
  | cons first rest ih =>
    obtain ⟨name, count⟩ := first
    rw [List.map_cons, List.nodup_cons] at hnames
    have hinsert : (c.insert name count).total = count + c.total :=
      sumCounts_insertCount (hnew _ List.mem_cons_self)
    rw [List.foldl_cons, ih hnames.2, hinsert, sumCounts_cons]
    · omega
    · intro entry hentry old hold
      rcases mem_insertCount hold with hname | hold
      · rintro hsame
        exact hnames.1 (List.mem_map.2 ⟨entry, hentry, hsame.symm.trans hname⟩)
      · exact hnew entry (List.mem_cons_of_mem _ hentry) old hold

theorem sumCounts_kinds (kinds : List VerdictKind) :
    sumCounts (VerdictKind.all.map fun kind => (kind.name, kinds.count kind)) = kinds.length := by
  induction kinds with
  | nil => rfl
  | cons first rest ih =>
    simp only [VerdictKind.all, List.map_cons, List.map_nil, sumCounts_cons, sumCounts_nil] at ih ⊢
    cases first <;> simp <;> omega

/-- Each kind of the list is counted under one name. -/
theorem total_ofKinds (kinds : List VerdictKind) : (ofKinds kinds).total = kinds.length := by
  have hnames : ((VerdictKind.all.map fun kind => (kind.name, kinds.count kind)).map
      (·.1)).Nodup := by
    rw [List.map_map]
    exact (by decide : (VerdictKind.all.map VerdictKind.name).Nodup)
  rw [ofKinds, ofList, total_foldl_insert hnames (fun _ _ _ hold => absurd hold List.not_mem_nil),
    sumCounts_kinds]
  exact Nat.zero_add _

end Counts

/-! ## The numbers of one suite -/

namespace SuiteReport

/-- Each scenario passed, failed or is an advisory failure. -/
theorem passed_add_failures (suite : String) (scenarios : List ScenarioReport) :
    (ofScenarios suite scenarios).passed + (ofScenarios suite scenarios).failed +
      (ofScenarios suite scenarios).advisoryFailures = scenarios.length := by
  simp only [ofScenarios, ScenarioReport.isFailure]
  induction scenarios with
  | nil => rfl
  | cons r rest ih =>
    simp only [List.countP_cons, List.length_cons]
    cases hpass : r.overall.isPass <;> cases hexpectation : r.expectation <;> simp <;> omega

theorem isSuccess_ofScenarios_iff {suite : String} {scenarios : List ScenarioReport} :
    (ofScenarios suite scenarios).isSuccess = true ↔
      ∀ r ∈ scenarios, r.expectation = .strict → r.overall = .pass := by
  simp only [isSuccess, ofScenarios, decide_eq_true_eq, List.countP_eq_zero]
  refine forall₂_congr fun r _ => ?_
  cases hexpectation : r.expectation <;>
    simp [ScenarioReport.isFailure, VerdictKind.isPass]

end SuiteReport

/-- A scenario does not pass if nothing was reported of it or one of its verdicts does not. -/
theorem Tally.report_overall_ne_pass_iff {t : Tally} :
    t.report.overall ≠ .pass ↔ t.verdicts = [] ∨ ∃ verdict ∈ t.verdicts, verdict.kind ≠ .pass := by
  constructor
  · intro h
    by_cases hnil : t.verdicts = []
    · exact .inl hnil
    · refine .inr (Classical.byContradiction fun hall => h ?_)
      refine (Tally.report_of_pass hnil fun verdict hmem => ?_).2.1
      exact Classical.byContradiction fun hkind => hall ⟨verdict, hmem, hkind⟩
  · rintro (hnil | ⟨verdict, hmem, hkind⟩) hpass
    · exact (Tally.report_overall_pass hpass).1 hnil
    · exact hkind ((Tally.report_overall_pass hpass).2 verdict hmem)

/-- A strict scenario was mentioned that has a verdict that does not pass, or none. -/
def FailsStrictly (mentions : List Mention) : Prop :=
  ∃ s ∈ firstMentions mentions, s.expectation = .strict ∧
    (verdictsFor s.id mentions = [] ∨ ∃ verdict ∈ verdictsFor s.id mentions, verdict.kind ≠ .pass)

theorem Collection.isSuccess_report_iff (suite : String) (mentions : List Mention) :
    (ofMentions suite mentions).report.isSuccess = true ↔ ¬FailsStrictly mentions := by
  rw [report_ofMentions_eq, SuiteReport.isSuccess_ofScenarios_iff, talliesFor, List.map_map,
    List.forall_mem_map]
  constructor
  · rintro h ⟨s, hs, hstrict, hfails⟩
    exact Tally.report_overall_ne_pass_iff.2 hfails (h s hs hstrict)
  · intro h s hs hstrict
    exact Classical.byContradiction fun hoverall =>
      h ⟨s, hs, hstrict, Tally.report_overall_ne_pass_iff.1 hoverall⟩

/-! ## The exit code of several suites -/

namespace CombinedReport

theorem exitCode_cons (first : SuiteReport) (rest : List SuiteReport) :
    exitCode ⟨first :: rest⟩ = max first.exitCode (exitCode ⟨rest⟩) := by
  simp only [exitCode, List.map_cons, List.max?_cons, Option.getD_some]
  cases (rest.map SuiteReport.exitCode).max? <;> simp

/-- The exit code is that of success or that of failure. -/
theorem exitCode_eq (r : CombinedReport) : r.exitCode = if r.isSuccess then 0 else 1 := by
  obtain ⟨suites⟩ := r
  induction suites with
  | nil => rfl
  | cons first rest ih =>
    rw [exitCode_cons, ih, SuiteReport.exitCode]
    simp only [isSuccess, List.all_cons, Bool.and_eq_true]
    by_cases hfirst : first.isSuccess <;> by_cases hrest : rest.all SuiteReport.isSuccess <;>
      simp [hfirst, hrest]

/-- The report of several suites, each after its mentions. -/
def ofMentions (suites : List (String × List Mention)) : CombinedReport :=
  ⟨suites.map fun (suite, mentions) => (Collection.ofMentions suite mentions).report⟩

theorem isSuccess_ofMentions_iff (suites : List (String × List Mention)) :
    (ofMentions suites).isSuccess = true ↔ ¬∃ suite ∈ suites, FailsStrictly suite.2 := by
  simp [isSuccess, ofMentions, Collection.isSuccess_report_iff]

theorem exitCode_ofMentions_eq_one_iff (suites : List (String × List Mention)) :
    (ofMentions suites).exitCode = 1 ↔ ∃ suite ∈ suites, FailsStrictly suite.2 := by
  have hsuccess := isSuccess_ofMentions_iff suites
  rw [exitCode_eq]
  split
  · next h => simpa using hsuccess.1 h
  · next h => simpa using Classical.not_not.1 fun hnone => h (hsuccess.2 hnone)

theorem exitCode_ofMentions_eq_zero_iff (suites : List (String × List Mention)) :
    (ofMentions suites).exitCode = 0 ↔ ¬∃ suite ∈ suites, FailsStrictly suite.2 := by
  rw [← isSuccess_ofMentions_iff, exitCode_eq]
  split
  · next h => simp [h]
  · next h => simp [h]

end CombinedReport

/-! ## Other expectations -/

/-- The mention of the scenario with another expectation. -/
def Mention.expecting (m : Mention) (expectation : Expectation) : Mention :=
  { m with scenario := { m.scenario with expectation } }

/-- The report of the scenario with another expectation. -/
def ScenarioReport.expecting (r : ScenarioReport) (expectation : Expectation) : ScenarioReport :=
  { r with expectation }

section

variable {mentions others : List Mention}

/-- First mentions depend on the ids alone. -/
theorem forall₂_firstMentions {R : Scenario → Scenario → Prop}
    (hid : ∀ s s', R s s' → s'.id = s.id)
    (h : List.Forall₂ (fun m m' => R m.scenario m'.scenario) mentions others) :
    List.Forall₂ R (firstMentions mentions) (firstMentions others) := by
  induction h with
  | nil => exact .nil
  | @cons m m' mentions others hm _ ih =>
    refine .cons hm (List.rel_filter ?_ ih)
    intro s s' hs
    simp [hid s s' hs, hid _ _ hm]

theorem verdictsFor_congr (h : List.Forall₂
      (fun m m' => m'.scenario.id = m.scenario.id ∧ m'.verdict? = m.verdict?) mentions others)
    (id : String) : verdictsFor id others = verdictsFor id mentions := by
  induction h with
  | nil => rfl
  | cons hm _ ih =>
    simp only [verdictsFor] at ih ⊢
    rw [List.filterMap_cons, List.filterMap_cons, hm.1, hm.2, ih]

theorem verdictsFor_expecting
    (h : List.Forall₂ (fun m m' => ∃ e, m' = m.expecting e) mentions others) (id : String) :
    verdictsFor id others = verdictsFor id mentions :=
  verdictsFor_congr (h.imp fun _ _ ⟨_, hm⟩ => by simp [hm, Mention.expecting]) id

/-- Other expectations are all that changes in the reports of the scenarios. -/
theorem forall₂_reports_expecting
    (h : List.Forall₂ (fun m m' => ∃ e, m' = m.expecting e) mentions others) :
    List.Forall₂ (fun r r' => ∃ e, r' = r.expecting e) ((talliesFor mentions).map Tally.report)
      ((talliesFor others).map Tally.report) := by
  have hfirst : List.Forall₂ (fun s s' : Scenario => ∃ e, s' = { s with expectation := e })
      (firstMentions mentions) (firstMentions others) := by
    refine forall₂_firstMentions (fun s s' hs => ?_) (h.imp fun m m' hm => ?_)
    · obtain ⟨e, rfl⟩ := hs
      rfl
    · obtain ⟨e, rfl⟩ := hm
      exact ⟨e, rfl⟩
  simp only [talliesFor, List.map_map, List.forall₂_map_left_iff, List.forall₂_map_right_iff]
  refine hfirst.imp fun s s' hs => ?_
  obtain ⟨e, rfl⟩ := hs
  refine ⟨e, ?_⟩
  simp only [Function.comp_apply, verdictsFor_expecting h]
  rfl

/-- Scenarios that are marked as advisory do not make a suite fail. -/
theorem FailsStrictly.of_marked
    (h : List.Forall₂ (fun m m' => m' = m ∨ m' = m.expecting .advisory) mentions others)
    (hfails : FailsStrictly others) : FailsStrictly mentions := by
  have hexpecting : List.Forall₂ (fun m m' => ∃ e, m' = m.expecting e) mentions others := by
    refine h.imp fun m m' hm => ?_
    rcases hm with rfl | rfl
    · exact ⟨m'.scenario.expectation, rfl⟩
    · exact ⟨.advisory, rfl⟩
  have hfirst : List.Forall₂
      (fun s s' : Scenario => s'.id = s.id ∧ (s'.expectation = .strict → s' = s))
      (firstMentions mentions) (firstMentions others) := by
    refine forall₂_firstMentions (fun s s' hs => hs.1) (h.imp fun m m' hm => ?_)
    rcases hm with rfl | rfl
    · exact ⟨rfl, fun _ => rfl⟩
    · exact ⟨rfl, fun hstrict => nomatch hstrict⟩
  obtain ⟨s', hs', hstrict, hverdicts⟩ := hfails
  obtain ⟨s, hs, -, hsame⟩ := exists_of_mem_forall₂ hfirst hs'
  obtain rfl := hsame hstrict
  rw [verdictsFor_expecting hexpecting] at hverdicts
  exact ⟨s', hs, hstrict, hverdicts⟩

end

/-- The numbers that do not ask for expectations are the same. -/
theorem SuiteReport.ofScenarios_expecting (suite : String) {scenarios others : List ScenarioReport}
    (h : List.Forall₂ (fun r r' => ∃ e, r' = r.expecting e) scenarios others) :
    ofScenarios suite others =
      { ofScenarios suite scenarios with
        failed := (ofScenarios suite others).failed
        advisoryFailures := (ofScenarios suite others).advisoryFailures
        scenarios := others } := by
  have hoverall : others.map (·.overall) = scenarios.map (·.overall) :=
    map_eq_of_forall₂ (h.imp fun _ _ ⟨_, hr⟩ => by rw [hr]; rfl)
  have hverdicts : others.map (·.verdicts.map (·.kind)) = scenarios.map (·.verdicts.map (·.kind)) :=
    map_eq_of_forall₂ (h.imp fun _ _ ⟨_, hr⟩ => by rw [hr]; rfl)
  have hpassed : ∀ l : List ScenarioReport,
      (l.countP fun r => r.overall.isPass) = (l.map (·.overall)).countP VerdictKind.isPass := by
    intro l
    rw [List.countP_map]
    rfl
  simp only [ofScenarios, h.length_eq, hpassed, hoverall, List.flatMap_def, hverdicts]

/-- Other expectations move failures from one side to the other and change nothing else. -/
theorem Collection.report_expecting (suite : String) {mentions others : List Mention}
    (h : List.Forall₂ (fun m m' => ∃ e, m' = m.expecting e) mentions others) :
    let r := (ofMentions suite mentions).report
    let r' := (ofMentions suite others).report
    List.Forall₂ (fun s s' => ∃ e, s' = s.expecting e) r.scenarios r'.scenarios ∧
      r' = { r with
        failed := r'.failed
        advisoryFailures := r'.advisoryFailures
        scenarios := r'.scenarios } ∧
      r'.failed + r'.advisoryFailures = r.failed + r.advisoryFailures := by
  intro r r'
  have hreports := forall₂_reports_expecting h
  have hsame := SuiteReport.ofScenarios_expecting suite hreports
  have hbalance := SuiteReport.passed_add_failures suite ((talliesFor mentions).map Tally.report)
  have hbalance' := SuiteReport.passed_add_failures suite ((talliesFor others).map Tally.report)
  simp only [r, r', report_ofMentions_eq]
  refine ⟨hreports, hsame, ?_⟩
  have hpassed := congrArg SuiteReport.passed hsame
  have hlength := hreports.length_eq
  dsimp only at hpassed
  omega

namespace CombinedReport

/-- To mark scenarios as advisory never raises the exit code. -/
theorem exitCode_le_of_marked {suites others : List (String × List Mention)}
    (h : List.Forall₂
      (fun a b => List.Forall₂ (fun m m' => m' = m ∨ m' = m.expecting .advisory) a.2 b.2)
      suites others) :
    (ofMentions others).exitCode ≤ (ofMentions suites).exitCode := by
  by_cases hfails : ∃ suite ∈ others, FailsStrictly suite.2
  · obtain ⟨suite', hmem', hfails'⟩ := hfails
    obtain ⟨suite, hmem, hmarked⟩ := exists_of_mem_forall₂ h hmem'
    have hone := (exitCode_ofMentions_eq_one_iff suites).2
      ⟨suite, hmem, hfails'.of_marked hmarked⟩
    have hone' := (exitCode_ofMentions_eq_one_iff others).2 ⟨suite', hmem', hfails'⟩
    exact Nat.le_of_eq (hone'.trans hone.symm)
  · rw [(exitCode_ofMentions_eq_zero_iff others).2 hfails]
    exact Nat.zero_le _

/-- The numbers of every report add up, and the exit code tells of the strict scenarios that fail.
Other expectations only move failures from one side to the other, so to mark scenarios as advisory
never raises the exit code. -/
theorem ofMentions_balances :
    (∀ suite mentions,
      let r := (Collection.ofMentions suite mentions).report
      r.passed + r.failed + r.advisoryFailures = r.totalScenarios ∧
      r.scenarios.length = r.totalScenarios ∧
      r.verdictCounts.total = r.totalScenarios ∧
      r.checkpointCounts.total = (r.scenarios.flatMap (·.verdicts)).length) ∧
    (∀ suites,
      ((ofMentions suites).exitCode = 1 ↔ ∃ suite ∈ suites, FailsStrictly suite.2) ∧
      ((ofMentions suites).exitCode = 0 ↔ ¬∃ suite ∈ suites, FailsStrictly suite.2) ∧
      ((ofMentions suites).isSuccess = true ↔ (ofMentions suites).exitCode = 0)) ∧
    (∀ suite mentions others,
      List.Forall₂ (fun m m' => ∃ e, m' = m.expecting e) mentions others →
      let r := (Collection.ofMentions suite mentions).report
      let r' := (Collection.ofMentions suite others).report
      List.Forall₂ (fun s s' => ∃ e, s' = s.expecting e) r.scenarios r'.scenarios ∧
      r' = { r with
        failed := r'.failed
        advisoryFailures := r'.advisoryFailures
        scenarios := r'.scenarios } ∧
      r'.failed + r'.advisoryFailures = r.failed + r.advisoryFailures) ∧
    ∀ suites others : List (String × List Mention),
      List.Forall₂
        (fun a b => List.Forall₂ (fun m m' => m' = m ∨ m' = m.expecting .advisory) a.2 b.2)
        suites others →
      (ofMentions others).exitCode ≤ (ofMentions suites).exitCode := by
  refine ⟨?_, ?_, ?_, ?_⟩
  · intro suite mentions r
    simp only [r, Collection.report_ofMentions_eq]
    refine ⟨SuiteReport.passed_add_failures suite _, rfl, ?_, ?_⟩
    · exact (Counts.total_ofKinds _).trans (List.length_map _)
    · refine (Counts.total_ofKinds _).trans ?_
      rw [← List.map_flatMap, List.length_map]
      rfl
  · intro suites
    refine ⟨exitCode_ofMentions_eq_one_iff suites, exitCode_ofMentions_eq_zero_iff suites, ?_⟩
    rw [isSuccess_ofMentions_iff, exitCode_ofMentions_eq_zero_iff]
  · intro suite mentions others h
    exact Collection.report_expecting suite h
  · intro suites others h
    exact exitCode_le_of_marked h

/-- Of two scenarios one has a wrong value and one has no verdict. When the second one is marked as
advisory, its failure is counted on the other side; when both are, the suite succeeds. -/
theorem ofMentions_balances_marked :
    let other := { sumScenario with id := "arity/other" }
    let pass : Mention := ⟨sumScenario, some { kind := .pass, checkpoint := "warm" }⟩
    let wrong : Mention := ⟨sumScenario, some { kind := .wrongValue, checkpoint := "retype:hot" }⟩
    let strict : List Mention := [pass, ⟨other, none⟩, wrong]
    let mixed : List Mention := [pass, Mention.expecting ⟨other, none⟩ .advisory, wrong]
    let marked := strict.map (·.expecting .advisory)
    let report := fun mentions => (Collection.ofMentions "jit" mentions).report
    List.Forall₂ (fun m m' => m' = m ∨ m' = m.expecting .advisory) strict mixed ∧
      ((report strict).failed, (report strict).advisoryFailures) = (2, 0) ∧
      ((report mixed).failed, (report mixed).advisoryFailures) = (1, 1) ∧
      (report mixed).verdictCounts = (report strict).verdictCounts ∧
      (report strict).checkpointCounts.total = 3 ∧
      (ofMentions [("jit", strict)]).exitCode = 1 ∧
      (ofMentions [("jit", mixed)]).exitCode ≤ 1 ∧
      (ofMentions [("jit", marked)]).exitCode = 0 := by
  intro other pass wrong strict mixed marked report
  have hmixed : List.Forall₂ (fun m m' => m' = m ∨ m' = m.expecting .advisory) strict mixed :=
    .cons (.inl rfl) (.cons (.inr rfl) (.cons (.inl rfl) .nil))
  have hexpecting : List.Forall₂ (fun m m' => ∃ e, m' = m.expecting e) strict mixed :=
    .cons ⟨.strict, rfl⟩ (.cons ⟨.advisory, rfl⟩ (.cons ⟨.strict, rfl⟩ .nil))
  obtain ⟨hnumbers, hexit, hchange, hmarked⟩ := ofMentions_balances
  obtain ⟨-, hsame, -⟩ := hchange "jit" strict mixed hexpecting
  have hcode : (ofMentions [("jit", strict)]).exitCode = 1 := by decide +kernel
  have hle := hmarked [("jit", strict)] [("jit", mixed)] (.cons hmixed .nil)
  have hcounts := congrArg SuiteReport.verdictCounts hsame
  refine ⟨hmixed, by decide +kernel, by decide +kernel, hcounts,
    (hnumbers "jit" strict).2.2.2.trans (by decide +kernel), hcode, hcode ▸ hle, ?_⟩
  refine (hexit [("jit", marked)]).2.1.2 ?_
  rintro ⟨suite, hsuite, s, hs, hstrict, -⟩
  obtain rfl := List.mem_singleton.1 hsuite
  revert hstrict
  revert s
  decide +kernel

end CombinedReport
end TierCheck
