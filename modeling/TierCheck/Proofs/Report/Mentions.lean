import Mathlib.Data.List.Forall2
import TierCheck.Proofs.Report.Collecting
import TierCheck.Proofs.Scenario.Validity

/-!
# What a report tells of what was mentioned

A collection comes from mentions of scenarios, each with a verdict or without one, in any order and
with any ids. The report depends on no more than two things: the scenarios at the first mentions of
their ids, in order, and the verdicts that were given with each id.

* `AreFirstMentions`: each mentioned id once, by the scenario of its first mention.
* `Collection.tallies_foldl_mention`: the tallies after any number of mentions.
* `ScenarioReport.Tells`: what the report of a scenario says of the verdicts it got.
* `Collection.report_ofMentions`: the result, with what it means for mentions in another order.
-/
namespace TierCheck

/-- A scenario that is mentioned, with a verdict or without one. -/
structure Mention where
  scenario : Scenario
  verdict? : Option Verdict := none

/-! ## First mentions -/

/-- The scenarios at the first mentions of their ids, in order. -/
def firstMentions : List Mention → List Scenario
  | [] => []
  | m :: rest => m.scenario :: (firstMentions rest).filter fun s => s.id ≠ m.scenario.id

/-- The verdicts that were given with an id, in order. -/
def verdictsFor (id : String) (mentions : List Mention) : List Verdict :=
  mentions.filterMap fun m => if m.scenario.id = id then m.verdict? else none

/-- The scenarios are those at the first mentions of ids: no id twice, every mentioned id, in the
order of the mentions, and none with an earlier mention of its id. -/
structure AreFirstMentions (mentions : List Mention) (scenarios : List Scenario) : Prop where
  nodup : (scenarios.map (·.id)).Nodup
  complete : ∀ m ∈ mentions, ∃ s ∈ scenarios, s.id = m.scenario.id
  ordered : scenarios.Sublist (mentions.map (·.scenario))
  first : ∀ s ∈ scenarios, ∃ before m after, mentions = before ++ m :: after ∧ m.scenario = s ∧
    ∀ e ∈ before, e.scenario.id ≠ s.id

theorem areFirstMentions (mentions : List Mention) :
    AreFirstMentions mentions (firstMentions mentions) := by
  induction mentions with
  | nil => exact ⟨List.nodup_nil, by simp, .slnil, by simp [firstMentions]⟩
  | cons m rest ih =>
    have hother : ∀ {s}, s ∈ (firstMentions rest).filter (fun s => s.id ≠ m.scenario.id) →
        s ∈ firstMentions rest ∧ s.id ≠ m.scenario.id := by simp
    constructor
    · rw [firstMentions, List.map_cons, List.nodup_cons]
      constructor
      · intro hmem
        obtain ⟨s, hs, hid⟩ := List.mem_map.1 hmem
        exact (hother hs).2 hid
      · exact ih.nodup.sublist (List.filter_sublist.map _)
    · intro e he
      by_cases hid : e.scenario.id = m.scenario.id
      · exact ⟨m.scenario, List.mem_cons_self, hid.symm⟩
      · have hrest : e ∈ rest := (List.mem_cons.1 he).resolve_left fun heq => hid (by rw [heq])
        obtain ⟨s, hs, hsid⟩ := ih.complete e hrest
        refine ⟨s, List.mem_cons_of_mem _ (List.mem_filter.2 ⟨hs, ?_⟩), hsid⟩
        simpa [hsid] using hid
    · exact (List.filter_sublist.trans ih.ordered).cons_cons _
    · intro s hs
      rcases List.mem_cons.1 hs with rfl | hs
      · exact ⟨[], m, rest, rfl, rfl, by simp⟩
      · obtain ⟨hmem, hne⟩ := hother hs
        obtain ⟨before, e, after, rfl, hscenario, hbefore⟩ := ih.first s hmem
        refine ⟨m :: before, e, after, rfl, hscenario, ?_⟩
        intro e' he'
        rcases List.mem_cons.1 he' with rfl | he'
        · exact hne.symm
        · exact hbefore e' he'

/-- One more mention is a first one if its id is new. -/
theorem firstMentions_concat (mentions : List Mention) (m : Mention) :
    firstMentions (mentions ++ [m]) = firstMentions mentions ++
      if ∃ e ∈ mentions, e.scenario.id = m.scenario.id then [] else [m.scenario] := by
  induction mentions with
  | nil => simp [firstMentions]
  | cons e rest ih =>
    rw [List.cons_append, firstMentions, firstMentions, ih, List.filter_append, List.cons_append]
    by_cases hid : e.scenario.id = m.scenario.id
    · have hmentioned : ∃ e' ∈ e :: rest, e'.scenario.id = m.scenario.id :=
        ⟨e, List.mem_cons_self, hid⟩
      rw [if_pos hmentioned]
      split <;> simp [hid]
    · by_cases hrest : ∃ e ∈ rest, e.scenario.id = m.scenario.id
      · simp [hid, hrest]
      · simp [hid, hrest, Ne.symm hid]

theorem verdictsFor_concat (id : String) (mentions : List Mention) (m : Mention) :
    verdictsFor id (mentions ++ [m]) =
      verdictsFor id mentions ++ if m.scenario.id = id then m.verdict?.toList else [] := by
  rw [verdictsFor, List.filterMap_append, ← verdictsFor]
  by_cases hid : m.scenario.id = id
  · cases hverdict : m.verdict? <;> simp [hid, hverdict]
  · simp [hid]

theorem verdictsFor_eq_nil {id : String} {mentions : List Mention}
    (h : ∀ m ∈ mentions, m.scenario.id ≠ id) : verdictsFor id mentions = [] := by
  rw [verdictsFor, List.filterMap_eq_nil_iff]
  intro m hm
  rw [if_neg (h m hm)]

/-! ## The tallies of mentions -/

/-- One tally for each first mention, with the verdicts that were given with its id. -/
def talliesFor (mentions : List Mention) : List Tally :=
  (firstMentions mentions).map fun s => Tally.ofVerdicts s (verdictsFor s.id mentions)

theorem exists_mem_talliesFor_iff {mentions : List Mention} {id : String} :
    (∃ tally ∈ talliesFor mentions, tally.id = id) ↔
      ∃ m ∈ mentions, m.scenario.id = id := by
  have hfirst := areFirstMentions mentions
  constructor
  · rintro ⟨tally, htally, rfl⟩
    obtain ⟨s, hs, rfl⟩ := List.mem_map.1 htally
    obtain ⟨m, hm, rfl⟩ := List.mem_map.1 (hfirst.ordered.subset hs)
    exact ⟨m, hm, rfl⟩
  · rintro ⟨m, hm, rfl⟩
    obtain ⟨s, hs, hid⟩ := hfirst.complete m hm
    exact ⟨_, List.mem_map_of_mem hs, hid⟩

namespace Collection

def mention (c : Collection) (m : Mention) : Collection :=
  match m.verdict? with
  | none => c.register m.scenario
  | some verdict => c.record m.scenario verdict

/-- The collection of a suite after mentions. -/
def ofMentions (suite : String) (mentions : List Mention) : Collection :=
  mentions.foldl mention (start suite)

theorem suite_mention (c : Collection) (m : Mention) : (c.mention m).suite = c.suite := by
  unfold mention
  split <;> simp

/-- A mention registers its scenario and adds its verdict, if there is one, to the scenario's
tally. -/
theorem tallies_mention (c : Collection) (m : Mention) :
    (c.mention m).tallies = (c.register m.scenario).tallies.map fun tally =>
      { tally with
        verdicts := tally.verdicts ++
          if m.scenario.id = tally.id then m.verdict?.toList else [] } := by
  unfold mention
  cases m.verdict? with
  | none => simp
  | some verdict =>
    rw [tallies_record]
    apply List.map_congr_left
    intro tally _
    by_cases hid : tally.id = m.scenario.id
    · simp [hid, Tally.add]
    · simp [hid, Ne.symm hid]

/-- Tallies that are those of the mentions so far are so after one more. -/
theorem tallies_mention_of {c : Collection} {seen : List Mention}
    (h : c.tallies = talliesFor seen) (m : Mention) :
    (c.mention m).tallies = talliesFor (seen ++ [m]) := by
  have hregister : (c.register m.scenario).tallies =
      (firstMentions (seen ++ [m])).map fun s => Tally.ofVerdicts s (verdictsFor s.id seen) := by
    rw [firstMentions_concat, List.map_append]
    by_cases hseen : ∃ e ∈ seen, e.scenario.id = m.scenario.id
    · rw [if_pos hseen, List.map_nil, List.append_nil]
      have hmentioned := exists_mem_talliesFor_iff.2 hseen
      rw [← h] at hmentioned
      rw [c.register_mentioned m.scenario hmentioned, h]
      rfl
    · rw [if_neg hseen, c.tallies_register_new m.scenario, h, List.map_singleton,
        verdictsFor_eq_nil]
      · rfl
      · intro e he hid
        exact hseen ⟨e, he, hid⟩
      · intro tally htally hid
        rw [h] at htally
        exact hseen (exists_mem_talliesFor_iff.1 ⟨tally, htally, hid⟩)
  rw [tallies_mention, hregister, talliesFor, List.map_map]
  apply List.map_congr_left
  intro s _
  rw [verdictsFor_concat]
  rfl

theorem tallies_foldl_mention {c : Collection} {seen : List Mention}
    (h : c.tallies = talliesFor seen) (mentions : List Mention) :
    (mentions.foldl mention c).tallies = talliesFor (seen ++ mentions) := by
  induction mentions generalizing c seen with
  | nil => rw [List.foldl_nil, List.append_nil, h]
  | cons m rest ih =>
    rw [List.foldl_cons, ih (tallies_mention_of h m), List.append_assoc]
    rfl

theorem suite_foldl_mention (c : Collection) (mentions : List Mention) :
    (mentions.foldl mention c).suite = c.suite := by
  induction mentions generalizing c with
  | nil => rfl
  | cons m rest ih => rw [List.foldl_cons, ih, suite_mention]

theorem report_ofMentions_eq (suite : String) (mentions : List Mention) :
    (ofMentions suite mentions).report =
      SuiteReport.ofScenarios suite ((talliesFor mentions).map Tally.report) := by
  have hstart : (start suite).tallies = talliesFor [] := rfl
  have htallies : (ofMentions suite mentions).tallies = talliesFor mentions :=
    tallies_foldl_mention hstart mentions
  rw [report, htallies]
  exact congrArg (SuiteReport.ofScenarios · _) (suite_foldl_mention (start suite) mentions)

end Collection

/-! ## The report of a scenario -/

/-- The option is the first verdict with the property, and none if no verdict has it. -/
inductive IsFirst (p : Verdict → Prop) (verdicts : List Verdict) : Option Verdict → Prop
  | none : (∀ verdict ∈ verdicts, ¬p verdict) → IsFirst p verdicts none
  | some (before : List Verdict) (verdict : Verdict) (after : List Verdict) :
    verdicts = before ++ verdict :: after → p verdict → (∀ earlier ∈ before, ¬p earlier) →
      IsFirst p verdicts (some verdict)

theorem isFirst_find? {p : Verdict → Prop} {q : Verdict → Bool}
    (hq : ∀ verdict, q verdict = true ↔ p verdict) (verdicts : List Verdict) :
    IsFirst p verdicts (verdicts.find? q) := by
  cases hfind : verdicts.find? q with
  | none =>
    apply IsFirst.none
    intro verdict hmem hp
    exact List.find?_eq_none.1 hfind verdict hmem ((hq verdict).2 hp)
  | some verdict =>
    obtain ⟨hp, before, after, hsplit, hbefore⟩ := List.find?_eq_some_iff_append.1 hfind
    refine .some before verdict after hsplit ((hq verdict).1 hp) ?_
    intro earlier hmem hearlier
    have hnot := hbefore earlier hmem
    rw [(hq earlier).2 hearlier] at hnot
    cases hnot

/-- What the report of a scenario says of the verdicts that were recorded for it. -/
structure ScenarioReport.Tells (r : ScenarioReport) (s : Scenario) (recorded : List Verdict) :
    Prop where
  id_eq : r.id = s.id
  family_eq : r.family = s.family
  description_eq : r.description = s.description
  expectation_eq : r.expectation = s.expectation
  checkpointsTotal_eq : r.checkpointsTotal = s.checkpoints.length
  /-- A scenario without verdicts has one that stands for them. -/
  verdicts_eq : r.verdicts =
    if recorded = [] then
      [{ kind := .crashed, checkpoint := "-", detail := some "no checkpoint was reported" }]
    else recorded
  overall_mem : ∃ verdict ∈ r.verdicts, verdict.kind = r.overall
  le_overall : ∀ verdict ∈ r.verdicts, verdict.kind ≤ r.overall
  firstFailure_first : IsFirst (fun verdict => verdict.kind ≠ .pass) r.verdicts r.firstFailure
  decisive_first : IsFirst (fun verdict => verdict.kind = r.overall) r.verdicts r.decisive?
  decisive_isSome : r.decisive?.isSome

theorem Tally.report_verdicts_ne_nil (t : Tally) : t.report.verdicts ≠ [] := by
  unfold report
  dsimp only
  split
  · exact List.cons_ne_nil _ _
  · next h => exact h

theorem Tally.tells_report (s : Scenario) (recorded : List Verdict) :
    (Tally.ofVerdicts s recorded).report.Tells s recorded := by
  have hne : ((Tally.ofVerdicts s recorded).report.verdicts.map (·.kind)) ≠ [] := by
    simpa using (Tally.ofVerdicts s recorded).report_verdicts_ne_nil
  have hmem : ∃ verdict ∈ (Tally.ofVerdicts s recorded).report.verdicts,
      verdict.kind = (Tally.ofVerdicts s recorded).report.overall :=
    List.mem_map.1 (VerdictKind.worst_mem hne)
  refine ⟨rfl, rfl, rfl, rfl, rfl, rfl, hmem, ?_, ?_, ?_, ?_⟩
  · intro verdict hverdict
    exact VerdictKind.le_worst (List.mem_map_of_mem hverdict)
  · exact isFirst_find? (by simp [VerdictKind.isPass]) _
  · exact isFirst_find? (by simp) _
  · unfold ScenarioReport.decisive?
    rw [List.find?_isSome]
    simpa using hmem

namespace Collection

/-- The report lists the scenarios at the first mentions of their ids, each with exactly the
verdicts that were given with its id. So mentions that agree in both, in whatever order they come,
have the same report. -/
theorem report_ofMentions (suite : String) (mentions : List Mention) :
    (ofMentions suite mentions).report.suite = suite ∧
    AreFirstMentions mentions (firstMentions mentions) ∧
    List.Forall₂ (fun s r => r.Tells s (verdictsFor s.id mentions)) (firstMentions mentions)
      (ofMentions suite mentions).report.scenarios ∧
    ∀ others, firstMentions others = firstMentions mentions →
      (∀ id, verdictsFor id others = verdictsFor id mentions) →
      (ofMentions suite others).report = (ofMentions suite mentions).report := by
  refine ⟨?_, areFirstMentions mentions, ?_, ?_⟩
  · rw [report_ofMentions_eq]
    rfl
  · rw [report_ofMentions_eq]
    show List.Forall₂ _ _ ((talliesFor mentions).map Tally.report)
    rw [talliesFor, List.map_map, List.forall₂_map_right_iff, List.forall₂_same]
    intro s _
    exact Tally.tells_report s (verdictsFor s.id mentions)
  · intro others hfirst hverdicts
    have htallies : talliesFor others = talliesFor mentions := by
      simp only [talliesFor, hfirst, hverdicts]
    rw [report_ofMentions_eq, report_ofMentions_eq, htallies]

/-- Mentions of two scenarios in turn, the last one under another description, are reported like
the same verdicts scenario by scenario. -/
theorem report_ofMentions_inTurn :
    let other := { sumScenario with id := "arity/other" }
    let pass : Verdict := { kind := .pass, checkpoint := "warm" }
    let wrong : Verdict := { kind := .wrongValue, checkpoint := "warm" }
    let crash : Verdict := { kind := .crashed, checkpoint := "retype:hot" }
    let inTurn : List Mention := [⟨other, none⟩, ⟨sumScenario, some wrong⟩, ⟨other, some pass⟩,
      ⟨{ sumScenario with description := "renamed" }, some crash⟩]
    let grouped : List Mention :=
      [⟨other, some pass⟩, ⟨sumScenario, some wrong⟩, ⟨sumScenario, some crash⟩]
    (firstMentions grouped = firstMentions inTurn ∧
      ∀ id, verdictsFor id grouped = verdictsFor id inTurn) ∧
    (ofMentions "jit" grouped).report = (ofMentions "jit" inTurn).report ∧
    (ofMentions "jit" inTurn).report.scenarios.map
        (fun r => (r.id, r.description, r.overall, r.verdicts)) =
      [("arity/other", "sum of two numbers", .pass, [pass]),
        ("arity/sum2", "sum of two numbers", .crashed, [wrong, crash])] := by
  intro other pass wrong crash inTurn grouped
  have hfirst : firstMentions grouped = firstMentions inTurn := rfl
  have hverdicts : ∀ id, verdictsFor id grouped = verdictsFor id inTurn := by
    intro id
    by_cases hother : other.id = id
    · subst hother
      rfl
    · by_cases hsum : sumScenario.id = id
      · subst hsum
        rfl
      · simp [verdictsFor, grouped, inTurn, hother, hsum]
  have hsame := (report_ofMentions "jit" inTurn).2.2.2 grouped hfirst hverdicts
  exact ⟨⟨hfirst, hverdicts⟩, hsame, by decide +kernel⟩

end Collection
end TierCheck
