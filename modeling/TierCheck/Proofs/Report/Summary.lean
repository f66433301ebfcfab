import TierCheck.Proofs.Report.Balance
import TierCheck.Proofs.Text.Cutting
import TierCheck.Report.Render

/-!
# The summary line by line

The summary of a suite is read by its lines. A text that the subject reported may hold line ends,
but it is shown with escapes for them, so it neither adds a line nor takes one away. The ids and the
names of checkpoints stand in a line as they are, and as they hold no blanks they are found in it
again.

* `HasLines`: a text of lines that are all ended. `HasLines.unique`: there is one way to read it.
* `IsShown`: a text as it is shown on a line.
* `readFailure?`: the id and the checkpoint in the line of a failure.
* `SuiteReport.hasLines_render`: the lines of a summary.
-/
namespace TierCheck

/-! ## Lines -/

/-- The text is these lines, each of them ended by a line feed. -/
structure HasLines (text : String) (lines : List String) : Prop where
  joined : text = String.join (lines.map (· ++ "\n"))
  plain : ∀ line ∈ lines, '\n' ∉ line.toList

theorem HasLines.pieces_eq {text : String} {lines : List String} (h : HasLines text lines) :
    pieces (· = '\n') text.toList = lines.map String.toList ++ [[]] := by
  obtain ⟨rfl, hplain⟩ := h
  induction lines with
  | nil => rfl
  | cons line lines ih =>
    rw [List.forall_mem_cons] at hplain
    have hline : ∀ c ∈ line.toList, decide (c = '\n') = false := by
      intro c hc
      rw [decide_eq_false_iff_not]
      rintro rfl
      exact hplain.1 hc
    have hnext : (line ++ "\n" ++ String.join (lines.map (· ++ "\n"))).toList =
        line.toList ++ '\n' :: (String.join (lines.map (· ++ "\n"))).toList := by
      simp [String.toList_append]
    rw [List.map_cons, String.join_cons, hnext, pieces_append hline rfl, ih hplain.2]
    rfl

/-- There is one way to read a text as lines. -/
theorem HasLines.unique {text : String} {a b : List String} (ha : HasLines text a)
    (hb : HasLines text b) : a = b := by
  have hpieces := ha.pieces_eq.symm.trans hb.pieces_eq
  exact List.map_injective_iff.2 (fun _ _ => String.toList_inj.1) (List.append_cancel_right hpieces)

/-! ## Texts on a line -/

/-- The text as it is shown on a line: with escapes for line ends, and cut after 120 characters. -/
structure IsShown (text shown : String) : Prop where
  oneLine : IsOneLine shown
  cut : ((text.toList.flatMap escapeLineEnd).length ≤ 120 ∧
      shown.toList = text.toList.flatMap escapeLineEnd) ∨
    (120 < (text.toList.flatMap escapeLineEnd).length ∧
      shown.toList = (text.toList.flatMap escapeLineEnd).take 120 ++ ['.', '.', '.'])

theorem ne_lineEnd_of_mem_escaped {s : List Char} {c : Char} (h : c ∈ s.flatMap escapeLineEnd) :
    c ≠ '\n' ∧ c ≠ '\r' := by
  obtain ⟨d, -, hc⟩ := List.mem_flatMap.1 h
  unfold escapeLineEnd at hc
  split at hc
  · simp only [List.mem_cons, List.not_mem_nil, or_false] at hc
    rcases hc with rfl | rfl <;> decide
  · split at hc
    · simp only [List.mem_cons, List.not_mem_nil, or_false] at hc
      rcases hc with rfl | rfl <;> decide
    · next hreturn hfeed =>
      rw [List.mem_singleton.1 hc]
      exact ⟨hfeed, hreturn⟩

theorem isShown_singleLine (text : String) : IsShown text (singleLine text) := by
  have hplain {s : List Char} (h : s ⊆ text.toList.flatMap escapeLineEnd) :
      IsOneLine (String.ofList s) := by
    rw [IsOneLine, String.toList_ofList]
    exact ⟨fun hmem => (ne_lineEnd_of_mem_escaped (h hmem)).1 rfl,
      fun hmem => (ne_lineEnd_of_mem_escaped (h hmem)).2 rfl⟩
  unfold singleLine
  by_cases hlength : (text.toList.flatMap escapeLineEnd).length ≤ quotedLength
  · simp only [if_pos hlength]
    exact ⟨hplain (List.Subset.refl _), .inl ⟨hlength, String.toList_ofList⟩⟩
  · simp only [if_neg hlength]
    refine ⟨isOneLine_append (hplain (List.take_subset _ _))
      (isOneLine_of_eq_ofList rfl (by decide)), .inr ⟨Nat.lt_of_not_le hlength, ?_⟩⟩
    rw [String.toList_append, String.toList_ofList]
    rfl

/-! ## The line of a failure -/

/-- The id and the checkpoint in the line of a scenario that failed: the words on both sides of the
at sign, the second one without its colon. -/
def readFailure? (line : String) : Option (String × String) := do
  let (id, rest) ← splitOnce? ' ' line.toList
  let (checkpoint, _) ← splitOnce? ' ' (← after? "@ " rest)
  return (String.ofList id, String.ofList checkpoint.dropLast)

/-- The line shows the first of the worst verdicts of the scenario. -/
def ScenarioReport.IsShownBy (r : ScenarioReport) (line : String) : Prop :=
  ∃ verdict expected actual,
    IsFirst (fun v => v.kind = r.overall) r.verdicts (some verdict) ∧
    (∀ other ∈ r.verdicts, other.kind ≤ verdict.kind) ∧
    IsShown (verdict.expected.getD "-") expected ∧
    IsShown ((verdict.actual.or verdict.detail).getD "-") actual ∧
    line = r.id ++ " @ " ++ verdict.checkpoint ++ ": " ++ verdict.kind.name ++
      " expected=" ++ expected ++ " actual=" ++ actual ++
      (if r.expectation = .advisory then " (advisory)" else "") ∧
    readFailure? line = some (r.id, verdict.checkpoint)

theorem space_not_mem {s : String} (h : hasBlank s = false) : ' ' ∉ s.toList := by
  unfold hasBlank at h
  rw [List.any_eq_false] at h
  exact fun hmem => h ' ' hmem (by decide)

/-- The two words are found whatever follows them. -/
theorem readFailure?_append {id checkpoint : String} (hid : hasBlank id = false)
    (hcheckpoint : hasBlank checkpoint = false) (rest : String) :
    readFailure? (id ++ " @ " ++ checkpoint ++ ": " ++ rest) = some (id, checkpoint) := by
  have hline : (id ++ " @ " ++ checkpoint ++ ": " ++ rest).toList = id.toList ++
      ' ' :: ("@ ".toList ++ ((checkpoint.toList ++ [':']) ++ ' ' :: rest.toList)) := by
    simp [String.toList_append]
  have hword : ' ' ∉ checkpoint.toList ++ [':'] := by
    simpa using space_not_mem hcheckpoint
  unfold readFailure?
  rw [hline, splitOnce?_append (space_not_mem hid)]
  simp only [Option.bind_eq_bind, Option.bind_some, after?_append, splitOnce?_append hword]
  simp

theorem VerdictKind.isOneLine_name (kind : VerdictKind) : IsOneLine kind.name := by
  cases kind <;> exact isOneLine_of_eq_ofList rfl (by decide)

theorem isOneLine_countLine {name : String} (h : IsOneLine name) (count : Nat) :
    IsOneLine (countLine name count) :=
  isOneLine_append (isOneLine_append h (isOneLine_of_eq_ofList rfl (by decide)))
    (isOneLine_naturalText count)

namespace ScenarioReport

/-- The names that stand in the line of a scenario as they are hold no blanks, and one of the
verdicts decides. -/
structure IsPresentable (r : ScenarioReport) : Prop where
  id : hasBlank r.id = false
  checkpoints : ∀ verdict ∈ r.verdicts, hasBlank verdict.checkpoint = false
  overall_mem : ∃ verdict ∈ r.verdicts, verdict.kind = r.overall
  le_overall : ∀ verdict ∈ r.verdicts, verdict.kind ≤ r.overall

variable {r : ScenarioReport} {verdict : Verdict}

theorem readFailure?_failureLine (hid : hasBlank r.id = false)
    (hcheckpoint : hasBlank verdict.checkpoint = false) :
    readFailure? (r.failureLine verdict) = some (r.id, verdict.checkpoint) := by
  have hread := readFailure?_append hid hcheckpoint (verdict.kind.name ++
    (" expected=" ++ (singleLine (verdict.expected.getD "-") ++
      (" actual=" ++ (singleLine ((verdict.actual.or verdict.detail).getD "-") ++
        if r.expectation = .advisory then " (advisory)" else "")))))
  simpa only [failureLine, String.append_assoc] using hread

theorem isOneLine_failureLine (hid : hasBlank r.id = false)
    (hcheckpoint : hasBlank verdict.checkpoint = false) : IsOneLine (r.failureLine verdict) := by
  have hat : IsOneLine " @ " := isOneLine_of_eq_ofList rfl (by decide)
  have hcolon : IsOneLine ": " := isOneLine_of_eq_ofList rfl (by decide)
  have hexpected : IsOneLine " expected=" := isOneLine_of_eq_ofList rfl (by decide)
  have hactual : IsOneLine " actual=" := isOneLine_of_eq_ofList rfl (by decide)
  have hmark : IsOneLine (if r.expectation = .advisory then " (advisory)" else "") := by
    split <;> exact isOneLine_of_eq_ofList rfl (by decide)
  have hnames : IsOneLine (r.id ++ " @ " ++ verdict.checkpoint ++ ": " ++ verdict.kind.name) :=
    isOneLine_append (isOneLine_append (isOneLine_append (isOneLine_append
      (isOneLine_of_hasBlank hid) hat) (isOneLine_of_hasBlank hcheckpoint)) hcolon)
        verdict.kind.isOneLine_name
  have htexts := isOneLine_append (isOneLine_append (isOneLine_append (isOneLine_append
    hnames hexpected) (isShown_singleLine (verdict.expected.getD "-")).oneLine) hactual)
      (isShown_singleLine ((verdict.actual.or verdict.detail).getD "-")).oneLine
  exact isOneLine_append htexts hmark

/-- One of the verdicts decides, and its line shows the scenario. -/
theorem IsPresentable.exists_failureLine (h : r.IsPresentable) :
    ∃ line, r.decisive?.map r.failureLine = some line ∧ r.IsShownBy line ∧ IsOneLine line := by
  have hsome : r.decisive?.isSome := by
    unfold decisive?
    rw [List.find?_isSome]
    simpa using h.overall_mem
  obtain ⟨verdict, hverdict⟩ := Option.isSome_iff_exists.1 hsome
  have hfirst : IsFirst (fun v => v.kind = r.overall) r.verdicts (some verdict) :=
    hverdict ▸ isFirst_find? (by simp) r.verdicts
  have hkind : verdict.kind = r.overall := by simpa using List.find?_some hverdict
  have hcheckpoint := h.checkpoints verdict (List.mem_of_find?_eq_some hverdict)
  refine ⟨r.failureLine verdict, by rw [hverdict]; rfl, ?_, isOneLine_failureLine h.id hcheckpoint⟩
  exact ⟨verdict, _, _, hfirst, fun other hother => hkind ▸ h.le_overall other hother,
    isShown_singleLine _, isShown_singleLine _, rfl, readFailure?_failureLine h.id hcheckpoint⟩

end ScenarioReport

/-! ## The lines of a summary -/

theorem Counts.get_ofKinds (kinds : List VerdictKind) (kind : VerdictKind) :
    (ofKinds kinds).get kind.name = kinds.count kind := by
  cases kind <;> rfl

namespace SuiteReport

theorem forall₂_failureLines {r : SuiteReport} (h : ∀ s ∈ r.scenarios, s.IsPresentable) :
    List.Forall₂ (fun s line => s.IsShownBy line ∧ IsOneLine line)
      (r.scenarios.filter ScenarioReport.isFailure) r.failureLines := by
  unfold failureLines
  refine forall₂_filterMap fun s hs => ?_
  exact (h s (List.mem_of_mem_filter hs)).exists_failureLine

/-- The summary has no other lines than those it is made of, whatever the subject reported. -/
theorem hasLines_render {r : SuiteReport} (hsuite : '\n' ∉ r.suite.toList)
    (h : ∀ s ∈ r.scenarios, s.IsPresentable) : HasLines r.render r.summaryLines where
  joined := rfl
  plain := by
    have hcount {label : String} (hlabel : IsOneLine label) (count : Nat) :
        '\n' ∉ (countLine label count).toList := (isOneLine_countLine hlabel count).1
    intro line hline
    simp only [summaryLines, List.mem_append, List.mem_cons, List.not_mem_nil, or_false] at hline
    rcases hline with (((rfl | rfl | rfl | rfl) | hline) | hline) | hline
    · rw [String.toList_append, List.mem_append]
      exact fun hmem => hmem.elim (by decide) hsuite
    · exact hcount (isOneLine_of_eq_ofList rfl (by decide)) _
    · exact hcount (isOneLine_of_eq_ofList rfl (by decide)) _
    · exact hcount (isOneLine_of_eq_ofList rfl (by decide)) _
    · split at hline
      · cases hline
      · rw [List.mem_singleton.1 hline]
        exact hcount (isOneLine_of_eq_ofList rfl (by decide)) _
    · obtain ⟨kind, -, rfl⟩ := List.mem_map.1 hline
      exact hcount kind.isOneLine_name _
    · obtain ⟨s, -, -, hplain⟩ := exists_of_mem_forall₂ (forall₂_failureLines h) hline
      exact hplain.1

/-- Every failure is counted under one expectation. -/
theorem length_filter_isFailure (suite : String) (scenarios : List ScenarioReport) :
    (scenarios.filter ScenarioReport.isFailure).length =
      (ofScenarios suite scenarios).failed + (ofScenarios suite scenarios).advisoryFailures := by
  have hsplit := List.length_eq_countP_add_countP (fun s => s.overall.isPass) (l := scenarios)
  have hcounted := passed_add_failures suite scenarios
  have hpassed : (ofScenarios suite scenarios).passed =
      scenarios.countP fun s => s.overall.isPass := rfl
  have hfailures : (scenarios.filter ScenarioReport.isFailure).length =
      scenarios.countP fun s => decide ¬s.overall.isPass = true := by
    rw [← List.countP_eq_length_filter]
    exact List.countP_congr fun s _ => by simp [ScenarioReport.isFailure]
  omega

/-- The scenarios are counted by their worst verdicts. -/
theorem get_verdictCounts (suite : String) (scenarios : List ScenarioReport) (kind : VerdictKind) :
    (ofScenarios suite scenarios).verdictCounts.get kind.name =
      scenarios.countP fun s => s.overall = kind := by
  have hcounts : (ofScenarios suite scenarios).verdictCounts =
      Counts.ofKinds (scenarios.map (·.overall)) := rfl
  rw [hcounts, Counts.get_ofKinds, List.count_eq_countP, List.countP_map]
  rfl

end SuiteReport

end TierCheck
