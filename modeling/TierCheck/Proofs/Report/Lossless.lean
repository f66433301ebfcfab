import Mathlib.Data.List.Nodup
import TierCheck.Proofs.Json.Document
import TierCheck.Proofs.Lists
import TierCheck.Report.Document

/-!
# Reports read back

A report that is written as text and read again is the same one, whether or not its numbers fit its
verdicts. Only the range of the numbers matters: the reader takes natural numbers below `2 ^ 64`,
and a report holds no others.

* `Json.Holds`: what a document has to be for its text to be read as a given value. The lemmas
  about it follow the shapes that a report is put together from.
* `Counts.ofList_entries`: the order of the names is what makes counts survive.
* `readBack_reports`: single and combined reports.
-/
namespace TierCheck

namespace Json

variable {α : Type}

/-! ## Reading the places of a record -/

/-- The document has a text of its own and is read as `a`. -/
structure Holds (read : Json → Option α) (document : Json) (a : α) : Prop where
  plain : document.IsPlain
  reads : read document = some a

theorem holds_natural {n : Nat} (h : n < wordLimit 64) : Holds asNatural? (ofNatural n) n := by
  refine ⟨.natural n, ?_⟩
  have hplus : (naturalText n).toList.head? ≠ some '+' := by
    intro hhead
    rw [naturalText, String.toList_ofList] at hhead
    have hdigit := isDigit_of_mem_toDigits (List.mem_of_head? hhead)
    exact absurd hdigit (by decide)
  rw [ofNatural, asNatural?, if_neg hplus, readNatural?_naturalText h]

/-- A place that may be empty holds nothing as `null`. -/
theorem asOption?_null (read : Json → Option α) : asOption? read (some .null) = some none := rfl

theorem asOption?_some {read : Json → Option α} {document : Json} (h : document ≠ .null) :
    asOption? read (some document) = (read document).map some := by
  cases document <;> first | rfl | exact absurd rfl h

theorem isPlain_ofOption (s : Option String) : (ofOption s).IsPlain := by
  cases s with
  | none => exact .null
  | some s => exact .text s

theorem asOption?_ofOption (s : Option String) :
    asOption? asText? (some (ofOption s)) = some s := by
  cases s <;> rfl

theorem holds_list {read : Json → Option α} {write : α → Json} {l : List α}
    (h : ∀ a ∈ l, Holds read (write a) a) : Holds (asList? read) (.array (l.map write)) l := by
  refine ⟨.array fun item hitem => ?_, mapM_eq_some fun a ha => (h a ha).reads⟩
  obtain ⟨a, ha, rfl⟩ := List.mem_map.1 hitem
  exact (h a ha).plain

/-! ## Reading a record -/

theorem asMembers?_record (members : List (String × Json)) :
    asMembers? (record members) = some members := by
  have hread : ∀ member ∈ members,
      (fun (member : Option String × Json) => member.1.map fun name => (name, member.2))
        (some member.1, member.2) = some member := fun _ _ => rfl
  exact mapM_eq_some hread

/-- The member with a name, of members with different names. -/
theorem find?_member {members : List (String × Json)} (h : (members.map (·.1)).Nodup)
    {member : String × Json} (hmem : member ∈ members) :
    (members.find? fun other => member.1 == other.1) = some member := by
  induction members with
  | nil => cases hmem
  | cons first rest ih =>
    obtain ⟨hfirst, hrest⟩ := List.nodup_cons.1 h
    rcases List.mem_cons.1 hmem with rfl | hmem
    · simp
    · have hne : member.1 ≠ first.1 := by
        intro heq
        have hname := List.mem_map_of_mem (f := (·.1)) hmem
        rw [heq] at hname
        exact hfirst hname
      rw [List.find?_cons_of_neg (by simpa using hne)]
      exact ih hrest hmem

/-- A record is read field by field, if its fields have different names. -/
theorem asRecord?_record {names : List String} {members : List (String × Json)}
    (hnames : members.map (·.1) = names) (h : names.Nodup) :
    asRecord? names (record members) = some (members.map fun m => some m.2) := by
  subst hnames
  have honce : ∀ name, ¬1 < members.countP fun m => name == m.1 := by
    intro name
    have hcount := List.nodup_iff_count_le_one.1 h name
    rw [List.count, List.countP_map] at hcount
    have hswap : (members.countP fun m => name == m.1) =
        members.countP ((fun x => x == name) ∘ fun m => m.1) :=
      List.countP_congr fun m _ => by rw [Function.comp_apply, beq_iff_eq, beq_iff_eq, eq_comm]
    omega
  have hany : ((members.map (·.1)).any fun name =>
      decide (1 < members.countP fun m => name == m.1)) = false := by
    rw [List.any_eq_false]
    intro name _
    rw [decide_eq_true_eq]
    exact honce name
  have hfind : (members.map (·.1)).map (fun name =>
      (members.find? fun m => name == m.1).map (·.2)) = members.map fun m => some m.2 := by
    rw [List.map_map]
    refine List.map_congr_left fun member hmem => ?_
    rw [Function.comp_apply, find?_member h hmem, Option.map_some]
  have hmembers := asMembers?_record members
  rw [record] at hmembers ⊢
  simp only [asRecord?, hmembers, Option.bind_eq_bind, Option.bind_some, hany, hfind]
  rfl

/-- A record of plain documents holds what is made of its fields. -/
theorem holds_record {members : List (String × Json)} {read : Json → Option α} {a : α}
    (hplain : ∀ member ∈ members, member.2.IsPlain) (hread : read (record members) = some a) :
    Holds read (record members) a := ⟨.record hplain, hread⟩

/-- The text of a document that holds a value is read as the value. -/
theorem Holds.readBack {read : Json → Option α} {document : Json} {a : α}
    (h : Holds read document a) : (read? document.pretty).bind read = some a := by
  rw [read?_pretty h.plain, Option.bind_some, h.reads]

end Json

open Json

/-! ## Names of cases -/

theorem VerdictKind.ofName?_name (kind : VerdictKind) : ofName? kind.name = some kind := by
  cases kind <;> decide

theorem Family.ofName?_name (family : Family) : ofName? family.name = some family := by
  cases family <;> decide

theorem Expectation.ofName?_name (expectation : Expectation) :
    ofName? expectation.name = some expectation := by
  cases expectation <;> decide

/-! ## Counts -/

namespace Counts

/-- All counts are in the range of 64 bits. -/
def IsInRange (c : Counts) : Prop := ∀ entry ∈ c.entries, entry.2 < wordLimit 64

theorem insertCount_last {name : String} (count : Nat) {entries : List (String × Nat)}
    (h : ∀ entry ∈ entries, entry.1 < name) :
    insertCount name count entries = entries ++ [(name, count)] := by
  induction entries with
  | nil => rfl
  | cons first rest ih =>
    obtain ⟨other, n⟩ := first
    have hlt : other < name := h (other, n) List.mem_cons_self
    rw [insertCount, if_neg (String.not_lt.2 (Std.le_of_lt hlt)), if_neg (Std.ne_of_lt hlt).symm,
      ih fun entry hmem => h entry (List.mem_cons_of_mem _ hmem)]
    rfl

/-- Counts that come in the order of their names are put one behind the other. -/
theorem entries_foldl_insert {l : List (String × Nat)} (c : Counts)
    (h : IsOrdered (c.entries ++ l)) :
    (l.foldl (fun c (name, count) => c.insert name count) c).entries = c.entries ++ l := by
  induction l generalizing c with
  | nil => exact (List.append_nil _).symm
  | cons entry l ih =>
    obtain ⟨name, count⟩ := entry
    have hlast : ∀ other ∈ c.entries, other.1 < name := fun other hother =>
      (List.pairwise_append.1 h).2.2 other hother _ List.mem_cons_self
    have hinsert : (c.insert name count).entries = c.entries ++ [(name, count)] :=
      insertCount_last count hlast
    rw [List.foldl_cons, ih, hinsert, List.append_assoc]
    · rfl
    · rwa [hinsert, List.append_assoc]

theorem ofList_entries (c : Counts) : ofList c.entries = c := by
  have hentries : (ofList c.entries).entries = c.entries := entries_foldl_insert empty c.ordered
  generalize ofList c.entries = d at hentries
  cases c; cases d; cases hentries; rfl

theorem holds_toJson {c : Counts} (h : c.IsInRange) : Holds ofJson? c.toJson c := by
  refine holds_record (fun member hmem => ?_) ?_
  · obtain ⟨entry, -, rfl⟩ := List.mem_map.1 hmem
    exact .natural entry.2
  · have hread : (c.entries.map fun entry => (entry.1, ofNatural entry.2)).mapM (fun member =>
        member.2.asNatural?.bind fun n => pure (member.1, n)) = some c.entries :=
      mapM_eq_some fun entry hmem => by
        rw [(holds_natural (h entry hmem)).reads]
        rfl
    simp only [ofJson?, asMembers?_record, Option.bind_eq_bind, Option.bind_some, hread,
      ofList_entries]
    rfl

end Counts

/-! ## Verdicts and reports -/

theorem asCase?_ofText (s : String) : (ofText s).asCase? = some s := rfl

theorem asText?_ofText (s : String) : (ofText s).asText? = some s := rfl

theorem Verdict.holds_toJson (v : Verdict) : Holds ofJson? v.toJson v := by
  refine holds_record ?_ ?_
  · simp only [List.forall_mem_cons]
    exact ⟨.text _, .text _, isPlain_ofOption _, isPlain_ofOption _, isPlain_ofOption _,
      isPlain_ofOption _, by simp⟩
  · rw [ofJson?, asRecord?_record]
    · simp only [List.map_cons, List.map_nil, Option.bind_eq_bind, Option.bind_some, asCase?_ofText,
        asText?_ofText, VerdictKind.ofName?_name, asOption?_ofOption]
      rfl
    · rfl
    · decide

namespace ScenarioReport

structure IsInRange (r : ScenarioReport) : Prop where
  checkpointsRun : r.checkpointsRun < wordLimit 64
  checkpointsTotal : r.checkpointsTotal < wordLimit 64

/-- The first failure is an object or `null`, and an object is not taken for nothing. -/
theorem holds_firstFailure (v : Option Verdict) :
    ((v.map Verdict.toJson).getD .null).IsPlain ∧
      asOption? Verdict.ofJson? (some ((v.map Verdict.toJson).getD .null)) = some v := by
  cases v with
  | none => exact ⟨.null, asOption?_null _⟩
  | some v =>
    have hv := v.holds_toJson
    refine ⟨hv.plain, ?_⟩
    rw [Option.map_some, Option.getD_some, asOption?_some (by simp [Verdict.toJson, record]),
      hv.reads, Option.map_some]

theorem holds_toJson {r : ScenarioReport} (h : r.IsInRange) : Holds ofJson? r.toJson r := by
  obtain ⟨hfailure, hfailureRead⟩ := holds_firstFailure r.firstFailure
  have hverdicts := holds_list (l := r.verdicts) fun v _ => v.holds_toJson
  refine holds_record ?_ ?_
  · simp only [List.forall_mem_cons]
    exact ⟨.text _, .text _, .text _, .text _, .text _, .natural _, .natural _, hfailure,
      hverdicts.plain, by simp⟩
  · rw [ofJson?, asRecord?_record]
    · simp only [List.map_cons, List.map_nil, Option.bind_eq_bind, Option.bind_some, asCase?_ofText,
        asText?_ofText, Family.ofName?_name, Expectation.ofName?_name, VerdictKind.ofName?_name,
        (holds_natural h.checkpointsRun).reads, (holds_natural h.checkpointsTotal).reads,
        hfailureRead, hverdicts.reads]
      rfl
    · rfl
    · decide

end ScenarioReport

namespace SuiteReport

structure IsInRange (r : SuiteReport) : Prop where
  totalScenarios : r.totalScenarios < wordLimit 64
  passed : r.passed < wordLimit 64
  failed : r.failed < wordLimit 64
  advisoryFailures : r.advisoryFailures < wordLimit 64
  verdictCounts : r.verdictCounts.IsInRange
  checkpointCounts : r.checkpointCounts.IsInRange
  scenarios : ∀ scenario ∈ r.scenarios, scenario.IsInRange

theorem holds_toJson {r : SuiteReport} (h : r.IsInRange) : Holds ofJson? r.toJson r := by
  have hverdicts := Counts.holds_toJson h.verdictCounts
  have hcheckpoints := Counts.holds_toJson h.checkpointCounts
  have hscenarios := holds_list (l := r.scenarios) fun scenario hmem =>
    ScenarioReport.holds_toJson (h.scenarios scenario hmem)
  refine holds_record ?_ ?_
  · simp only [List.forall_mem_cons]
    exact ⟨.text _, .natural _, .natural _, .natural _, .natural _, hverdicts.plain,
      hcheckpoints.plain, hscenarios.plain, by simp⟩
  · rw [ofJson?, asRecord?_record]
    · simp only [List.map_cons, List.map_nil, Option.bind_eq_bind, Option.bind_some, asText?_ofText,
        (holds_natural h.totalScenarios).reads, (holds_natural h.passed).reads,
        (holds_natural h.failed).reads, (holds_natural h.advisoryFailures).reads,
        hverdicts.reads, hcheckpoints.reads, hscenarios.reads]
      rfl
    · rfl
    · decide

end SuiteReport

namespace CombinedReport

/-- All numbers are in the range of 64 bits. -/
def IsInRange (r : CombinedReport) : Prop := ∀ suite ∈ r.suites, suite.IsInRange

theorem holds_toJson {r : CombinedReport} (h : r.IsInRange) : Holds ofJson? r.toJson r := by
  have hsuites := holds_list (l := r.suites) fun suite hmem =>
    SuiteReport.holds_toJson (h suite hmem)
  refine holds_record ?_ ?_
  · simp only [List.forall_mem_cons]
    exact ⟨hsuites.plain, by simp⟩
  · rw [ofJson?, asRecord?_record]
    · simp only [List.map_cons, List.map_nil, Option.bind_eq_bind, Option.bind_some, hsuites.reads]
      rfl
    · rfl
    · decide

end CombinedReport

/-- **The written form of a report is lossless.** The text of any combined report is read as that
report, and so is the text of any report of one suite, however its counts came about. What is made
of the report that was read, such as its summary or its exit code, is therefore what is made of the
report that was written. -/
theorem readBack_reports :
    (∀ r : CombinedReport, r.IsInRange →
      (Json.read? r.toJson.pretty).bind CombinedReport.ofJson? = some r) ∧
    ∀ r : SuiteReport, r.IsInRange →
      (Json.read? r.toJson.pretty).bind SuiteReport.ofJson? = some r :=
  ⟨fun _ h => (CombinedReport.holds_toJson h).readBack,
    fun _ h => (SuiteReport.holds_toJson h).readBack⟩

/-- A report that no run gives: its counts belong to nothing, its texts need escapes, and some of
its numbers are the greatest ones. -/
def strainedReport : SuiteReport where
  suite := "\t\"π\"\\ 😀"
  totalScenarios := wordLimit 64 - 1
  passed := 0
  failed := 3
  advisoryFailures := 0
  verdictCounts := ⟨[("", 5), ("Pass", wordLimit 64 - 1)], by unfold IsOrdered; decide⟩
  checkpointCounts := .empty
  scenarios :=
    [{ id := "", family := .exceptions, description := "\n\x00", expectation := .advisory,
       overall := .corrupted, checkpointsRun := wordLimit 64 - 1, checkpointsTotal := 0,
       firstFailure := some { kind := .timeout, checkpoint := "null", detail := some "" },
       verdicts := [{ kind := .pass, checkpoint := "", raw := some "null" }] },
     { id := "[", family := .arity, description := "]", expectation := .strict, overall := .pass,
       checkpointsRun := 0, checkpointsTotal := 0, firstFailure := none, verdicts := [] }]

theorem isInRange_strainedReport : strainedReport.IsInRange where
  totalScenarios := by decide
  passed := by decide
  failed := by decide
  advisoryFailures := by decide
  verdictCounts := by unfold Counts.IsInRange; decide
  checkpointCounts := by unfold Counts.IsInRange; decide
  scenarios := by
    intro scenario hmem
    rcases List.mem_cons.1 hmem with rfl | hmem
    · exact ⟨by decide, by decide⟩
    · rw [List.mem_singleton.1 hmem]
      exact ⟨by decide, by decide⟩

theorem readBack_reports_strained :
    strainedReport.IsInRange ∧
    (Json.read? strainedReport.toJson.pretty).bind SuiteReport.ofJson? = some strainedReport ∧
    (Json.read? (CombinedReport.toJson ⟨[strainedReport, strainedReport]⟩).pretty).bind
      CombinedReport.ofJson? = some ⟨[strainedReport, strainedReport]⟩ := by
  refine ⟨isInRange_strainedReport, readBack_reports.2 _ isInRange_strainedReport,
    readBack_reports.1 _ fun suite hmem => ?_⟩
  obtain rfl : suite = strainedReport := by simpa using hmem
  exact isInRange_strainedReport

end TierCheck
