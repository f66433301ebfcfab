import TierCheck.Catalog.Calls
import TierCheck.Proofs.Number.Length
import TierCheck.Proofs.Number.Printed
import TierCheck.Proofs.Run.Classification

/-!
# Verdicts of numbers

A number is reported by a spelling, but it is judged by its text. The text holds no piece of source
code, so a wrong number counts as corrupted only if its text is longer than the threshold. That is
not the length of the spelling: the text has all the zeros that an exponent stands for.

* `Value.corruption?_number`: the one sign of corruption that a number can show.
* `IsShortSpelling`: spellings of which one can say that the number has a short text.
* `Criteria.judge_number`: the verdict of a number, by its text and by its spelling.
-/
namespace TierCheck

/-- Each piece of source code holds a square bracket, a greater-than sign or a brace. -/
theorem sourceToken?_eq_none {s : List Char} (hcode : '[' ∉ s) (harrow : '>' ∉ s)
    (hbrace : '\x7b' ∉ s) : sourceToken? s = none := by
  unfold sourceToken?
  rw [if_neg, if_neg, if_neg]
  · intro h
    simp only [Bool.and_eq_true, List.contains_iff_mem] at h
    exact hbrace h.1.1
  · exact fun h => harrow ((occursIn_iff.1 h).subset (by decide))
  · exact fun h => hcode ((occursIn_iff.1 h).subset (by decide))

/-- The characters of a number's text. -/
theorem Double.mem_text_chars {d : Double} {c : Char} (h : c ∈ d.text.toList) :
    c.isDigit = true ∨ c ∈ ".-NaInfity".toList := by
  cases d with
  | nan =>
    have hname : "NaN".toList ⊆ ".-NaInfity".toList := by decide
    exact .inr (hname h)
  | infinite negative =>
    have hname : (infinite negative).text.toList ⊆ ".-NaInfity".toList := by
      cases negative <;> decide
    exact .inr (hname h)
  | finite negative o =>
    rcases mem_text h with hdigit | rfl | rfl
    · exact .inl hdigit
    · exact .inr (by decide)
    · exact .inr (by decide)

/-- The text of a number is suspect only for its length. -/
theorem Value.corruption?_number (n : Double) (declared : ResultKind) (threshold : Nat) :
    (Value.number n).corruption? declared threshold =
      if declared.isScalar = true ∧ threshold < n.text.length then
        some (.tooLong n.text.length threshold)
      else none := by
  have habsent : ∀ c : Char, ¬(c.isDigit = true ∨ c ∈ ".-NaInfity".toList) →
      c ∉ n.text.toList.dropWhile isBlank :=
    fun c hc hmem => hc (Double.mem_text_chars ((List.dropWhile_suffix isBlank).subset hmem))
  have hstart : definitionStarts.any
      (fun s => s.toList.isPrefixOf (n.text.toList.dropWhile isBlank)) = false := by
    rw [List.any_eq_false]
    intro s hs hprefix
    have hc : ∀ s ∈ definitionStarts, 'c' ∈ s.toList := by decide
    exact habsent 'c' (by decide) ((List.isPrefixOf_iff_prefix.1 hprefix).subset (hc s hs))
  have htoken := sourceToken?_eq_none (habsent '[' (by decide)) (habsent '>' (by decide))
    (habsent '\x7b' (by decide))
  have hcallable : (Value.number n).isCallable = false := rfl
  have htext : (Value.number n).text = n.text := rfl
  unfold Value.corruption?
  simp only [htext, hstart, htoken, hcallable, String.length_toList]
  cases declared.isScalar <;> simp

namespace Event

/-- A line that begins like the report of a number is read as one, or not at all. -/
theorem exists_number_of_read {payload : String} {v : Value} {raw : String}
    (h : read ("RESULT:number:" ++ payload) = .ok (.result v raw)) :
    ∃ n, v = .number n ∧ readNumber? raw = some n := by
  rw [read_eq, mapError_eq_ok_iff, content, String.toList_append,
    rdropWhile_append (by decide)] at h
  have hstart : "RESULT:number:".toList = "RESULT:".toList ++ ("number".toList ++ [':']) := by
    decide
  rw [hstart, List.append_assoc, readContent_result, List.append_assoc] at h
  unfold readResult at h
  rw [List.singleton_append, splitOnce?_append (by decide)] at h
  obtain ⟨text, -, hrest⟩ := bind_eq_ok_iff.1 h
  obtain ⟨value, hvalue, heq⟩ := bind_eq_ok_iff.1 hrest
  cases heq
  rw [String.ofList_toList] at hvalue
  exact Value.read_number_eq_ok_iff.1 hvalue

end Event

/-- The spellings of a number that are short for a threshold, however the number is written out:
what a script prints without an exponent, the text of a number, a spelling that stays below the
threshold with the zeros of its exponent, and every spelling for a threshold that no number
reaches. -/
inductive IsShortSpelling (threshold : Nat) (raw : String) : Prop
  | printed (d : Double) (heq : raw = d.printed) (hplain : 'e' ∉ raw.toList)
    (hlength : raw.length ≤ threshold)
  | text (d : Double) (heq : raw = d.text) (hlength : raw.length ≤ threshold)
  | spelling (h : (Decimal.mantissa (trim raw).toList).length +
      (Decimal.writtenExponent (trim raw).toList).natAbs < threshold)
  | large (h : 327 ≤ threshold)

theorem IsShortSpelling.length_text_le {threshold : Nat} {raw : String} {n : Double}
    (h : IsShortSpelling threshold raw) (hread : readNumber? raw = some n) :
    n.text.length ≤ threshold := by
  cases h with
  | printed d heq hplain hlength =>
    subst heq
    rwa [Double.text_of_readNumber?_printed hread hplain]
  | text d heq hlength =>
    subst heq
    rw [readNumber?_text] at hread
    rwa [← Option.some.inj hread]
  | spelling h =>
    have hle := length_text_of_readNumber? hread
    omega
  | large h => exact n.length_text_le.trans h

namespace Criteria

theorem judge_number_eq (c : Criteria) (s : Scenario) (checkpoint : Checkpoint) (n : Double)
    (raw : String) :
    let verdict := c.judge s checkpoint (.number n) raw
    (verdict.kind =
      if (c.agreement s).holds (.number n) (s.expectedAt checkpoint) = true then .pass
      else if s.returns.isScalar = true ∧ c.lengthThreshold < n.text.length then .corrupted
      else .wrongValue) ∧
    (verdict.kind = .corrupted →
      verdict.detail = some (Corruption.tooLong n.text.length c.lengthThreshold).message) := by
  unfold judge
  rw [Value.corruption?_number]
  dsimp only
  split
  · exact ⟨rfl, fun hkind => by cases hkind⟩
  · by_cases hlong : s.returns.isScalar = true ∧ c.lengthThreshold < n.text.length
    · rw [if_pos hlong, if_pos hlong]
      exact ⟨rfl, fun _ => rfl⟩
    · rw [if_neg hlong, if_neg hlong]
      exact ⟨rfl, fun hkind => by cases hkind⟩

/-- **A reported number is corrupted only for the length of its text.** Whatever the scenario, the
threshold, the tolerance and the spelling, a number that disagrees with the right result is
corrupted exactly if its text is longer than the threshold. The text is at most one character longer
than a spelling without an exponent, and what a script prints for a number is read as that number,
but for the sign of a zero. A short spelling is never corrupted. -/
theorem judge_number (c : Criteria) (s : Scenario) (checkpoint : Checkpoint) {payload : String}
    {v : Value} {raw : String}
    (h : Event.read ("RESULT:number:" ++ payload) = .ok (.result v raw)) :
    ∃ n, v = .number n ∧ readNumber? raw = some n ∧
      (c.judge s checkpoint v raw).kind =
        (if (c.agreement s).holds v (s.expectedAt checkpoint) = true then .pass
        else if s.returns.isScalar = true ∧ c.lengthThreshold < n.text.length then .corrupted
        else .wrongValue) ∧
      ((c.judge s checkpoint v raw).kind = .corrupted → (c.judge s checkpoint v raw).detail =
        some (Corruption.tooLong n.text.length c.lengthThreshold).message) ∧
      ((∀ ch ∈ raw.toList, Decimal.isExponentMark ch = false) →
        n.text.length ≤ raw.length + 1) ∧
      (∀ d : Double, raw = d.printed → n = if d = .negZero then .zero else d) ∧
      (IsShortSpelling c.lengthThreshold raw → (c.judge s checkpoint v raw).kind = .pass ∨
        (c.judge s checkpoint v raw).kind = .wrongValue) := by
  obtain ⟨n, rfl, hread⟩ := Event.exists_number_of_read h
  obtain ⟨hkind, hdetail⟩ := c.judge_number_eq s checkpoint n raw
  refine ⟨n, rfl, hread, hkind, hdetail, fun hplain => length_text_of_plain hplain hread,
    fun d hprinted => ?_, fun hshort => ?_⟩
  · rw [hprinted, Double.readNumber?_printed] at hread
    exact (Option.some.inj hread).symm
  · have hlength := hshort.length_text_le hread
    rw [hkind]
    split
    · exact .inl rfl
    · rw [if_neg (by omega)]
      exact .inr rfl

/-- The sum of seven integers, reported as a fraction. -/
theorem judge_number_fraction :
    let s := (Plan.sumDraft {} 7).toScenario fun args => .number (Plan.plainSum args)
    let v := Value.number (.ofRatio 57 2)
    Event.read ("RESULT:number:" ++ "\"28.5\"") = .ok (.result v "28.5") ∧
      IsShortSpelling 50 "28.5" ∧
      (({} : Criteria).judge s ⟨"interpreted", 1, 0⟩ v "28.5").kind = .wrongValue := by
  intro s v
  have hread : Event.read ("RESULT:number:" ++ "\"28.5\"") = .ok (.result v "28.5") := by
    decide +kernel
  have hshort : IsShortSpelling 50 "28.5" :=
    .printed (.ofRatio 57 2) (by decide +kernel) (by decide) (by decide)
  obtain ⟨n, -, -, hkind, -, -, -, hjudged⟩ := judge_number {} s ⟨"interpreted", 1, 0⟩ hread
  refine ⟨hread, hshort, (hjudged hshort).resolve_left fun hpass => ?_⟩
  have hwrong :
      (({} : Criteria).agreement s).holds v (s.expectedAt ⟨"interpreted", 1, 0⟩) = false := by
    decide +kernel
  rw [hkind, hwrong, if_neg Bool.false_ne_true] at hpass
  split at hpass <;> cases hpass

/-- Five characters that a script prints are corrupted for the sixty zeros that they stand for. -/
theorem judge_number_exponent :
    let s := (Plan.sumDraft {} 7).toScenario fun args => .number (Plan.plainSum args)
    let v := Value.number (.ofNat (10 ^ 60))
    s.IsValid ∧ s.returns.isScalar = true ∧ (Double.ofNat (10 ^ 60)).printed = "1e+60" ∧
      Event.read ("RESULT:number:" ++ "\"1e+60\"") = .ok (.result v "1e+60") ∧
      "1e+60".length ≤ ({} : Criteria).lengthThreshold ∧
      (({} : Criteria).judge s ⟨"interpreted", 1, 0⟩ v "1e+60").kind = .corrupted := by
  intro s v
  exact ⟨by decide +kernel, rfl, by decide +kernel, by decide +kernel, by decide,
    by decide +kernel⟩

end Criteria
end TierCheck
