import Mathlib.Data.List.DropRight
import TierCheck.Event.Line
import TierCheck.Proofs.Number.Digits
import TierCheck.Text.Line

/-!
# Cutting texts

What the functions that cut a text give back, and that they find the same cut again when the parts
are put together. A cut at the first separator looks at nothing behind it, so the part behind may
be replaced.

* `after?_eq_some_iff`, `splitOnce?_eq_some_iff`: a known start, and the first separator.
* `Event.IsFaultCut`: the cut of a fault line.
* `trim_eq_self`: a text without blanks.
* `IsOneLine`, `lines_append`, `lines_join_append`: a text of lines.
-/
namespace TierCheck

/-- A start of two parts lies in the first part, or it is the first part with a start of the
second. -/
theorem prefix_append_cases {α : Type} {part a b : List α} (h : part <+: a ++ b) :
    (part <+: a ∧ part ≠ a) ∨ ∃ later, part = a ++ later ∧ later <+: b := by
  obtain ⟨rest, hrest⟩ := h
  rcases List.append_eq_append_iff.1 hrest with ⟨between, rfl, rfl⟩ | ⟨between, rfl, rfl⟩
  · by_cases hnil : between = []
    · subst hnil
      exact .inr ⟨[], by simp, List.nil_prefix⟩
    · exact .inl ⟨⟨between, rfl⟩, fun heq => hnil (by simpa using heq)⟩
  · exact .inr ⟨between, rfl, ⟨rest, rfl⟩⟩

theorem after?_append (start : String) (rest : List Char) :
    after? start (start.toList ++ rest) = some rest := by
  rw [after?, if_pos (List.isPrefixOf_iff_prefix.2 (List.prefix_append _ _)), List.drop_left]

theorem after?_eq_some_iff {start : String} {s rest : List Char} :
    after? start s = some rest ↔ s = start.toList ++ rest := by
  constructor
  · intro h
    unfold after? at h
    split at h
    · next hprefix =>
      obtain ⟨rest', rfl⟩ := List.isPrefixOf_iff_prefix.1 hprefix
      rw [List.drop_left] at h
      rw [Option.some.inj h]
    · cases h
  · rintro rfl
    exact after?_append start rest

theorem after?_eq_none_of_head {start : String} {s : List Char} {c : Char}
    (hc : start.toList.head? = some c) (h : s.head? ≠ some c) : after? start s = none := by
  cases hs : after? start s with
  | none => rfl
  | some rest =>
    rw [after?_eq_some_iff] at hs
    rw [hs, List.head?_append, hc] at h
    exact absurd rfl h

theorem after?_eq_none_iff {start : String} {s : List Char} :
    after? start s = none ↔ ¬start.toList <+: s := by
  rw [after?, ite_eq_right_iff, List.isPrefixOf_iff_prefix]
  simp

theorem splitOnce?_append {separator : Char} {before : List Char} (h : separator ∉ before)
    (after : List Char) : splitOnce? separator (before ++ separator :: after) =
      some (before, after) := by
  induction before with
  | nil => rw [List.nil_append, splitOnce?, if_pos rfl]
  | cons c before ih =>
    rw [List.mem_cons, not_or] at h
    rw [List.cons_append, splitOnce?, if_neg (Ne.symm h.1), ih h.2]
    rfl

theorem splitOnce?_eq_some_iff {separator : Char} {s before after : List Char} :
    splitOnce? separator s = some (before, after) ↔
      s = before ++ separator :: after ∧ separator ∉ before := by
  constructor
  · intro h
    induction s generalizing before with
    | nil => cases h
    | cons c s ih =>
      rw [splitOnce?] at h
      split at h
      · next hc =>
        cases h
        exact ⟨by rw [hc]; rfl, List.not_mem_nil⟩
      · next hc =>
        obtain ⟨⟨before', after'⟩, hcut, heq⟩ := Option.map_eq_some_iff.1 h
        cases heq
        obtain ⟨rfl, hmem⟩ := ih hcut
        exact ⟨rfl, fun hin => (List.mem_cons.1 hin).elim (fun heq => hc heq.symm) hmem⟩
  · rintro ⟨rfl, h⟩
    exact splitOnce?_append h after

theorem splitOnce?_eq_none {separator : Char} {s : List Char} (h : separator ∉ s) :
    splitOnce? separator s = none := by
  cases hs : splitOnce? separator s with
  | none => rfl
  | some cut =>
    obtain ⟨rfl, -⟩ := splitOnce?_eq_some_iff.1 (hs : _ = some (cut.1, cut.2))
    exact absurd (List.mem_append_right _ List.mem_cons_self) h

theorem occursIn_iff {part s : List Char} : occursIn part s = true ↔ part <:+: s := by
  induction s with
  | nil => rw [occursIn, List.isEmpty_iff, List.infix_nil]
  | cons c rest ih =>
    rw [occursIn, Bool.or_eq_true, List.isPrefixOf_iff_prefix, ih, List.infix_cons_iff]

theorem pieces_ne_nil {α : Type} (p : α → Bool) (s : List α) : pieces p s ≠ [] := by
  cases s with
  | nil => exact List.cons_ne_nil _ _
  | cons c rest =>
    rw [pieces]
    split
    · exact List.cons_ne_nil _ _
    · split <;> exact List.cons_ne_nil _ _

theorem pieces_of_none {α : Type} {p : α → Bool} {a : List α} (h : ∀ x ∈ a, p x = false) :
    pieces p a = [a] := by
  induction a with
  | nil => rfl
  | cons x a ih =>
    rw [pieces, h x List.mem_cons_self, ih fun y hy => h y (List.mem_cons_of_mem _ hy)]
    rfl

theorem pieces_append {α : Type} {p : α → Bool} {a : List α} (h : ∀ x ∈ a, p x = false) {x : α}
    (hx : p x = true) (rest : List α) : pieces p (a ++ x :: rest) = a :: pieces p rest := by
  induction a with
  | nil => rw [List.nil_append, pieces, if_pos hx]
  | cons y a ih =>
    rw [List.cons_append, pieces, h y List.mem_cons_self,
      ih fun z hz => h z (List.mem_cons_of_mem _ hz)]
    rfl

/-- A separator parts what stands before it from what stands behind it. -/
theorem pieces_append_cons {α : Type} {p : α → Bool} {x : α} (hx : p x = true) (a b : List α) :
    pieces p (a ++ x :: b) = pieces p a ++ pieces p b := by
  induction a with
  | nil => simp [pieces, hx]
  | cons y a ih =>
    rw [List.cons_append, pieces, pieces, ih]
    cases hpieces : pieces p a with
    | nil => exact absurd hpieces (pieces_ne_nil p a)
    | cons first others => split <;> rfl

/-! ## Fault lines -/

namespace Event

/-- The rest of a fault line is cut before the payload, and would be cut there whatever stands
between the quotes. -/
structure IsFaultCut (s name payload : List Char) : Prop where
  eq_append : s = name ++ ':' :: payload
  starts : ∃ rest, payload = '"' :: rest
  again : ∀ other, splitFault? (name ++ ':' :: '"' :: other) = some (name, '"' :: other)

theorem splitFault?_cons {c : Char} {rest : List Char} (h : c ≠ ':' ∨ rest.head? ≠ some '"') :
    splitFault? (c :: rest) =
      (splitFault? rest).map fun (name, payload) => (c :: name, payload) := by
  rw [splitFault?.eq_def]
  split
  · next heq => cases heq
  · next heq =>
    cases heq
    simp at h
  · next heq =>
    cases heq
    rfl

theorem splitFault?_of_not_mem {name : List Char} (h : '"' ∉ name) (rest : List Char) :
    splitFault? (name ++ ':' :: '"' :: rest) = some (name, '"' :: rest) := by
  induction name with
  | nil => rw [List.nil_append, splitFault?]
  | cons c name ih =>
    rw [List.mem_cons, not_or] at h
    rw [List.cons_append, splitFault?_cons, ih h.2]
    · rfl
    · right
      cases name with
      | nil => simp
      | cons d name => simpa using fun heq : d = '"' => h.2 (heq ▸ List.mem_cons_self)

theorem splitFault?_eq_some {s name payload : List Char}
    (h : splitFault? s = some (name, payload)) : IsFaultCut s name payload := by
  induction s generalizing name with
  | nil => cases h
  | cons c s ih =>
    by_cases hcut : c = ':' ∧ s.head? = some '"'
    · obtain ⟨rfl, hhead⟩ := hcut
      obtain ⟨rest, rfl⟩ := List.head?_eq_some_iff.1 hhead
      rw [splitFault?] at h
      cases h
      exact ⟨rfl, ⟨rest, rfl⟩, fun other => by rw [List.nil_append, splitFault?]⟩
    · have hne : c ≠ ':' ∨ s.head? ≠ some '"' := by
        by_cases hc : c = ':'
        · exact .inr fun hhead => hcut ⟨hc, hhead⟩
        · exact .inl hc
      rw [splitFault?_cons hne] at h
      obtain ⟨⟨name', payload'⟩, hrest, heq⟩ := Option.map_eq_some_iff.1 h
      cases heq
      obtain ⟨rfl, ⟨rest, rfl⟩, hagain⟩ := ih hrest
      refine ⟨rfl, ⟨rest, rfl⟩, fun other => ?_⟩
      rw [List.cons_append, splitFault?_cons, hagain]
      · rfl
      · refine hne.imp id fun hhead => ?_
        cases name' with
        | nil => simp
        | cons d name' => simpa using hhead

end Event

/-! ## Blanks and line ends -/

theorem dropWhileEnd_eq_rdropWhile (p : Char → Bool) (s : List Char) :
    dropWhileEnd p s = s.rdropWhile p := rfl

/-- What is dropped at the end does not reach back over a start that keeps its end. -/
theorem rdropWhile_append {α : Type} {p : α → Bool} {start : List α}
    (hstart : start.rdropWhile p = start) (rest : List α) :
    (start ++ rest).rdropWhile p = start ++ rest.rdropWhile p := by
  induction rest using List.reverseRecOn with
  | nil => rw [List.append_nil, hstart, List.rdropWhile_nil, List.append_nil]
  | append_singleton rest c ih =>
    rw [← List.append_assoc, List.rdropWhile_concat, List.rdropWhile_concat, ih]
    split <;> simp

theorem trim_eq_self {s : String} (h : ∀ c ∈ s.toList, isBlank c = false) : trim s = s := by
  have hfront : s.toList.dropWhile isBlank = s.toList := by
    rw [List.dropWhile_eq_self_iff]
    intro hlength
    simpa using h _ (List.getElem_mem hlength)
  have hback : s.toList.rdropWhile isBlank = s.toList := by
    rw [List.rdropWhile_eq_self_iff]
    intro hne
    simpa using h _ (List.getLast_mem hne)
  rw [trim, hfront, dropWhileEnd_eq_rdropWhile, hback, String.ofList_toList]

/-- A text is what is left of it when it is trimmed, between blanks. -/
theorem exists_trim (s : String) : ∃ before after, s.toList = before ++ (trim s).toList ++ after ∧
    (∀ c ∈ before, isBlank c = true) ∧ ∀ c ∈ after, isBlank c = true := by
  let inner := s.toList.dropWhile isBlank
  refine ⟨s.toList.takeWhile isBlank, inner.rtakeWhile isBlank, ?_,
    fun c => List.mem_takeWhile_imp, fun c => List.mem_rtakeWhile_imp⟩
  rw [trim, String.toList_ofList, dropWhileEnd_eq_rdropWhile, List.append_assoc,
    List.rdropWhile_append_rtakeWhile, List.takeWhile_append_dropWhile]

theorem mem_of_mem_trim {s : String} {c : Char} (h : c ∈ (trim s).toList) : c ∈ s.toList := by
  obtain ⟨before, after, hs, -, -⟩ := exists_trim s
  rw [hs]
  exact List.mem_append_left _ (List.mem_append_right _ h)

theorem length_trim_le (s : String) : (trim s).length ≤ s.length := by
  obtain ⟨before, after, hs, -, -⟩ := exists_trim s
  rw [← String.length_toList, ← String.length_toList, hs]
  simp only [List.length_append]
  omega

/-- What is left of a trimmed text begins with no blank, so nothing is left to trim. -/
theorem trim_trim (s : String) : trim (trim s) = trim s := by
  let inner := s.toList.dropWhile isBlank
  have hfront : (inner.rdropWhile isBlank).dropWhile isBlank = inner.rdropWhile isBlank := by
    cases hrest : inner.rdropWhile isBlank with
    | nil => rfl
    | cons c rest =>
      obtain ⟨after, hafter⟩ := inner.rdropWhile_prefix isBlank
      rw [hrest] at hafter
      have hc : isBlank c = false := by
        have hhead := List.head?_dropWhile_not isBlank s.toList
        rw [show s.toList.dropWhile isBlank = c :: rest ++ after from hafter.symm] at hhead
        exact hhead
      exact List.dropWhile_cons_of_neg (by simp [hc])
  rw [trim, trim, String.toList_ofList]
  simp only [dropWhileEnd_eq_rdropWhile]
  rw [hfront, List.rdropWhile_idempotent]

theorem isBlank_of_isDigit {c : Char} (h : c.isDigit = true) : isBlank c = false := by
  simp only [Char.isDigit, Bool.and_eq_true, decide_eq_true_eq] at h
  have hlow : 48 ≤ c.toNat := h.1
  have hhigh : c.toNat ≤ 57 := h.2
  simp only [isBlank, Bool.or_eq_false_iff, Bool.and_eq_false_iff, decide_eq_false_iff_not]
  omega

/-! ## Lines -/

/-- The text is no more than a line. -/
def IsOneLine (line : String) : Prop := '\n' ∉ line.toList ∧ '\r' ∉ line.toList

theorem isOneLine_append {a b : String} (ha : IsOneLine a) (hb : IsOneLine b) :
    IsOneLine (a ++ b) := by
  simp only [IsOneLine, String.toList_append, List.mem_append, not_or]
  exact ⟨⟨ha.1, hb.1⟩, ha.2, hb.2⟩

/-- A text whose characters are given, which is how a literal is known. -/
theorem isOneLine_of_eq_ofList {s : String} {l : List Char} (hs : s = String.ofList l)
    (h : l.all (fun c => 32 ≤ c.toNat) = true) : IsOneLine s := by
  rw [List.all_eq_true] at h
  rw [IsOneLine, hs, String.toList_ofList]
  exact ⟨fun hmem => absurd (h _ hmem) (by decide), fun hmem => absurd (h _ hmem) (by decide)⟩

theorem isOneLine_of_hasBlank {s : String} (h : hasBlank s = false) : IsOneLine s := by
  unfold hasBlank at h
  rw [List.any_eq_false] at h
  exact ⟨fun hmem => h _ hmem (by decide), fun hmem => h _ hmem (by decide)⟩

theorem isOneLine_naturalText (n : Nat) : IsOneLine (naturalText n) := by
  rw [IsOneLine, naturalText, String.toList_ofList]
  exact ⟨fun hmem => absurd (isDigit_of_mem_toDigits hmem) (by decide),
    fun hmem => absurd (isDigit_of_mem_toDigits hmem) (by decide)⟩

theorem dropReturn_eq_self {s : List Char} (h : '\r' ∉ s) : dropReturn s = s := by
  unfold dropReturn
  rw [if_neg]
  intro hlast
  exact h (List.mem_of_getLast? hlast)

theorem lines_append {line : String} (h : IsOneLine line) (rest : String) :
    lines (line ++ "\n" ++ rest) = line :: lines rest := by
  have hpieces : pieces (· = '\n') (line ++ "\n" ++ rest).toList =
      line.toList :: pieces (· = '\n') rest.toList := by
    have hline : ∀ c ∈ line.toList, decide (c = '\n') = false := by
      intro c hc
      rw [decide_eq_false_iff_not]
      rintro rfl
      exact h.1 hc
    rw [String.toList_append, String.toList_append, List.append_assoc]
    exact pieces_append hline rfl _
  unfold lines
  rw [hpieces]
  obtain ⟨first, others, hrest⟩ := List.exists_cons_of_ne_nil (pieces_ne_nil (· = '\n') rest.toList)
  rw [hrest]
  simp only [List.dropLast_cons_cons, List.map_cons, List.getLast?_cons_cons,
    dropReturn_eq_self h.2]
  split <;> simp

theorem lines_join_append {plain : List String} (h : ∀ line ∈ plain, IsOneLine line)
    (rest : String) :
    lines (String.join (plain.map (· ++ "\n")) ++ rest) = plain ++ lines rest := by
  induction plain with
  | nil => rw [List.map_nil, String.join_nil, String.empty_append, List.nil_append]
  | cons line plain ih =>
    rw [List.forall_mem_cons] at h
    rw [List.map_cons, String.join_cons, String.append_assoc, lines_append h.1, ih h.2]
    rfl

end TierCheck
