import Mathlib.Logic.Relation
import TierCheck.Proofs.Text.Cutting

/-!
# Words between separators

The lists that a user writes are made of words, and it makes no difference how the words are kept
apart: a separator may be any of its kind, and there may be more of them than are needed.

* `words`: the parts between separators that are not empty.
* `words_append_cons`, `terms_intercalate`: words come apart at a separator, and words that are put
  together are found again.
* `words_map`: a change of characters that leaves separators what they are.
* `Respaced`, `words_of_respaced`: texts that differ in their separators alone.
-/
namespace TierCheck

/-- The parts of a text between separators that are not empty. -/
def words (p : Char → Bool) (s : List Char) : List (List Char) := (pieces p s).filter (· ≠ [])

theorem terms_eq (isSeparator : Char → Bool) (text : String) :
    terms isSeparator text = (words isSeparator text.toList).map String.ofList := rfl

section

variable {p : Char → Bool} {c : Char}

theorem words_append_cons (hc : p c = true) (a b : List Char) :
    words p (a ++ c :: b) = words p a ++ words p b := by
  rw [words, pieces_append_cons hc, List.filter_append]
  rfl

theorem words_cons (hc : p c = true) (s : List Char) : words p (c :: s) = words p s :=
  words_append_cons hc [] s

theorem words_of_none {s : List Char} (h : ∀ c ∈ s, p c = false) (hs : s ≠ []) :
    words p s = [s] := by
  simp [words, pieces_of_none h, hs]

/-- A text has no words if it is made of separators. -/
theorem words_eq_nil_iff {s : List Char} : words p s = [] ↔ ∀ c ∈ s, p c = true := by
  induction s with
  | nil => simp [words, pieces]
  | cons c s ih =>
    rw [List.forall_mem_cons]
    by_cases hc : p c = true
    · rw [words_cons hc, ih]
      simp [hc]
    · obtain ⟨first, others, hrest⟩ := List.exists_cons_of_ne_nil (pieces_ne_nil p s)
      simp [words, pieces, hc, hrest]

theorem words_append_left {before : List Char} (h : ∀ c ∈ before, p c = true) (s : List Char) :
    words p (before ++ s) = words p s := by
  induction before with
  | nil => rfl
  | cons c before ih =>
    rw [List.forall_mem_cons] at h
    rw [List.cons_append, words_cons h.1, ih h.2]

theorem words_append_right (s : List Char) {after : List Char} (h : ∀ c ∈ after, p c = true) :
    words p (s ++ after) = words p s := by
  cases after with
  | nil => rw [List.append_nil]
  | cons c after =>
    rw [List.forall_mem_cons] at h
    rw [words_append_cons h.1, words_eq_nil_iff.2 h.2, List.append_nil]

/-- No piece between separators has one in it. -/
theorem plain_of_mem_pieces (s : List Char) :
    ∀ piece ∈ pieces p s, ∀ c ∈ piece, p c = false := by
  induction s with
  | nil => simp [pieces]
  | cons d rest ih =>
    obtain ⟨first, others, hrest⟩ := List.exists_cons_of_ne_nil (pieces_ne_nil p rest)
    rw [hrest, List.forall_mem_cons] at ih
    rw [pieces, hrest]
    split
    · simpa using ih
    · next hd => simpa [hd] using ih

theorem plain_of_mem_words {s word : List Char} (h : word ∈ words p s) :
    ∀ c ∈ word, p c = false :=
  plain_of_mem_pieces s word (List.mem_filter.1 h).1

/-- Words that are put together with separators between them are found again. -/
theorem words_intercalate {separators : List Char} (hne : separators ≠ [])
    (hp : ∀ c ∈ separators, p c = true) {ws : List (List Char)}
    (h : ∀ w ∈ ws, w ≠ [] ∧ ∀ c ∈ w, p c = false) : words p (separators.intercalate ws) = ws := by
  obtain ⟨c, separators, rfl⟩ := List.exists_cons_of_ne_nil hne
  rw [List.forall_mem_cons] at hp
  induction ws with
  | nil => rfl
  | cons w ws ih =>
    obtain ⟨⟨hword, hplain⟩, hrest⟩ := List.forall_mem_cons.1 h
    cases ws with
    | nil => rw [List.intercalate_singleton, words_of_none hplain hword]
    | cons next ws =>
      rw [List.intercalate_cons_cons, List.append_assoc, List.cons_append,
        words_append_cons hp.1, words_append_left hp.2, words_of_none hplain hword, ih hrest,
        List.singleton_append]

theorem terms_intercalate {separators : String} (hne : separators.toList ≠ [])
    (hp : ∀ c ∈ separators.toList, p c = true) {texts : List String}
    (h : ∀ text ∈ texts, text.toList ≠ [] ∧ ∀ c ∈ text.toList, p c = false) :
    terms p (separators.intercalate texts) = texts := by
  rw [terms_eq, String.toList_intercalate, words_intercalate hne hp (List.forall_mem_map.2 h),
    List.map_map]
  exact (List.map_congr_left fun _ _ => String.ofList_toList).trans (List.map_id _)

/-- A change of characters that leaves separators what they are changes each word by itself. -/
theorem words_map {f : Char → Char} (h : ∀ c, p (f c) = p c) (s : List Char) :
    words p (s.map f) = (words p s).map (List.map f) := by
  have hpieces : pieces p (s.map f) = (pieces p s).map (List.map f) := by
    induction s with
    | nil => rfl
    | cons c s ih =>
      rw [List.map_cons, pieces, pieces, h, ih]
      cases hrest : pieces p s with
      | nil => exact absurd hrest (pieces_ne_nil p s)
      | cons first others => split <;> rfl
  rw [words, hpieces, List.filter_map, words]
  congr 1
  exact List.filter_congr fun piece _ => by simp

/-! ## Other separators -/

/-- Blanks around a text are no part of its terms if they separate terms. -/
theorem terms_trim (h : ∀ c, isBlank c = true → p c = true) (s : String) :
    terms p (trim s) = terms p s := by
  obtain ⟨before, after, hs, hbefore, hafter⟩ := exists_trim s
  rw [terms_eq, terms_eq, hs, words_append_right _ fun c hc => h c (hafter c hc),
    words_append_left fun c hc => h c (hbefore c hc)]

/-- A change of separators: another one in its place, one more beside it, or one more at an end. -/
inductive Respaced (p : Char → Bool) : List Char → List Char → Prop where
  | replaced (before after : List Char) {c d : Char} (hc : p c = true) (hd : p d = true) :
    Respaced p (before ++ c :: after) (before ++ d :: after)
  | repeated (before after : List Char) {c d : Char} (hc : p c = true) (hd : p d = true) :
    Respaced p (before ++ c :: after) (before ++ c :: d :: after)
  | leading (s : List Char) {c : Char} (hc : p c = true) : Respaced p s (c :: s)
  | trailing (s : List Char) {c : Char} (hc : p c = true) : Respaced p s (s ++ [c])

theorem words_of_respaced {s t : List Char} (h : Respaced p s t) : words p s = words p t := by
  cases h with
  | replaced before after hc hd => rw [words_append_cons hc, words_append_cons hd]
  | repeated before after hc hd =>
    rw [words_append_cons hc, words_append_cons hc, words_cons hd]
  | leading _ hc => rw [words_cons hc]
  | trailing s hc =>
    rw [words_append_right _ (List.forall_mem_singleton.2 hc)]

end

theorem isListSeparator_eq_false_iff {c : Char} :
    isListSeparator c = false ↔ c ≠ ',' ∧ c ≠ ';' ∧ isBlank c = false := by
  simp [isListSeparator, and_assoc]

end TierCheck
