import TierCheck.Proofs.Settings.Selection
import TierCheck.Proofs.Text.Words

/-!
# The algebra of filters

A filter says which scenarios are in a set, and its terms are sets of their own. Two filters with a
comma between them are the union of their sets, and two selections after one another come to the
intersection. Marking only looks at what selecting looks at, the ids and the families, so it makes
no difference which of the two comes first.

* `filterTerms_eq`: the terms of a filter are those of its small letters.
* `IsMatch`, `matchesAny_iff`: what a word of a filter matches.
* `SameFilter`: texts that differ in letter case and in their separators alone.
* `FilterTerm.isIn_read`: a term without a prefix looks in both places.
* `Catalog.select_mapScenarios`: selecting among scenarios that are changed in other respects.
* `Catalog.FilterAlgebra`, `filterAlgebra`: the laws of filters.
-/
namespace TierCheck

/-! ## The terms of a filter -/

/-- No letter is a separator. -/
theorem isListSeparator_of_range {c : Char} (hlow : 60 ≤ c.toNat) (hhigh : c.toNat < 128) :
    isListSeparator c = false := by
  have hcomma : c ≠ ',' := by
    rintro rfl
    revert hlow
    decide
  have hsemicolon : c ≠ ';' := by
    rintro rfl
    revert hlow
    decide
  have hblank : isBlank c = false := by
    simp only [isBlank, Bool.or_eq_false_iff, Bool.and_eq_false_iff, decide_eq_false_iff_not]
    omega
  simp [isListSeparator, hcomma, hsemicolon, hblank]

theorem isListSeparator_toLower (c : Char) : isListSeparator c.toLower = isListSeparator c := by
  unfold Char.toLower
  split
  · next h =>
    have hlow : 65 ≤ c.val.toNat := h.1
    have hhigh : c.val.toNat ≤ 90 := h.2
    have hsmall : (c.val + ('a'.val - 'A'.val)).toNat = c.val.toNat + 32 := by
      rw [UInt32.toNat_add, show ('a'.val - 'A'.val).toNat = 32 from rfl]
      omega
    rw [isListSeparator_of_range (c := c) (by unfold Char.toNat; omega)
      (by unfold Char.toNat; omega)]
    exact isListSeparator_of_range (by unfold Char.toNat; dsimp only; omega)
      (by unfold Char.toNat; dsimp only; omega)
  · rfl

namespace FilterTerm

/-- The term that a text without capital letters describes. -/
def ofLower (lower : List Char) : FilterTerm :=
  match after? "id:" lower, after? "family:" lower with
  | some rest, _ => inId rest
  | none, some rest => inFamily rest
  | none, none => anywhere lower

theorem read_eq (text : String) : read text = ofLower (lowercase text) := rfl

theorem lowercase_append (a b : String) : lowercase (a ++ b) = lowercase a ++ lowercase b := by
  rw [lowercase, String.toList_append, List.map_append]
  rfl

/-- A term without a prefix matches what it matches with one of the prefixes. -/
theorem isIn_read {t : String} (hid : ¬"id:".toList <+: lowercase t)
    (hfamily : ¬"family:".toList <+: lowercase t) (s : Scenario) :
    (read t).isIn s = ((read ("id:" ++ t)).isIn s || (read ("family:" ++ t)).isIn s) := by
  have hplain : read t = anywhere (lowercase t) := by
    rw [read_eq, ofLower, after?_eq_none_iff.2 hid, after?_eq_none_iff.2 hfamily]
  have hinId : read ("id:" ++ t) = inId (lowercase t) := by
    rw [read_eq, lowercase_append, ofLower, show lowercase "id:" = "id:".toList from rfl,
      after?_append]
  have hinFamily : read ("family:" ++ t) = inFamily (lowercase t) := by
    rw [read_eq, lowercase_append, ofLower,
      show lowercase "family:" = "family:".toList from rfl, after?_append,
      after?_eq_none_of_head (c := 'i') rfl (by simp)]
  rw [hplain, hinId, hinFamily]
  rfl

end FilterTerm

/-- The terms of a filter are those of its small letters. -/
theorem filterTerms_eq (text : String) : filterTerms text =
    (words isListSeparator (FilterTerm.lowercase text)).map FilterTerm.ofLower := by
  rw [FilterTerm.lowercase, words_map isListSeparator_toLower, List.map_map, filterTerms,
    terms_eq, List.map_map]
  refine List.map_congr_left fun word _ => ?_
  simp [FilterTerm.read_eq, FilterTerm.lowercase]

theorem filterTerms_eq_nil_iff {text : String} :
    filterTerms text = [] ↔ ∀ c ∈ text.toList, isListSeparator c = true := by
  rw [filterTerms_eq, List.map_eq_nil_iff, words_eq_nil_iff, FilterTerm.lowercase,
    List.forall_mem_map]
  simp only [isListSeparator_toLower]

/-- A comma puts the terms of two filters together. -/
theorem filterTerms_comma (a b : String) :
    filterTerms (a ++ "," ++ b) = filterTerms a ++ filterTerms b := by
  have hcomma : FilterTerm.lowercase "," = [','] := rfl
  simp only [filterTerms_eq, FilterTerm.lowercase_append, hcomma, List.append_assoc,
    List.singleton_append]
  rw [words_append_cons (by decide), List.map_append]

theorem filterTerms_of_term {t : String} (ht : t ≠ "")
    (hterm : ∀ c ∈ t.toList, isListSeparator c = false) :
    filterTerms t = [FilterTerm.read t] := by
  have hlower : ∀ c ∈ FilterTerm.lowercase t, isListSeparator c = false := by
    rw [FilterTerm.lowercase, List.forall_mem_map]
    simpa only [isListSeparator_toLower] using hterm
  rw [filterTerms_eq, words_of_none hlower]
  · rfl
  · simpa [FilterTerm.lowercase] using ht

/-! ## Matches -/

/-- A word of a filter matches a scenario in any letter case, with a prefix in one place and
without one in the id or the family. -/
inductive IsMatch (s : Scenario) (word : List Char) : Prop where
  | inId (part : List Char) (hword : word.map Char.toLower = "id:".toList ++ part)
    (h : part <:+: s.id.toList.map Char.toLower)
  | inFamily (part : List Char) (hword : word.map Char.toLower = "family:".toList ++ part)
    (h : part <:+: s.family.name.toList)
  | anywhere (hid : ¬"id:".toList <+: word.map Char.toLower)
    (hfamily : ¬"family:".toList <+: word.map Char.toLower)
    (h : word.map Char.toLower <:+: s.id.toList.map Char.toLower ∨
      word.map Char.toLower <:+: s.family.name.toList)

theorem FilterTerm.isIn_ofLower_iff {s : Scenario} {word : List Char} :
    (ofLower (word.map Char.toLower)).isIn s = true ↔ IsMatch s word := by
  unfold ofLower
  split
  · next part hpart =>
    have hword := after?_eq_some_iff.1 hpart
    change occursIn part (lowercase s.id) = true ↔ _
    rw [occursIn_iff]
    refine ⟨.inId part hword, fun h => ?_⟩
    cases h with
    | inId other hother h => rwa [List.append_cancel_left (hword.symm.trans hother)]
    | inFamily other hother _ => exact absurd (hword.symm.trans hother) (by simp)
    | anywhere hid _ _ => exact absurd ⟨part, hword.symm⟩ hid
  · next part hid hpart =>
    have hword := after?_eq_some_iff.1 hpart
    change occursIn part s.family.name.toList = true ↔ _
    rw [occursIn_iff]
    refine ⟨.inFamily part hword, fun h => ?_⟩
    cases h with
    | inId other hother _ => exact absurd (hword.symm.trans hother) (by simp)
    | inFamily other hother h => rwa [List.append_cancel_left (hword.symm.trans hother)]
    | anywhere _ hfamily _ => exact absurd ⟨part, hword.symm⟩ hfamily
  · next hid hfamily =>
    change (occursIn _ (lowercase s.id) || occursIn _ s.family.name.toList) = true ↔ _
    rw [Bool.or_eq_true, occursIn_iff, occursIn_iff]
    have hid := after?_eq_none_iff.1 hid
    have hfamily := after?_eq_none_iff.1 hfamily
    refine ⟨.anywhere hid hfamily, fun h => ?_⟩
    cases h with
    | inId other hother _ => exact absurd ⟨other, hother.symm⟩ hid
    | inFamily other hother _ => exact absurd ⟨other, hother.symm⟩ hfamily
    | anywhere _ _ h => exact h

/-- A scenario passes a filter if a word of the filter matches it. -/
theorem matchesAny_iff (text : String) (s : Scenario) :
    matchesAny (filterTerms text) s = true ↔
      ∃ word ∈ words isListSeparator text.toList, IsMatch s word := by
  rw [filterTerms_eq, FilterTerm.lowercase, words_map isListSeparator_toLower, List.map_map,
    matchesAny, List.any_map, List.any_eq_true]
  exact exists_congr fun word => and_congr_right fun _ => FilterTerm.isIn_ofLower_iff

/-- The letter case of an id makes no difference. -/
theorem matchesAny_congr {s t : Scenario}
    (hid : s.id.toList.map Char.toLower = t.id.toList.map Char.toLower)
    (hfamily : s.family = t.family) (filter : List FilterTerm) :
    matchesAny filter s = matchesAny filter t := by
  refine congrArg filter.any (funext fun term => ?_)
  unfold FilterTerm.isIn FilterTerm.lowercase
  rw [hid, hfamily]

/-! ## Filters that are spelled differently -/

/-- A change to the text of a filter: another case of a letter, or a change of separators. -/
inductive Respelled : List Char → List Char → Prop where
  | letterCase (before after : List Char) {c d : Char} (h : c.toLower = d.toLower) :
    Respelled (before ++ c :: after) (before ++ d :: after)
  | separators {s t : List Char} (h : Respaced isListSeparator s t) : Respelled s t

/-- The texts differ by such changes and their reversals. -/
def SameFilter (a b : String) : Prop := Relation.EqvGen Respelled a.toList b.toList

theorem words_of_respelled {s t : List Char} (h : Respelled s t) :
    words isListSeparator (s.map Char.toLower) = words isListSeparator (t.map Char.toLower) := by
  cases h with
  | letterCase before after h => rw [List.map_append, List.map_append, List.map_cons, h]; rfl
  | separators h =>
    rw [words_map isListSeparator_toLower, words_map isListSeparator_toLower, words_of_respaced h]

theorem SameFilter.filterTerms_eq {a b : String} (h : SameFilter a b) :
    filterTerms a = filterTerms b := by
  have hwords := congrArg (Quot.lift (fun s => words isListSeparator (s.map Char.toLower))
    fun _ _ => words_of_respelled) (Quot.eqvGen_sound h)
  rw [TierCheck.filterTerms_eq, TierCheck.filterTerms_eq]
  exact congrArg (List.map FilterTerm.ofLower) hwords

/-! ## Selecting -/

namespace Catalog

variable {c : Catalog}

/-- The scenarios that are selected, of which there are none where selecting fails. -/
def selected (c : Catalog) (text : String) : List Scenario :=
  match c.select text with
  | .ok chosen => chosen.toList
  | .error _ => []

theorem IsSound.selected_eq (h : c.IsSound) {text : String} (hterms : filterTerms text ≠ []) :
    c.selected text = c.toList.filter (matchesAny (filterTerms text)) := by
  unfold selected
  rcases h.select_cases text with ⟨hnil, -⟩ | ⟨-, hnone, hselect⟩ | ⟨-, _, hselect, -, hlist, -⟩
  · exact absurd hnil hterms
  · rw [hselect, hnone]
  · rw [hselect]
    exact hlist

theorem select_of_nil (c : Catalog) {text : String} (hterms : filterTerms text = []) :
    c.select text = .ok c := by
  rw [select, if_pos hterms]
  rfl

/-- What is selected is a new catalog of the scenarios that pass, of which there has to be one. -/
theorem select_eq_ok_iff {text : String} (hterms : filterTerms text ≠ []) {chosen : Catalog} :
    c.select text = .ok chosen ↔
      empty.pushAll (c.toList.filter (matchesAny (filterTerms text))) = .ok chosen ∧
        chosen.toList ≠ [] := by
  have hempty : ∀ other : Catalog, other.size = 0 ↔ other.toList = [] := fun other => by
    simp [size, toList]
  rw [select, if_neg hterms, bind_eq_ok_iff]
  constructor
  · rintro ⟨other, hother, hok⟩
    split at hok
    · cases hok
    · next hsize =>
      cases hok
      exact ⟨hother, (hempty _).not.1 hsize⟩
  · rintro ⟨hchosen, hne⟩
    exact ⟨chosen, hchosen, if_neg ((hempty chosen).not.2 hne)⟩

/-- One selection after the other is a new catalog of the scenarios that pass both filters. -/
theorem IsSound.select_select (h : c.IsSound) {a b : String} (ha : filterTerms a ≠ [])
    (hb : filterTerms b ≠ []) {both : Catalog} :
    (c.select a >>= (·.select b)) = .ok both ↔
      empty.pushAll (c.toList.filter fun s =>
        matchesAny (filterTerms b) s && matchesAny (filterTerms a) s) = .ok both ∧
        both.toList ≠ [] := by
  rw [bind_eq_ok_iff]
  constructor
  · rintro ⟨first, hfirst, hsecond⟩
    obtain ⟨hpush, -⟩ := (select_eq_ok_iff ha).1 hfirst
    have hlist : first.toList = c.toList.filter (matchesAny (filterTerms a)) :=
      (isSound_empty.pushAll hpush).2
    rwa [select_eq_ok_iff hb, hlist, List.filter_filter] at hsecond
  · rintro ⟨hpush, hne⟩
    obtain ⟨first, hfirst⟩ := h.exists_chosen (filterTerms a)
    have hlist : first.toList = c.toList.filter (matchesAny (filterTerms a)) :=
      (isSound_empty.pushAll hfirst).2
    have hboth : both.toList =
        (c.toList.filter (matchesAny (filterTerms a))).filter (matchesAny (filterTerms b)) := by
      rw [List.filter_filter]
      exact (isSound_empty.pushAll hpush).2
    refine ⟨first, (select_eq_ok_iff ha).2 ⟨hfirst, fun hnil => hne ?_⟩, ?_⟩
    · rw [hboth, ← hlist, hnil]
      rfl
    · rw [select_eq_ok_iff hb, hlist, List.filter_filter]
      exact ⟨hpush, hne⟩

/-- It does not matter which of two filters comes first. -/
theorem IsSound.select_comm (h : c.IsSound) (a b : String) {both : Catalog} :
    (c.select a >>= (·.select b)) = .ok both ↔ (c.select b >>= (·.select a)) = .ok both := by
  by_cases ha : filterTerms a = []
  · simp only [bind_eq_ok_iff, select_of_nil _ ha, Except.ok.injEq, exists_eq_left',
      exists_eq_right]
  by_cases hb : filterTerms b = []
  · simp only [bind_eq_ok_iff, select_of_nil _ hb, Except.ok.injEq, exists_eq_left',
      exists_eq_right]
  rw [h.select_select ha hb, h.select_select hb ha]
  simp only [Bool.and_comm]

theorem passes_eq {text : String} (hterms : filterTerms text ≠ []) (s : Scenario) :
    passes (some text) s = matchesAny (filterTerms text) s := by
  simp [passes, hterms]

theorem IsSound.select_eq_ok (h : c.IsSound) {text : String} {chosen : Catalog}
    (hselect : c.select text = .ok chosen) :
    chosen.IsSound ∧ chosen.toList = c.toList.filter (passes (some text)) := h.choose_eq_ok hselect

/-- A scenario that passes keeps the selection from failing. -/
theorem IsSound.exists_select (h : c.IsSound) {text : String} {s : Scenario} (hs : s ∈ c.toList)
    (hpasses : passes (some text) s = true) :
    ∃ chosen, c.select text = .ok chosen ∧ chosen.IsSound ∧
      chosen.toList = c.toList.filter (passes (some text)) := by
  have hok : ∃ chosen, c.select text = .ok chosen := by
    rcases h.select_cases text with ⟨-, hselect⟩ | ⟨hterms, hnone, -⟩ | ⟨-, chosen, hselect, -⟩
    · exact ⟨c, hselect⟩
    · rw [passes_eq hterms] at hpasses
      exact absurd hpasses (List.filter_eq_nil_iff.1 hnone s hs)
    · exact ⟨chosen, hselect⟩
  obtain ⟨chosen, hselect⟩ := hok
  exact ⟨chosen, hselect, h.select_eq_ok hselect⟩

theorem selected_of_ok {text : String} {chosen : Catalog} (h : c.select text = .ok chosen) :
    c.selected text = chosen.toList := by
  rw [selected, h]

theorem IsSound.mem_selected_iff (h : c.IsSound) {text : String} {s : Scenario} :
    s ∈ c.selected text ↔ s ∈ c.toList ∧ passes (some text) s = true := by
  constructor
  · intro hs
    cases hselect : c.select text with
    | error failure =>
      rw [selected, hselect] at hs
      cases hs
    | ok chosen =>
      rw [selected_of_ok hselect, (h.select_eq_ok hselect).2] at hs
      exact List.mem_filter.1 hs
  · rintro ⟨hs, hpasses⟩
    obtain ⟨chosen, hselect, -, hlist⟩ := h.exists_select hs hpasses
    rw [selected_of_ok hselect, hlist]
    exact List.mem_filter.2 ⟨hs, hpasses⟩

/-! ## Marking -/

/-- The catalog with a change to each scenario that leaves its id as it is. -/
def mapScenarios (c : Catalog) (f : Scenario → Scenario) : Catalog :=
  { c with scenarios := c.scenarios.map f }

theorem mark_eq (c : Catalog) (filter : Option String) :
    c.mark filter = c.mapScenarios (marked filter) := by
  cases filter with
  | none =>
    have hid : marked none = id := rfl
    rw [mapScenarios, hid, Array.map_id]
    rfl
  | some text => rfl

section

variable {f : Scenario → Scenario} (hfault : ∀ s, (f s).fault? = s.fault?)
  (hid : ∀ s, (f s).id = s.id)

include hfault hid

/-- The fitness and the id of a scenario decide whether it is added. -/
theorem push_mapScenarios (c : Catalog) (s : Scenario) :
    (c.mapScenarios f).push (f s) = (c.push s).map (·.mapScenarios f) := by
  have hvalid : (f s).IsValid ↔ s.IsValid := by rw [Scenario.IsValid, hfault, Scenario.IsValid]
  rcases push_cases c s with ⟨fault, hs, hpush⟩ | ⟨hs, hplace, hpush⟩ | ⟨hs, hplace, hpush⟩
  · rw [hpush, push_of_fault ((hfault s).trans hs), hid]
    rfl
  · rw [hpush, push_of_mem (hvalid.2 hs) (by rwa [hid]), hid]
    rfl
  · rw [hpush, push_of_new (hvalid.2 hs) (by rwa [hid])]
    simp [append, mapScenarios, hid, Except.map]

theorem pushAll_mapScenarios (c : Catalog) (l : List Scenario) :
    (c.mapScenarios f).pushAll (l.map f) = (c.pushAll l).map (·.mapScenarios f) := by
  induction l generalizing c with
  | nil => rfl
  | cons s l ih =>
    rw [List.map_cons, pushAll_cons, pushAll_cons, push_mapScenarios hfault hid]
    cases c.push s with
    | error failure => rfl
    | ok c' => exact ih c'

/-- Selecting looks at the ids and families of the scenarios, so other changes can be made before
or after it. -/
theorem select_mapScenarios (hmatches : ∀ filter s, matchesAny filter (f s) = matchesAny filter s)
    (c : Catalog) (text : String) :
    (c.mapScenarios f).select text = (c.select text).map (·.mapScenarios f) := by
  have hlist : (c.mapScenarios f).toList.filter (matchesAny (filterTerms text)) =
      (c.toList.filter (matchesAny (filterTerms text))).map f := by
    have hcomp : matchesAny (filterTerms text) ∘ f = matchesAny (filterTerms text) :=
      funext fun s => hmatches _ s
    rw [toList, mapScenarios, Array.toList_map, List.filter_map, hcomp]
    rfl
  have hempty : empty.mapScenarios f = empty := by simp [mapScenarios, empty]
  unfold select
  by_cases hterms : filterTerms text = []
  · rw [if_pos hterms, if_pos hterms]
    rfl
  · rw [if_neg hterms, if_neg hterms, hlist]
    nth_rewrite 1 [← hempty]
    rw [pushAll_mapScenarios hfault hid]
    cases empty.pushAll (c.toList.filter (matchesAny (filterTerms text))) with
    | error failure => rfl
    | ok chosen =>
      have hsize : (chosen.mapScenarios f).size = chosen.size := by simp [size, mapScenarios]
      change (ite _ _ _ : Except Failure Catalog) = Except.map _ (ite _ _ _)
      rw [hsize]
      split <;> rfl

end

theorem matchesAny_marked (text : Option String) (filter : List FilterTerm) (s : Scenario) :
    matchesAny filter (marked text s) = matchesAny filter s := by
  unfold marked
  split <;> rfl

theorem fault?_marked (text : Option String) (s : Scenario) :
    (marked text s).fault? = s.fault? := by
  unfold marked
  split <;> rfl

theorem id_marked (text : Option String) (s : Scenario) : (marked text s).id = s.id := by
  unfold marked
  split <;> rfl

/-- Marking a second time changes nothing. -/
theorem marked_marked (text : Option String) (s : Scenario) :
    marked text (marked text s) = marked text s := by
  rw [marked.eq_1 text (marked text s)]
  simp only [matchesAny_marked]
  split
  · next hmatches => rw [marked, if_pos hmatches, Scenario.markAdvisory, Scenario.markAdvisory]
  · rfl

theorem markAdvisory_eq (c : Catalog) (text : String) :
    c.markAdvisory text = c.mapScenarios (marked (some text)) := rfl

/-- Selecting and marking can change places. -/
theorem select_mark (c : Catalog) (filter : Option String) (text : String) :
    (c.mark filter).select text = (c.select text).map (·.mark filter) := by
  simp only [mark_eq]
  exact select_mapScenarios (fault?_marked filter) (id_marked filter)
    (fun terms s => matchesAny_marked filter terms s) c text

theorem mapScenarios_mapScenarios (c : Catalog) (f g : Scenario → Scenario) :
    (c.mapScenarios f).mapScenarios g = c.mapScenarios (g ∘ f) := by
  simp [mapScenarios]

theorem markAdvisory_markAdvisory (c : Catalog) (text : String) :
    (c.markAdvisory text).markAdvisory text = c.markAdvisory text := by
  rw [markAdvisory_eq, markAdvisory_eq, mapScenarios_mapScenarios]
  exact congrArg c.mapScenarios (funext (marked_marked _))

theorem countMatching_markAdvisory (c : Catalog) (text : String) :
    (c.markAdvisory text).countMatching text = c.countMatching text := by
  have hcomp : matchesAny (filterTerms text) ∘ marked (some text) =
      matchesAny (filterTerms text) :=
    funext fun s => matchesAny_marked _ _ s
  rw [countMatching, countMatching, toList, markAdvisory_eq, mapScenarios, Array.toList_map,
    List.countP_map, hcomp]
  rfl

theorem markAdvisory_of_nil (c : Catalog) {text : String} (hterms : filterTerms text = []) :
    c.markAdvisory text = c := by
  have hid : marked (some text) = id := by
    funext s
    simp [marked, matchesAny, hterms]
  rw [markAdvisory_eq, mapScenarios, hid, Array.map_id]

/-! ## The laws -/

/-- What filters do to a catalog, for any texts of filters. -/
structure FilterAlgebra (c : Catalog) : Prop where
  /-- The scenarios that a word matches are selected, in the order of the catalog. -/
  selected_eq : ∀ a, filterTerms a ≠ [] →
    c.selected a = c.toList.filter (matchesAny (filterTerms a))
  /-- A comma makes the union, in the order of the catalog. -/
  union : ∀ a b, filterTerms a ≠ [] → filterTerms b ≠ [] →
    (c.selected (a ++ "," ++ b)).Sublist c.toList ∧
    ∀ s, s ∈ c.selected (a ++ "," ++ b) ↔ s ∈ c.selected a ∨ s ∈ c.selected b
  /-- One filter after the other makes the intersection, whichever is first. -/
  intersection : ∀ a b, (∃ s ∈ c.selected a, s ∈ c.selected b) → ∃ both,
    (c.select a >>= (·.select b)) = .ok both ∧ (c.select b >>= (·.select a)) = .ok both ∧
    both.toList.Sublist c.toList ∧
    ∀ s, s ∈ both.toList ↔ s ∈ c.selected a ∧ s ∈ c.selected b
  idempotent : ∀ a chosen, c.select a = .ok chosen → chosen.select a = .ok chosen
  /-- The one way to fail. -/
  fails_iff : ∀ a failure, filterTerms a ≠ [] → (c.select a = .error failure ↔
    failure = .emptySelection a ∧ ∀ s ∈ c.toList, matchesAny (filterTerms a) s = false)
  everything : ∀ a, filterTerms a = [] → c.select a = .ok c
  /-- Letter case and separators do not count. -/
  spelling : ∀ a b, SameFilter a b → c.selected a = c.selected b ∧
    (∀ chosen, c.select a = .ok chosen ↔ c.select b = .ok chosen) ∧
    c.markAdvisory a = c.markAdvisory b
  /-- Marking tells how many scenarios match, and does nothing but mark these. -/
  marking : ∀ a, (Edit.markAdvisory a).apply c =
      (.ok (c.toList.countP (matchesAny (filterTerms a))), c.markAdvisory a) ∧
    (c.markAdvisory a).places = c.places ∧
    (c.markAdvisory a).toList = c.toList.map fun s =>
      if matchesAny (filterTerms a) s then { s with expectation := .advisory } else s
  /-- Without terms nothing is marked. -/
  unmarked : ∀ a, filterTerms a = [] → (Edit.markAdvisory a).apply c = (.ok 0, c)
  /-- Marking again tells the same number and changes nothing. -/
  again : ∀ a, (Edit.markAdvisory a).apply (c.markAdvisory a) = (Edit.markAdvisory a).apply c
  /-- Marking comes to the same before and after selecting. -/
  commutes : ∀ a b, (c.markAdvisory a).select b = (c.select b).map (·.markAdvisory a)

theorem IsSound.union (h : c.IsSound) {a b : String} (ha : filterTerms a ≠ [])
    (hb : filterTerms b ≠ []) : (c.selected (a ++ "," ++ b)).Sublist c.toList ∧
      ∀ s, s ∈ c.selected (a ++ "," ++ b) ↔ s ∈ c.selected a ∨ s ∈ c.selected b := by
  have hboth : filterTerms (a ++ "," ++ b) ≠ [] := by
    rw [filterTerms_comma]
    exact List.append_ne_nil_of_left_ne_nil ha _
  refine ⟨h.selected_eq hboth ▸ List.filter_sublist, fun s => ?_⟩
  rw [h.mem_selected_iff, h.mem_selected_iff, h.mem_selected_iff, passes_eq ha, passes_eq hb,
    passes_eq hboth, filterTerms_comma, matchesAny, List.any_append, Bool.or_eq_true, and_or_left]
  rfl

theorem IsSound.intersection (h : c.IsSound) {a b : String}
    (hsome : ∃ s ∈ c.selected a, s ∈ c.selected b) : ∃ both,
      (c.select a >>= (·.select b)) = .ok both ∧ (c.select b >>= (·.select a)) = .ok both ∧
      both.toList.Sublist c.toList ∧
      ∀ s, s ∈ both.toList ↔ s ∈ c.selected a ∧ s ∈ c.selected b := by
  simp only [h.mem_selected_iff] at hsome ⊢
  obtain ⟨s, ⟨hs, ha⟩, -, hb⟩ := hsome
  obtain ⟨first, hfirst, hsound, hlist⟩ := h.exists_select hs ha
  have hmem : s ∈ first.toList := by
    rw [hlist]
    exact List.mem_filter.2 ⟨hs, ha⟩
  obtain ⟨both, hboth, -, hbothList⟩ := hsound.exists_select hmem hb
  have hthen : (c.select a >>= (·.select b)) = .ok both := bind_eq_ok_iff.2 ⟨first, hfirst, hboth⟩
  refine ⟨both, hthen, (h.select_comm a b).1 hthen, ?_, fun t => ?_⟩
  · rw [hbothList, hlist]
    exact List.filter_sublist.trans List.filter_sublist
  · rw [hbothList, hlist, List.mem_filter, List.mem_filter]
    tauto

theorem select_of_select {text : String} {chosen : Catalog} (h : c.select text = .ok chosen) :
    chosen.select text = .ok chosen := by
  by_cases hterms : filterTerms text = []
  · exact select_of_nil chosen hterms
  · obtain ⟨hpush, hne⟩ := (select_eq_ok_iff hterms).1 h
    have hlist : chosen.toList = c.toList.filter (matchesAny (filterTerms text)) :=
      (isSound_empty.pushAll hpush).2
    rw [select_eq_ok_iff hterms, hlist, List.filter_filter]
    simp only [Bool.and_self]
    exact ⟨hpush, hlist ▸ hne⟩

theorem IsSound.select_eq_error_iff (h : c.IsSound) {text : String} {failure : Failure}
    (hterms : filterTerms text ≠ []) : c.select text = .error failure ↔
      failure = .emptySelection text ∧
        ∀ s ∈ c.toList, matchesAny (filterTerms text) s = false := by
  have hoperation : ((Operation.select text).apply c).1 = .error failure ↔ _ :=
    Operation.apply_select_eq_error_iff h
  rw [Operation.apply, Operation.edit, Edit.apply_select] at hoperation
  have houtcome : (Edit.outcome c (c.select text)).1 = .error failure ↔
      c.select text = .error failure := by
    cases c.select text <;> simp [Edit.outcome]
  rw [← houtcome, hoperation]
  simp [hterms]

theorem IsSound.spelling (h : c.IsSound) {a b : String} (hab : SameFilter a b) :
    c.selected a = c.selected b ∧ (∀ chosen, c.select a = .ok chosen ↔ c.select b = .ok chosen) ∧
      c.markAdvisory a = c.markAdvisory b := by
  have hsame := hab.filterTerms_eq
  have hmark : c.markAdvisory a = c.markAdvisory b := by
    rw [Catalog.markAdvisory, Catalog.markAdvisory, hsame]
  by_cases hb : filterTerms b = []
  · have ha : filterTerms a = [] := hsame.trans hb
    refine ⟨?_, fun chosen => ?_, hmark⟩
    · rw [selected_of_ok (select_of_nil c ha), selected_of_ok (select_of_nil c hb)]
    · rw [select_of_nil c ha, select_of_nil c hb]
  · have ha : filterTerms a ≠ [] := hsame ▸ hb
    refine ⟨?_, fun chosen => ?_, hmark⟩
    · rw [h.selected_eq ha, h.selected_eq hb, hsame]
    · rw [select_eq_ok_iff ha, select_eq_ok_iff hb, hsame]

theorem apply_markAdvisory (c : Catalog) (text : String) : (Edit.markAdvisory text).apply c =
    (.ok (c.toList.countP (matchesAny (filterTerms text))), c.markAdvisory text) := rfl

theorem apply_markAdvisory_of_nil (c : Catalog) {text : String} (hterms : filterTerms text = []) :
    (Edit.markAdvisory text).apply c = (.ok 0, c) := by
  have hcount : c.toList.countP (matchesAny []) = 0 := by simp [matchesAny]
  rw [apply_markAdvisory, markAdvisory_of_nil c hterms, hterms, hcount]

theorem apply_markAdvisory_twice (c : Catalog) (text : String) :
    (Edit.markAdvisory text).apply (c.markAdvisory text) =
      (Edit.markAdvisory text).apply c := by
  have hcount := countMatching_markAdvisory c text
  rw [countMatching, countMatching] at hcount
  rw [apply_markAdvisory, apply_markAdvisory, hcount, markAdvisory_markAdvisory]

theorem IsSound.filterAlgebra (h : c.IsSound) : c.FilterAlgebra where
  selected_eq := fun _ => h.selected_eq
  union := fun _ _ => h.union
  intersection := fun _ _ => h.intersection
  idempotent := fun _ _ => select_of_select
  fails_iff := fun _ _ => h.select_eq_error_iff
  everything := fun _ => select_of_nil c
  spelling := fun _ _ => h.spelling
  marking := fun a => ⟨apply_markAdvisory c a, rfl, toList_markAdvisory c a⟩
  unmarked := fun _ => apply_markAdvisory_of_nil c
  again := apply_markAdvisory_twice c
  commutes := fun a b => select_mark c (some a) b

end Catalog

/-- The settings' filter can be applied before or after the marks. -/
theorem Settings.selection_eq_marked_first (settings : Settings) : settings.selection =
    (do ((← Catalog.standard settings.plan).mark settings.advisory).choose settings.filter) := by
  rw [selection_eq]
  cases Catalog.standard settings.plan with
  | error failure => rfl
  | ok c =>
    cases hfilter : settings.filter with
    | none => rfl
    | some text =>
      change (c.select text >>= fun chosen => pure (chosen.mark settings.advisory)) =
        (c.mark settings.advisory).select text
      rw [Catalog.select_mark]
      cases c.select text <;> rfl

/-- A term without a prefix matches what it matches with one of the prefixes. -/
theorem matchesAny_of_term {t : String} (ht : t ≠ "")
    (hterm : ∀ c ∈ t.toList, isListSeparator c = false)
    (hid : ¬"id:".toList <+: FilterTerm.lowercase t)
    (hfamily : ¬"family:".toList <+: FilterTerm.lowercase t) (s : Scenario) :
    matchesAny (filterTerms t) s = (matchesAny (filterTerms ("id:" ++ t)) s ||
      matchesAny (filterTerms ("family:" ++ t)) s) := by
  have hprefixed (start : String) (hstart : ∀ c ∈ start.toList, isListSeparator c = false) :
      filterTerms (start ++ t) = [FilterTerm.read (start ++ t)] := by
    refine filterTerms_of_term (by simp [ht]) fun c hc => ?_
    rw [String.toList_append] at hc
    exact (List.mem_append.1 hc).elim (hstart c) (hterm c)
  rw [filterTerms_of_term ht hterm, hprefixed "id:" (forall_of_any_eq_false (by decide)),
    hprefixed "family:" (forall_of_any_eq_false (by decide))]
  simp only [matchesAny, List.any_cons, List.any_nil, Bool.or_false]
  exact FilterTerm.isIn_read hid hfamily s

/-- **Filters are an algebra of sets, and marking commutes with it.** The laws hold of every catalog
that is built and changed by its operations. A filter has no terms if it is made of separators. A
scenario passes if a word of the filter occurs in its id or its family, and letter case counts for
nothing on either side. A term without a prefix matches what it matches with one of the prefixes.
The filter and the marks of settings can change places. -/
theorem filters_algebra :
    (∀ c : Catalog, c.IsSound → c.FilterAlgebra) ∧
    (∀ a, filterTerms a = [] ↔ ∀ c ∈ a.toList, isListSeparator c = true) ∧
    (∀ a s, matchesAny (filterTerms a) s = true ↔
      ∃ word ∈ words isListSeparator a.toList, IsMatch s word) ∧
    (∀ s t : Scenario, s.id.toList.map Char.toLower = t.id.toList.map Char.toLower →
      s.family = t.family → ∀ a, matchesAny (filterTerms a) s = matchesAny (filterTerms a) t) ∧
    (∀ t : String, t ≠ "" → (∀ c ∈ t.toList, isListSeparator c = false) →
      ¬"id:".toList <+: FilterTerm.lowercase t → ¬"family:".toList <+: FilterTerm.lowercase t →
      ∀ s, matchesAny (filterTerms t) s = (matchesAny (filterTerms ("id:" ++ t)) s ||
        matchesAny (filterTerms ("family:" ++ t)) s)) ∧
    ∀ settings : Settings, settings.selection =
      (do ((← Catalog.standard settings.plan).mark settings.advisory).choose settings.filter) :=
  ⟨fun _ => Catalog.IsSound.filterAlgebra, fun _ => filterTerms_eq_nil_iff, matchesAny_iff,
    fun _ _ hid hfamily _ => matchesAny_congr hid hfamily _, fun _ => matchesAny_of_term,
    Settings.selection_eq_marked_first⟩

/-- In the catalog of one scenario, a filter that names it and another one selects it, and one that
does not name it fails. With capital letters in its id it is still found. -/
theorem filters_algebra_sum : ∃ c : Catalog, c.IsSound ∧ c.toList = [sumScenario] ∧
    sumScenario ∈ c.selected ("vectorized" ++ "," ++ "id:SUM") ∧
    c.select "vectorized" = .error (.emptySelection "vectorized") ∧
    c.selected "sum2;" = c.selected "sum2" ∧
    matchesAny (filterTerms "sum") sumScenario =
      (matchesAny (filterTerms "id:sum") sumScenario ||
        matchesAny (filterTerms "family:sum") sumScenario) ∧
    matchesAny (filterTerms "sum") { sumScenario with id := "Arity/SUM2" } =
      matchesAny (filterTerms "sum") sumScenario := by
  have hsound : (Catalog.empty.append sumScenario).IsSound :=
    Catalog.isSound_empty.append sumScenario_isValid List.not_mem_nil
  have hlist : (Catalog.empty.append sumScenario).toList = [sumScenario] :=
    Catalog.toList_append .empty sumScenario
  obtain ⟨hlaws, -, -, hcase, hprefix, -⟩ := filters_algebra
  have hlaws := hlaws _ hsound
  have hsame : SameFilter "sum2;" "sum2" :=
    .symm _ _ (.rel _ _ (.separators (.trailing "sum2".toList (by decide))))
  have hmem : sumScenario ∈ (Catalog.empty.append sumScenario).toList := by
    rw [hlist]
    exact List.mem_cons_self
  refine ⟨_, hsound, hlist, ?_, ?_, (hlaws.spelling _ _ hsame).1,
    hprefix "sum" (by decide) (forall_of_any_eq_false (by decide)) (by decide) (by decide) _,
    hcase { sumScenario with id := "Arity/SUM2" } sumScenario (by decide) rfl "sum"⟩
  · exact ((hlaws.union "vectorized" "id:SUM" (by decide) (by decide)).2 sumScenario).2
      (.inr (hsound.mem_selected_iff.2 ⟨hmem, by decide⟩))
  · refine (hlaws.fails_iff "vectorized" _ (by decide)).2 ⟨rfl, ?_⟩
    rw [hlist, List.forall_mem_singleton]
    decide

end TierCheck
