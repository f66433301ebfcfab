import Mathlib.Data.List.Nodup
import TierCheck.Catalog.Standard
import TierCheck.Catalog.Store
import TierCheck.Proofs.Scenario.Validity

/-!
# What a catalog can be relied on for

A catalog that is built and changed by its operations alone has scenarios with different ids, all of
them fit to run, and its index says exactly where each id stands. An operation that fails leaves
the catalog as it was, although it works in place.

* `Catalog.IsSound`: the invariant.
* `Catalog.push_of_new` and the lemmas beside it: what adding a scenario does in each case.
* `Catalog.IsSound.push`, `IsSound.select`, `IsSound.markAdvisory`: what each operation keeps.
* `Edit.apply_push`, `Edit.apply_select`: an operation in place does what it does on a value.
* `Operation.runAll_isSound`: the invariant after any operations.
-/
namespace TierCheck

namespace Catalog

def ids (c : Catalog) : List String := c.toList.map (·.id)

/-- Different ids, scenarios that are fit to run, and an index that has exactly their places. -/
structure IsSound (c : Catalog) : Prop where
  distinct : c.ids.Nodup
  valid : ∀ s ∈ c.toList, s.IsValid
  indexed : ∀ (id : String) (place : Nat), c.places[id]? = some place ↔ c.ids[place]? = some id

theorem isSound_empty : empty.IsSound where
  distinct := List.nodup_nil
  valid := fun s hmem => by cases hmem
  indexed := fun id place => by simp [empty, ids, toList]

variable {c : Catalog} {s : Scenario}

/-- An id is in the index if a scenario has it. -/
theorem IsSound.mem_places_iff (h : c.IsSound) {id : String} : id ∈ c.places ↔ id ∈ c.ids := by
  rw [List.mem_iff_getElem?]
  constructor
  · intro hmem
    obtain ⟨place, hplace⟩ :=
      Option.isSome_iff_exists.1 (Std.HashMap.isSome_getElem?_iff_mem.2 hmem)
    exact ⟨place, (h.indexed id place).1 hplace⟩
  · rintro ⟨place, hplace⟩
    rw [← Std.HashMap.isSome_getElem?_iff_mem, (h.indexed id place).2 hplace]
    rfl

/-- A scenario is found by its id, and nothing else is. -/
theorem IsSound.get?_eq_some_iff (h : c.IsSound) {id : String} :
    c.get? id = some s ↔ s ∈ c.toList ∧ s.id = id := by
  unfold get?
  rw [Option.bind_eq_some_iff]
  constructor
  · rintro ⟨place, hplace, hs⟩
    have hid := (h.indexed id place).1 hplace
    rw [← Array.getElem?_toList] at hs
    rw [ids, List.getElem?_map, toList, hs] at hid
    exact ⟨List.mem_of_getElem? hs, Option.some.inj hid⟩
  · rintro ⟨hmem, rfl⟩
    obtain ⟨place, hs⟩ := List.mem_iff_getElem?.1 hmem
    refine ⟨place, (h.indexed s.id place).2 ?_, ?_⟩
    · rw [ids, List.getElem?_map, hs]
      rfl
    · rw [← Array.getElem?_toList]
      exact hs

/-! ## Adding a scenario -/

/-- The catalog with a scenario behind the others. -/
def append (c : Catalog) (s : Scenario) : Catalog :=
  ⟨c.scenarios.push s, c.places.insert s.id c.scenarios.size⟩

theorem toList_append (c : Catalog) (s : Scenario) : (c.append s).toList = c.toList ++ [s] := by
  simp [append, toList]

theorem ids_append (c : Catalog) (s : Scenario) : (c.append s).ids = c.ids ++ [s.id] := by
  simp [ids, toList_append]

theorem push_of_fault {fault : ScenarioFault} (h : s.fault? = some fault) (c : Catalog) :
    c.push s = .error (.invalidScenario s.id fault) := by
  have hcheck : s.check = .error (.invalidScenario s.id fault) := by rw [Scenario.check, h]
  rw [push, hcheck]
  rfl

theorem push_of_mem (hs : s.IsValid) (h : s.id ∈ c.places) :
    c.push s = .error (.duplicateScenario s.id) := by
  rw [push, s.check_eq_ok_iff.2 hs]
  simp only [h, if_true]
  rfl

theorem push_of_new (hs : s.IsValid) (h : s.id ∉ c.places) : c.push s = .ok (c.append s) := by
  rw [push, s.check_eq_ok_iff.2 hs]
  simp only [h, if_false]
  rfl

/-- What adding a scenario comes to. -/
theorem push_cases (c : Catalog) (s : Scenario) :
    (∃ fault, s.fault? = some fault ∧ c.push s = .error (.invalidScenario s.id fault)) ∨
    (s.IsValid ∧ s.id ∈ c.places ∧ c.push s = .error (.duplicateScenario s.id)) ∨
    (s.IsValid ∧ s.id ∉ c.places ∧ c.push s = .ok (c.append s)) := by
  cases hfault : s.fault? with
  | some fault => exact .inl ⟨fault, rfl, push_of_fault hfault c⟩
  | none =>
    by_cases hplace : s.id ∈ c.places
    · exact .inr (.inl ⟨hfault, hplace, push_of_mem hfault hplace⟩)
    · exact .inr (.inr ⟨hfault, hplace, push_of_new hfault hplace⟩)

/-- A scenario is added if it is fit to run and its id is new. -/
theorem IsSound.push_eq_ok_iff (h : c.IsSound) {c' : Catalog} :
    c.push s = .ok c' ↔ (s.IsValid ∧ s.id ∉ c.ids) ∧ c' = c.append s := by
  rw [← h.mem_places_iff]
  rcases push_cases c s with ⟨fault, hfault, hpush⟩ | ⟨hs, hplace, hpush⟩ | ⟨hs, hplace, hpush⟩
  · simp [hpush, Scenario.IsValid, hfault]
  · simp [hpush, hplace]
  · simp [hpush, hs, hplace, eq_comm]

theorem IsSound.append (h : c.IsSound) (hs : s.IsValid) (hnew : s.id ∉ c.ids) :
    (c.append s).IsSound where
  distinct := by
    rw [ids_append, List.nodup_append]
    refine ⟨h.distinct, List.nodup_singleton _, fun id hid other hother => ?_⟩
    rw [List.mem_singleton.1 hother]
    exact fun heq => hnew (heq ▸ hid)
  valid := by
    intro t ht
    rw [toList_append] at ht
    rcases List.mem_append.1 ht with ht | ht
    · exact h.valid t ht
    · rw [List.mem_singleton.1 ht]
      exact hs
  indexed := by
    intro id place
    have hsize : c.scenarios.size = c.ids.length := by simp [ids, toList]
    have hplaces : (c.append s).places[id]? =
        if s.id == id then some c.ids.length else c.places[id]? := by
      rw [Catalog.append, hsize, Std.HashMap.getElem?_insert]
    rw [ids_append, hplaces]
    by_cases hid : s.id = id
    · subst hid
      rw [if_pos (beq_self_eq_true _), Option.some_inj]
      constructor
      · rintro rfl
        exact List.getElem?_concat_length
      · intro hplace
        rcases Nat.lt_trichotomy place c.ids.length with hlt | heq | hgt
        · rw [List.getElem?_append_left hlt] at hplace
          exact absurd (List.mem_of_getElem? hplace) hnew
        · exact heq.symm
        · rw [List.getElem?_eq_none (by rw [List.length_append, List.length_singleton]; omega)]
            at hplace
          cases hplace
    · rw [if_neg (by simpa using hid), h.indexed]
      rcases Nat.lt_trichotomy place c.ids.length with hlt | heq | hgt
      · rw [List.getElem?_append_left hlt]
      · subst heq
        simp [hid]
      · rw [List.getElem?_eq_none (by omega),
          List.getElem?_eq_none (by rw [List.length_append, List.length_singleton]; omega)]

theorem IsSound.push (h : c.IsSound) {c' : Catalog} (hpush : c.push s = .ok c') : c'.IsSound := by
  obtain ⟨⟨hs, hnew⟩, rfl⟩ := h.push_eq_ok_iff.1 hpush
  exact h.append hs hnew

/-! ## Adding several scenarios -/

theorem pushAll_cons (c : Catalog) (s : Scenario) (l : List Scenario) :
    c.pushAll (s :: l) = (do (← c.push s).pushAll l) := rfl

/-- Scenarios that are all added stand behind the others. -/
theorem IsSound.pushAll (h : c.IsSound) {l : List Scenario} {c' : Catalog}
    (hpush : c.pushAll l = .ok c') : c'.IsSound ∧ c'.toList = c.toList ++ l := by
  induction l generalizing c with
  | nil =>
    obtain rfl := Except.ok.inj hpush
    exact ⟨h, (List.append_nil _).symm⟩
  | cons s l ih =>
    rw [pushAll_cons] at hpush
    rcases push_cases c s with ⟨_, _, hs⟩ | ⟨_, _, hs⟩ | ⟨hvalid, hplace, hs⟩
    · rw [hs] at hpush
      cases hpush
    · rw [hs] at hpush
      cases hpush
    · rw [hs] at hpush
      obtain ⟨hsound, hlist⟩ := ih (h.push hs) hpush
      refine ⟨hsound, ?_⟩
      rw [hlist, toList_append, List.append_assoc, List.singleton_append]

/-- Scenarios that are fit to run and have new and different ids are all added. -/
theorem IsSound.exists_pushAll (h : c.IsSound) {l : List Scenario} (hvalid : ∀ s ∈ l, s.IsValid)
    (hnew : (c.ids ++ l.map (·.id)).Nodup) : ∃ c', c.pushAll l = .ok c' := by
  induction l generalizing c with
  | nil => exact ⟨c, rfl⟩
  | cons s l ih =>
    have hs := hvalid s List.mem_cons_self
    have hid : s.id ∉ c.ids := by
      intro hmem
      exact (List.nodup_append.1 hnew).2.2 s.id hmem s.id List.mem_cons_self rfl
    have hpush : c.push s = .ok (c.append s) := h.push_eq_ok_iff.2 ⟨⟨hs, hid⟩, rfl⟩
    obtain ⟨c', hc'⟩ := ih (h.push hpush) (fun t ht => hvalid t (List.mem_cons_of_mem _ ht))
      (by rw [ids_append, List.append_assoc]; exact hnew)
    refine ⟨c', ?_⟩
    rw [pushAll_cons, hpush]
    exact hc'

/-! ## The other operations -/

/-- The scenarios of a catalog that pass a filter can always be put in a catalog of their own. -/
theorem IsSound.exists_chosen (h : c.IsSound) (filter : List FilterTerm) :
    ∃ c', empty.pushAll (c.toList.filter (matchesAny filter)) = .ok c' := by
  have hsublist : (c.toList.filter (matchesAny filter)).Sublist c.toList := List.filter_sublist
  have hdistinct : ((c.toList.filter (matchesAny filter)).map (·.id)).Nodup :=
    h.distinct.sublist (hsublist.map _)
  exact isSound_empty.exists_pushAll (fun s hs => h.valid s (hsublist.subset hs)) hdistinct

/-- What selecting comes to: all scenarios without a term, and otherwise those that pass, unless
there are none. -/
theorem IsSound.select_cases (h : c.IsSound) (text : String) :
    (filterTerms text = [] ∧ c.select text = .ok c) ∨
    (filterTerms text ≠ [] ∧ c.toList.filter (matchesAny (filterTerms text)) = [] ∧
      c.select text = .error (.emptySelection text)) ∨
    (filterTerms text ≠ [] ∧ ∃ c', c.select text = .ok c' ∧ c'.IsSound ∧
      c'.toList = c.toList.filter (matchesAny (filterTerms text)) ∧ c'.toList ≠ []) := by
  obtain ⟨chosen, hchosen⟩ := h.exists_chosen (filterTerms text)
  obtain ⟨hsound, hlist⟩ := isSound_empty.pushAll hchosen
  have hempty : chosen.size = 0 ↔ chosen.toList = [] := by simp [size, toList]
  unfold select
  by_cases hterms : filterTerms text = []
  · exact .inl ⟨hterms, by rw [if_pos hterms]; rfl⟩
  · rw [if_neg hterms]
    by_cases hsize : chosen.size = 0
    · refine .inr (.inl ⟨hterms, ?_, ?_⟩)
      · rw [← hempty.1 hsize, hlist]
        rfl
      · rw [hchosen]
        exact (if_pos hsize).trans rfl
    · refine .inr (.inr ⟨hterms, chosen, ?_, hsound, hlist, fun hnil => hsize (hempty.2 hnil)⟩)
      rw [hchosen]
      exact (if_neg hsize).trans rfl

theorem IsSound.select (h : c.IsSound) {text : String} {c' : Catalog}
    (hselect : c.select text = .ok c') : c'.IsSound := by
  rcases h.select_cases text with ⟨_, hs⟩ | ⟨_, _, hs⟩ | ⟨_, chosen, hs, hsound, _⟩ <;>
    rw [hs] at hselect <;> cases hselect
  · exact h
  · exact hsound

theorem toList_markAdvisory (c : Catalog) (text : String) :
    (c.markAdvisory text).toList = c.toList.map fun s =>
      if matchesAny (filterTerms text) s then s.markAdvisory else s := by
  simp [markAdvisory, toList]

/-- Marking changes neither the ids nor the fitness of the scenarios. -/
theorem IsSound.markAdvisory (h : c.IsSound) (text : String) : (c.markAdvisory text).IsSound := by
  have hids : (c.markAdvisory text).ids = c.ids := by
    rw [ids, toList_markAdvisory, ids, List.map_map]
    refine List.map_congr_left fun s _ => ?_
    rw [Function.comp_apply]
    split <;> rfl
  refine ⟨hids ▸ h.distinct, fun s hs => ?_, fun id place => ?_⟩
  · rw [toList_markAdvisory] at hs
    obtain ⟨t, ht, rfl⟩ := List.mem_map.1 hs
    have hvalid := h.valid t ht
    split
    · exact hvalid
    · exact hvalid
  · rw [hids]
    exact h.indexed id place

/-- The standard catalog of a plan is sound and holds the scenarios of the plan. -/
theorem standard_eq_ok {plan : Plan} (hc : standard plan = .ok c) :
    c.IsSound ∧ plan.scenarios = .ok c.toList := by
  unfold standard at hc
  cases hscenarios : plan.scenarios with
  | error e =>
    rw [hscenarios] at hc
    cases hc
  | ok l =>
    rw [hscenarios] at hc
    obtain ⟨hsound, hlist⟩ := isSound_empty.pushAll hc
    refine ⟨hsound, ?_⟩
    rw [hlist]
    rfl

end Catalog

/-! ## Operations in place -/

namespace Edit

/-- An operation on a value, as one in place: it changes the catalog if it succeeds. -/
def outcome (c : Catalog) : Except Failure Catalog → Except Failure Unit × Catalog
  | .ok c' => (.ok (), c')
  | .error failure => (.error failure, c)

/-- Adding a scenario changes nothing before it is sure to succeed. -/
theorem apply_push (s : Scenario) (c : Catalog) :
    (Edit.push s).apply c = outcome c (c.push s) := by
  unfold Edit.apply Edit.push Catalog.push
  cases s.check with
  | error e => rfl
  | ok _ =>
    change (ite (s.id ∈ c.places) _ _ : Edit Unit) c =
      outcome c (ite (s.id ∈ c.places) _ _)
    by_cases hplace : s.id ∈ c.places
    · rw [if_pos hplace, if_pos hplace]
      rfl
    · rw [if_neg hplace, if_neg hplace]
      rfl

theorem apply_select (text : String) (c : Catalog) :
    (Edit.select text).apply c = outcome c (c.select text) := by
  change ((liftExcept (c.select text) : Edit Catalog) >>= set).apply c = _
  cases c.select text <;> rfl

end Edit

namespace Operation

open Catalog Edit

variable {c : Catalog}

/-- An operation that fails leaves the catalog as it was. -/
theorem apply_error {operation : Operation} {failure : Failure}
    (h : (operation.apply c).1 = .error failure) : (operation.apply c).2 = c := by
  have houtcome : ∀ result, (outcome c result).1 = .error failure → (outcome c result).2 = c := by
    intro result hresult
    cases result with
    | error e => rfl
    | ok c' => cases hresult
  cases operation with
  | push s =>
    rw [apply, edit, apply_push] at h ⊢
    exact houtcome _ h
  | select text =>
    rw [apply, edit, apply_select] at h ⊢
    exact houtcome _ h
  | markAdvisory text => cases h

/-- Each operation keeps the invariant, whether or not it succeeds. -/
theorem apply_isSound (operation : Operation) (h : c.IsSound) : (operation.apply c).2.IsSound := by
  cases operation with
  | push s =>
    rw [apply, edit, apply_push]
    cases hpush : c.push s with
    | error e => exact h
    | ok c' => exact h.push hpush
  | select text =>
    rw [apply, edit, apply_select]
    cases hselect : c.select text with
    | error e => exact h
    | ok c' => exact h.select hselect
  | markAdvisory text => exact h.markAdvisory text

theorem runAll_isSound (operations : List Operation) (h : c.IsSound) :
    (runAll operations c).IsSound := by
  induction operations generalizing c with
  | nil => exact h
  | cons operation operations ih => exact ih (operation.apply_isSound h)

/-- Adding a scenario succeeds if it is fit to run and its id is new. -/
theorem apply_push_eq_ok_iff (h : c.IsSound) (s : Scenario) :
    ((push s).apply c).1 = .ok () ↔ s.IsValid ∧ s.id ∉ c.ids := by
  rw [apply, edit, apply_push, ← h.mem_places_iff]
  rcases push_cases c s with ⟨fault, hfault, hpush⟩ | ⟨hs, hplace, hpush⟩ | ⟨hs, hplace, hpush⟩
  · simp [hpush, outcome, Scenario.IsValid, hfault]
  · simp [hpush, outcome, hplace]
  · simp [hpush, outcome, hs, hplace]

/-- A scenario that is added stands behind the others. -/
theorem toList_apply_push (h : c.IsSound) {s : Scenario} (hok : ((push s).apply c).1 = .ok ()) :
    ((push s).apply c).2.toList = c.toList ++ [s] := by
  have hpush : c.push s = .ok (c.append s) :=
    h.push_eq_ok_iff.2 ⟨(apply_push_eq_ok_iff h s).1 hok, rfl⟩
  rw [apply, edit, apply_push, hpush]
  exact toList_append c s

/-- Selecting fails only if there are terms and no scenario passes them. -/
theorem apply_select_eq_error_iff (h : c.IsSound) {text : String} {failure : Failure} :
    ((select text).apply c).1 = .error failure ↔
      failure = .emptySelection text ∧ filterTerms text ≠ [] ∧
        ∀ s ∈ c.toList, matchesAny (filterTerms text) s = false := by
  have hnone : c.toList.filter (matchesAny (filterTerms text)) = [] ↔
      ∀ s ∈ c.toList, matchesAny (filterTerms text) s = false := by
    rw [List.filter_eq_nil_iff]
    simp only [Bool.not_eq_true]
  rw [apply, edit, apply_select, ← hnone]
  rcases h.select_cases text with ⟨hterms, hs⟩ | ⟨hterms, hfilter, hs⟩ |
    ⟨hterms, chosen, hs, _, hlist, hsome⟩
  · simp [hs, outcome, hterms]
  · simp [hs, outcome, hterms, hfilter, eq_comm]
  · simp [hs, outcome, ← hlist, hsome]

/-- **What holds of a catalog at any time.** After any operations on the empty or a standard
catalog, those that fail included, the ids are different, the scenarios are fit to run, and the
index has exactly their places, so that a scenario is found by its id and nothing else is. A
scenario is added at the end if it is fit to run and its id is new, and only then. Selecting fails
only for want of scenarios that pass, and an operation that fails leaves the catalog as it was. -/
theorem runAll_keeps {start : Catalog}
    (hstart : start = .empty ∨ ∃ plan, Catalog.standard plan = .ok start)
    (operations : List Operation) :
    (runAll operations start).IsSound ∧
    (∀ id s, (runAll operations start).get? id = some s ↔
      s ∈ (runAll operations start).toList ∧ s.id = id) ∧
    (∀ s, ((push s).apply (runAll operations start)).1 = .ok () ↔
      s.IsValid ∧ s.id ∉ (runAll operations start).ids) ∧
    (∀ s, ((push s).apply (runAll operations start)).1 = .ok () →
      ((push s).apply (runAll operations start)).2.toList =
        (runAll operations start).toList ++ [s]) ∧
    (∀ (operation : Operation) failure,
      (operation.apply (runAll operations start)).1 = .error failure →
      (operation.apply (runAll operations start)).2 = runAll operations start) ∧
    (∀ text failure, ((select text).apply (runAll operations start)).1 = .error failure ↔
      failure = .emptySelection text ∧ filterTerms text ≠ [] ∧
        ∀ s ∈ (runAll operations start).toList, matchesAny (filterTerms text) s = false) := by
  have hsound : start.IsSound := by
    rcases hstart with rfl | ⟨plan, hplan⟩
    · exact isSound_empty
    · exact (standard_eq_ok hplan).1
  have h := runAll_isSound operations hsound
  exact ⟨h, fun _ _ => h.get?_eq_some_iff, apply_push_eq_ok_iff h, fun _ => toList_apply_push h,
    fun _ _ => apply_error, fun _ _ => apply_select_eq_error_iff h⟩

/-- A scenario is found after it was added, and cannot be added a second time. -/
theorem runAll_keeps_twice :
    (runAll [push sumScenario] .empty).IsSound ∧
    (runAll [push sumScenario] .empty).get? "arity/sum2" = some sumScenario ∧
    ((push sumScenario).apply (runAll [push sumScenario] .empty)).1 ≠ .ok () := by
  obtain ⟨_, _, hpush, hlist, _, _⟩ := runAll_keeps (.inl rfl) []
  obtain ⟨hsound, hget, hagain, _, _, _⟩ := runAll_keeps (.inl rfl) [push sumScenario]
  have hfirst := hlist sumScenario ((hpush sumScenario).2 ⟨sumScenario_isValid, List.not_mem_nil⟩)
  have hmem : sumScenario ∈ (runAll [push sumScenario] .empty).toList := by
    change sumScenario ∈ ((push sumScenario).apply .empty).2.toList
    exact hfirst ▸ List.mem_append_right _ List.mem_cons_self
  refine ⟨hsound, (hget _ _).2 ⟨hmem, rfl⟩, fun hok => ?_⟩
  exact ((hagain sumScenario).1 hok).2 (List.mem_map_of_mem hmem)

end Operation

end TierCheck
