import TierCheck.Proofs.Catalog.Standard
import TierCheck.Proofs.Text.Cutting
import TierCheck.Settings

/-!
# What settings select

A selection is what passes the filter of the standard catalog, some of it marked. Whether a scenario
passes depends on its id and its family alone, and these do not depend on the schedule. So plans
that differ in the schedule alone select the same ids, unless there is no catalog for one of them.

* `Settings.toList_of_selection`: the selection as a list.
* `Settings.ids_of_selection`: the same ids for another schedule.
* `Settings.selection_eq_error`: the failures of a selection.
* `Settings.isOneLine_of_selection`: what is listed of a scenario stands on one line.
-/
namespace TierCheck

/-! ## Descriptions -/

theorem isOneLine_constructorName (e : Element) : IsOneLine e.constructorName := by
  cases e <;> exact isOneLine_of_eq_ofList rfl (by decide)

namespace Plan

variable {plan : Plan} {d : Draft}

/-! A description is made of numbers, names and words, each of them on one line. -/

theorem isOneLine_of_mem_callDrafts (h : d ∈ plan.callDrafts) : IsOneLine d.description := by
  have hnumber := isOneLine_naturalText
  obtain ⟨n, -, h⟩ := List.mem_flatMap.1 h
  simp only [List.mem_cons, List.not_mem_nil, or_false] at h
  rcases h with rfl | rfl | rfl | rfl | rfl
  · have hwords : IsOneLine " integer arguments summed; 1..=" :=
      isOneLine_of_eq_ofList rfl (by decide)
    exact isOneLine_append (isOneLine_append (hnumber n) hwords) (hnumber n)
  · have hfirst : IsOneLine " distinct integer arguments; slots " :=
      isOneLine_of_eq_ofList rfl (by decide)
    have hdots : IsOneLine "..=" := isOneLine_of_eq_ofList rfl (by decide)
    have hlast : IsOneLine " echoed in order, then a weighted checksum of all" :=
      isOneLine_of_eq_ofList rfl (by decide)
    have hslots := isOneLine_append (isOneLine_append (hnumber n) hfirst) (hnumber (n - echoed + 1))
    exact isOneLine_append (isOneLine_append (isOneLine_append hslots hdots) (hnumber n)) hlast
  · exact isOneLine_append (hnumber n) (isOneLine_of_eq_ofList rfl (by decide))
  · exact isOneLine_append (hnumber (n - 1)) (isOneLine_of_eq_ofList rfl (by decide))
  · have hwords : IsOneLine "JIT-to-JIT call forwarding " :=
      isOneLine_of_eq_ofList rfl (by decide)
    have hend : IsOneLine " arguments" := isOneLine_of_eq_ofList rfl (by decide)
    exact isOneLine_append (isOneLine_append hwords (hnumber n)) hend

theorem isOneLine_typeList {warm : Element} {others : List Element}
    (h : (warm, others) ∈ rotations) : IsOneLine (typeList others) := by
  have hname := isOneLine_constructorName
  have hcomma : IsOneLine ", " := isOneLine_of_eq_ofList rfl (by decide)
  have hand : IsOneLine " and " := isOneLine_of_eq_ofList rfl (by decide)
  obtain ⟨a, b, c, rfl, -⟩ := exists_three_of_mem_rotations h
  exact isOneLine_append (isOneLine_append (hname a) hcomma)
    (isOneLine_append (isOneLine_append (hname b) hand) (hname c))

theorem isOneLine_of_mem_retypingDrafts (h : d ∈ plan.retypingDrafts) :
    IsOneLine d.description := by
  obtain ⟨access, -, h⟩ := List.mem_flatMap.1 h
  obtain ⟨⟨warm, others⟩, hrotation, rfl⟩ := List.mem_map.1 h
  have haccess : IsOneLine access.function := by
    cases access <;> exact isOneLine_of_eq_ofList rfl (by decide)
  have hwarmed : IsOneLine " warmed on " := isOneLine_of_eq_ofList rfl (by decide)
  have hcalled : IsOneLine ", then called once each with " :=
    isOneLine_of_eq_ofList rfl (by decide)
  have hwarm := isOneLine_append (isOneLine_append haccess hwarmed) (isOneLine_constructorName warm)
  exact isOneLine_append (isOneLine_append hwarm hcalled) (isOneLine_typeList hrotation)

theorem isOneLine_of_mem_unwindingList (h : d ∈ plan.unwindingList) :
    IsOneLine d.description := by
  simp only [unwindingList, List.mem_cons, List.not_mem_nil, or_false] at h
  -- some of the descriptions are written in two parts
  rcases h with rfl | rfl | rfl | rfl | rfl | rfl | rfl | rfl <;>
    first
    | exact isOneLine_of_eq_ofList rfl (by decide)
    | exact isOneLine_append (isOneLine_of_eq_ofList rfl (by decide))
        (isOneLine_of_eq_ofList rfl (by decide))

theorem isOneLine_of_mem_vectorDrafts (h : d ∈ plan.vectorDrafts) : IsOneLine d.description := by
  have hnumber := isOneLine_naturalText
  obtain ⟨op, -, h⟩ := List.mem_flatMap.1 h
  obtain ⟨e, -, h⟩ := List.mem_flatMap.1 h
  obtain ⟨n, -, rfl⟩ := List.mem_map.1 h
  have hop : IsOneLine op.name := by
    cases op <;> exact isOneLine_of_eq_ofList rfl (by decide)
  have hon : IsOneLine " on a " := isOneLine_of_eq_ofList rfl (by decide)
  have helement : IsOneLine "-element " := isOneLine_of_eq_ofList rfl (by decide)
  have hopen : IsOneLine " (" := isOneLine_of_eq_ofList rfl (by decide)
  have hlanes : IsOneLine " lanes per chunk)" := isOneLine_of_eq_ofList rfl (by decide)
  have hlength := isOneLine_append (isOneLine_append hop hon) (hnumber n)
  have harray := isOneLine_append (isOneLine_append hlength helement) (isOneLine_constructorName e)
  exact isOneLine_append
    (isOneLine_append (isOneLine_append harray hopen) (hnumber (e.lanes plan.chunkBytes))) hlanes

theorem isOneLine_of_mem_drafts (h : d ∈ plan.drafts) : IsOneLine d.description := by
  rw [drafts, List.mem_append, List.mem_append, List.mem_append] at h
  rcases h with ((h | h) | h) | h
  · exact isOneLine_of_mem_callDrafts h
  · exact isOneLine_of_mem_retypingDrafts h
  · exact isOneLine_of_mem_unwindingList h
  · exact isOneLine_of_mem_vectorDrafts h

end Plan

/-! ## Failures -/

/-- The failures of a catalog and of a filter. -/
inductive Failure.IsOfSelection : Failure → Prop where
  | invalidScenario (id : String) (fault : ScenarioFault) :
    IsOfSelection (.invalidScenario id fault)
  | duplicateScenario (id : String) : IsOfSelection (.duplicateScenario id)
  | invalidSetting (fault : SettingFault) : IsOfSelection (.invalidSetting fault)
  | emptySelection (filter : String) : IsOfSelection (.emptySelection filter)

theorem Draft.build_eq_error {d : Draft} {failure : Failure} (h : d.build = .error failure) :
    failure.IsOfSelection := by
  unfold build at h
  cases hreference : d.reference? with
  | none =>
    rw [hreference] at h
    cases h
    exact .invalidScenario _ _
  | some reference =>
    rw [hreference] at h
    rcases bind_eq_error_iff.1 h with h | ⟨_, -, h⟩
    · unfold Scenario.check at h
      cases hfault : (d.toScenario reference).fault? <;> rw [hfault] at h <;> cases h
      exact .invalidScenario _ _
    · cases h

theorem Plan.scenarios_eq_error {plan : Plan} {failure : Failure}
    (h : plan.scenarios = .error failure) : failure.IsOfSelection := by
  have hbuild {drafts : List Draft} (h : drafts.mapM Draft.build = .error failure) :
      failure.IsOfSelection := by
    obtain ⟨d, -, hd⟩ := exists_of_mapM_eq_error h
    exact Draft.build_eq_error hd
  unfold scenarios at h
  simp only [bind_eq_error_iff] at h
  obtain h | ⟨_, -, h | ⟨_, -, h | ⟨_, -, h | ⟨_, -, h⟩⟩⟩⟩ := h
  · exact hbuild h
  · exact hbuild h
  · obtain ⟨draft, -, hdraft⟩ := exists_of_mapM_eq_error h
    cases draft with
    | error fault =>
      cases hdraft
      exact .invalidSetting _
    | ok d => exact Draft.build_eq_error hdraft
  · exact hbuild h
  · cases h

namespace Catalog

theorem pushAll_eq_error {c : Catalog} {l : List Scenario} {failure : Failure}
    (h : c.pushAll l = .error failure) : failure.IsOfSelection := by
  induction l generalizing c with
  | nil => cases h
  | cons s l ih =>
    rw [pushAll_cons] at h
    rcases push_cases c s with ⟨fault, _, hs⟩ | ⟨_, _, hs⟩ | ⟨_, _, hs⟩ <;> rw [hs] at h
    · cases h
      exact .invalidScenario _ _
    · cases h
      exact .duplicateScenario _
    · exact ih h

theorem standard_eq_error {plan : Plan} {failure : Failure} (h : standard plan = .error failure) :
    failure.IsOfSelection := by
  rcases bind_eq_error_iff.1 h with h | ⟨_, -, h⟩
  · exact Plan.scenarios_eq_error h
  · exact pushAll_eq_error h

end Catalog

/-! ## The two filters -/

/-- Whether a scenario passes a filter that may be missing. -/
def passes (filter : Option String) (s : Scenario) : Bool :=
  filter.all fun text => filterTerms text = [] || matchesAny (filterTerms text) s

/-- A scenario, marked if a filter that may be missing says so. -/
def marked (filter : Option String) (s : Scenario) : Scenario :=
  if filter.any fun text => matchesAny (filterTerms text) s then s.markAdvisory else s

namespace Catalog

variable {c chosen : Catalog}

/-- The catalog of the scenarios that pass a filter that may be missing. -/
def choose (c : Catalog) : Option String → Except Failure Catalog
  | some text => c.select text
  | none => .ok c

/-- The catalog with the scenarios marked that pass a filter that may be missing. -/
def mark (c : Catalog) : Option String → Catalog
  | some text => c.markAdvisory text
  | none => c

theorem IsSound.choose_eq_ok (h : c.IsSound) {filter : Option String}
    (hchoose : c.choose filter = .ok chosen) :
    chosen.IsSound ∧ chosen.toList = c.toList.filter (passes filter) := by
  cases filter with
  | none =>
    cases hchoose
    exact ⟨h, (List.filter_eq_self.2 fun _ _ => rfl).symm⟩
  | some text =>
    refine ⟨h.select hchoose, ?_⟩
    rw [choose] at hchoose
    rcases h.select_cases text with
      ⟨hterms, hselect⟩ | ⟨_, _, hselect⟩ | ⟨hterms, _, hselect, _, hlist, _⟩ <;>
      rw [hselect] at hchoose <;> cases hchoose
    · exact (List.filter_eq_self.2 fun _ _ => by simp [passes, hterms]).symm
    · rw [hlist]
      exact List.filter_congr fun _ _ => by simp [passes, hterms]

theorem IsSound.choose_eq_error (h : c.IsSound) {filter : Option String} {failure : Failure}
    (hchoose : c.choose filter = .error failure) : failure.IsOfSelection := by
  cases filter with
  | none => cases hchoose
  | some text =>
    rw [choose] at hchoose
    rcases h.select_cases text with ⟨_, hselect⟩ | ⟨_, _, hselect⟩ | ⟨_, _, hselect, _⟩ <;>
      rw [hselect] at hchoose <;> cases hchoose
    exact .emptySelection text

theorem IsSound.mark (h : c.IsSound) (filter : Option String) : (c.mark filter).IsSound := by
  cases filter with
  | none => exact h
  | some text => exact h.markAdvisory text

theorem toList_mark (c : Catalog) (filter : Option String) :
    (c.mark filter).toList = c.toList.map (marked filter) := by
  cases filter with
  | none => exact (List.map_id _).symm
  | some text =>
    rw [mark, toList_markAdvisory]
    exact List.map_congr_left fun _ _ => by simp [marked]

end Catalog

namespace Settings

variable {s s' : Settings} {c c' : Catalog}

theorem selection_eq (s : Settings) : s.selection =
    (do return (← (← Catalog.standard s.plan).choose s.filter).mark s.advisory) := by
  unfold selection
  cases s.filter <;> cases s.advisory <;> rfl

theorem selection_eq_error {failure : Failure} (h : s.selection = .error failure) :
    failure.IsOfSelection := by
  rw [selection_eq] at h
  rcases bind_eq_error_iff.1 h with h | ⟨all, hall, h⟩
  · exact Catalog.standard_eq_error h
  · rcases bind_eq_error_iff.1 h with h | ⟨_, -, h⟩
    · exact (Catalog.standard_eq_ok hall).1.choose_eq_error h
    · cases h

/-- The selection is what passes the filter of the standard catalog, some of it marked. -/
theorem toList_of_selection (h : s.selection = .ok c) :
    c.IsSound ∧ ∃ all, Catalog.standard s.plan = .ok all ∧
      c.toList = (all.toList.filter (passes s.filter)).map (marked s.advisory) := by
  rw [selection_eq] at h
  obtain ⟨all, hall, h⟩ := bind_eq_ok_iff.1 h
  obtain ⟨chosen, hchosen, ⟨⟩⟩ := bind_eq_ok_iff.1 h
  obtain ⟨hsound, hlist⟩ := (Catalog.standard_eq_ok hall).1.choose_eq_ok hchosen
  exact ⟨hsound.mark _, all, hall, by rw [Catalog.toList_mark, hlist]⟩

/-- A scenario passes by its id and its family. -/
theorem passes_congr {t t' : Scenario} (h : (t.id, t.family) = (t'.id, t'.family))
    (filter : Option String) : passes filter t = passes filter t' := by
  obtain ⟨hid, hfamily⟩ := Prod.mk.inj h
  have hterm : ∀ term : FilterTerm, term.isIn t = term.isIn t' := by
    intro term
    simp [FilterTerm.isIn, hid, hfamily]
  simp [passes, matchesAny, hterm]

theorem ids_map_marked (filter : Option String) (l : List Scenario) :
    (l.map (marked filter)).map (·.id) = l.map (·.id) := by
  rw [List.map_map]
  refine List.map_congr_left fun t _ => ?_
  rw [Function.comp_apply, marked]
  split <;> rfl

/-- Settings that differ in the schedule and the marks alone select the same ids. -/
theorem ids_of_selection (hfilter : s'.filter = s.filter)
    (hplan : s'.plan = { s.plan with schedule := s'.plan.schedule }) (h : s.selection = .ok c)
    (h' : s'.selection = .ok c') : c'.ids = c.ids := by
  obtain ⟨-, all, hall, hlist⟩ := toList_of_selection h
  obtain ⟨-, all', hall', hlist'⟩ := toList_of_selection h'
  have hkeys : all'.toList.map (fun t => (t.id, t.family)) =
      all.toList.map fun t => (t.id, t.family) := by
    rw [Catalog.keys_of_standard hall, Catalog.keys_of_standard hall', hplan, Plan.keys_drafts]
  have hsame : List.Forall₂ (fun t t' : Scenario => (t'.id, t'.family) = (t.id, t.family))
      all.toList all'.toList := by
    rw [← List.forall₂_eq_eq_eq, List.forall₂_map_left_iff, List.forall₂_map_right_iff] at hkeys
    exact hkeys.flip
  have hpass := List.rel_filter (p := passes s.filter) (q := passes s.filter)
    (fun _ _ ht => by simp only [passes_congr ht]) hsame
  rw [Catalog.ids, Catalog.ids, hlist, hlist', hfilter, ids_map_marked, ids_map_marked]
  exact map_eq_of_forall₂ (hpass.imp fun _ _ ht => (Prod.mk.inj ht).1)

/-- What is listed of a scenario that is selected stands on one line. -/
theorem isOneLine_of_selection (h : s.selection = .ok c) {t : Scenario} (ht : t ∈ c.toList) :
    IsId t.id ∧ IsOneLine t.description := by
  obtain ⟨-, all, hall, hlist⟩ := toList_of_selection h
  rw [hlist] at ht
  obtain ⟨original, horiginal, rfl⟩ := List.mem_map.1 ht
  obtain ⟨d, hd, hbuild⟩ := exists_of_mem_forall₂ (Catalog.forall₂_of_standard hall)
    (List.mem_filter.1 horiginal).1
  obtain ⟨_, -, rfl, -⟩ := Draft.build_eq_ok_iff.1 hbuild
  have hid : d.id ∈ s.plan.ids := s.plan.ids_drafts ▸ List.mem_map_of_mem hd
  unfold marked
  split <;> exact ⟨Plan.isId_of_mem_ids hid, Plan.isOneLine_of_mem_drafts hd⟩

end Settings

end TierCheck
