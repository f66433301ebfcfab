import TierCheck.Proofs.Catalog.Drafts
import TierCheck.Proofs.Catalog.Store
import TierCheck.Proofs.Lists

/-!
# When there is a standard catalog

A plan has a standard catalog if its schedule can drive all of its scenarios. Two things can stand
in the way of a schedule that is accepted as such: a checkpoint that is named after a type which is
tried after the warm-up, and a checkpoint that asks for another argument set than the first, since
most scenarios have only that one.

* `Plan.isFit_drafts_iff`: when all drafts of a plan are fit.
* `Catalog.IsStandard`: what a standard catalog is like.
* `Catalog.standard_wellFormed`: when there is one, and that it is like this.
* `Catalog.standard_argumentSet`: a schedule that is accepted and has none.
-/
namespace TierCheck

/-! ## Fit drafts -/

namespace Plan

def retypedNames : List String :=
  ["retype:Float64Array", "retype:Int32Array", "retype:Uint8Array", "retype:Float32Array"]

/-- Checkpoints that all scenarios can be driven by: they use the first argument set, and none is
named after a type that is tried. -/
def Suits (checkpoints : List Checkpoint) : Prop :=
  ∀ checkpoint ∈ checkpoints, checkpoint.argumentSet = 0 ∧ checkpoint.name ∉ retypedNames

theorem retypedName_mem {warm : Element} {others : List Element}
    (h : (warm, others) ∈ rotations) : ∀ e ∈ others, retypedName e ∈ retypedNames := by
  have hall : ∀ rotation ∈ rotations, ∀ e ∈ rotation.2, retypedName e ∈ retypedNames := by decide
  exact hall _ h

theorem isFit_of_suits {plan : Plan} (h : IsSchedule plan.schedule.checkpoints)
    (hsuits : Suits plan.schedule.checkpoints) {d : Draft} (hd : d ∈ plan.drafts) : d.IsFit := by
  have hzero : ∀ checkpoint ∈ plan.schedule.checkpoints, checkpoint.argumentSet = 0 :=
    fun checkpoint hmem => (hsuits checkpoint hmem).1
  have hmem := hd
  rw [drafts, List.mem_append, List.mem_append, List.mem_append] at hd
  rcases hd with ((hd | hd) | hd) | hd
  · exact isFit_of_mem_callDrafts h hzero hd
  · obtain ⟨access, -, hd⟩ := List.mem_flatMap.1 hd
    obtain ⟨⟨warm, others⟩, hrotation, rfl⟩ := List.mem_map.1 hd
    have hnames := retypedName_mem hrotation
    obtain ⟨a, b, c, rfl, hdistinct⟩ := exists_three_of_mem_rotations hrotation
    refine isFit_retypingDraft h hzero access hdistinct (fun e he hname => ?_) hmem
    obtain ⟨checkpoint, hcheckpoint, heq⟩ := List.mem_map.1 hname
    exact (hsuits checkpoint hcheckpoint).2 (heq ▸ hnames e he)
  · exact isFit_of_mem_unwindingList h hzero hd
  · exact isFit_of_mem_vectorDrafts h hzero hd

theorem canonicalDraft_mem (plan : Plan) : plan.sumDraft canonicalArity ∈ plan.callDrafts :=
  List.mem_flatMap.2 ⟨canonicalArity, canonicalArity_mem _, List.mem_cons_self⟩

/-- The function of seven arguments has one argument set, and the arrays are retyped by a draft
whose checkpoints have different names, so both show what a schedule must not have. -/
theorem suits_of_isFit {plan : Plan} (h : ∀ d ∈ plan.drafts, d.IsFit) :
    Suits plan.schedule.checkpoints := by
  intro checkpoint hcheckpoint
  constructor
  · have hmem : plan.sumDraft canonicalArity ∈ plan.drafts := by
      simp [drafts, plan.canonicalDraft_mem]
    exact Nat.lt_one_iff.1 ((h _ hmem).chosen checkpoint hcheckpoint)
  · intro hname
    have hrotations : ∀ name ∈ retypedNames, ∃ rotation ∈ rotations, ∃ e ∈ rotation.2,
        retypedName e = name := by decide
    obtain ⟨⟨warm, others⟩, hrotation, e, he, heq⟩ := hrotations _ hname
    have hmem : plan.retypingDraft .construct warm others ∈ plan.drafts := by
      have hretyping : plan.retypingDraft .construct warm others ∈ plan.retypingDrafts :=
        List.mem_flatMap.2 ⟨.construct, List.mem_cons_self, List.mem_map.2 ⟨_, hrotation, rfl⟩⟩
      simp [drafts, hretyping]
    have hdistinct := (h _ hmem).schedule.distinct
    rw [checkpoints_retypingDraft, List.map_append, List.nodup_append] at hdistinct
    obtain ⟨a, b, c, rfl, -⟩ := exists_three_of_mem_rotations hrotation
    have hretyped : checkpoint.name ∈ (plan.retypedCheckpoints [a, b, c]).map (·.name) := by
      change checkpoint.name ∈ [a, b, c].map retypedName
      exact heq ▸ List.mem_map_of_mem he
    exact hdistinct.2.2 _ (List.mem_map_of_mem hcheckpoint) _ hretyped rfl

/-- The drafts of a plan are fit if its schedule suits them. -/
theorem isFit_drafts_iff {plan : Plan} (h : IsSchedule plan.schedule.checkpoints) :
    (∀ d ∈ plan.drafts, d.IsFit) ↔ Suits plan.schedule.checkpoints :=
  ⟨suits_of_isFit, fun hsuits _ => isFit_of_suits h hsuits⟩

end Plan

/-! ## The catalog -/

namespace Catalog

open Plan

variable {plan : Plan} {c : Catalog}

/-- A plan whose first scenario can be built has a schedule. -/
theorem isSchedule_of_standard (hc : standard plan = .ok c) :
    IsSchedule plan.schedule.checkpoints := by
  obtain ⟨-, hscenarios⟩ := standard_eq_ok hc
  rw [Plan.scenarios] at hscenarios
  cases hcalls : plan.callDrafts.mapM Draft.build with
  | error e =>
    rw [hcalls] at hscenarios
    cases hscenarios
  | ok calls =>
    obtain ⟨s, -, hs⟩ :=
      exists_of_mem_forall₂ (mapM_eq_ok_iff.1 hcalls).flip plan.canonicalDraft_mem
    exact (Draft.exists_build_iff.1 ⟨s, hs⟩).schedule

/-- The scenarios of a standard catalog are built of the drafts of the plan. -/
theorem forall₂_of_standard (hc : standard plan = .ok c) :
    List.Forall₂ (fun d s => Draft.build d = .ok s) plan.drafts c.toList := by
  obtain ⟨-, hscenarios⟩ := standard_eq_ok hc
  rw [scenarios_eq plan (isSchedule_of_standard hc)] at hscenarios
  exact mapM_eq_ok_iff.1 hscenarios

theorem id_of_build {d : Draft} {s : Scenario} (h : d.build = .ok s) : s.id = d.id := by
  obtain ⟨_, -, rfl, -⟩ := Draft.build_eq_ok_iff.1 h
  rfl

/-- There is a standard catalog if all drafts are fit. -/
theorem exists_standard (h : IsSchedule plan.schedule.checkpoints)
    (hfit : ∀ d ∈ plan.drafts, d.IsFit) : ∃ c, standard plan = .ok c := by
  obtain ⟨l, hl⟩ := exists_forall₂ (R := fun d s => Draft.build d = .ok s)
    fun d hd => Draft.exists_build_iff.2 (hfit d hd)
  have hids : l.map (·.id) = plan.ids := by
    rw [map_eq_of_forall₂ (hl.imp fun _ _ hbuild => id_of_build hbuild), ids_drafts]
  have hvalid : ∀ s ∈ l, s.IsValid := by
    intro s hs
    obtain ⟨d, -, hd⟩ := exists_of_mem_forall₂ hl hs
    obtain ⟨_, -, -, hs⟩ := Draft.build_eq_ok_iff.1 hd
    exact hs
  have hnew : (empty.ids ++ l.map (·.id)).Nodup := by
    have hempty : empty.ids = [] := rfl
    rw [hempty, List.nil_append, hids]
    exact plan.nodup_ids
  obtain ⟨c, hc⟩ := isSound_empty.exists_pushAll hvalid hnew
  refine ⟨c, ?_⟩
  rw [standard, scenarios_eq plan h, mapM_eq_ok_iff.2 hl]
  exact hc

/-- **When there is a standard catalog.** -/
theorem exists_standard_iff : (∃ c, standard plan = .ok c) ↔
    IsSchedule plan.schedule.checkpoints ∧ Suits plan.schedule.checkpoints := by
  constructor
  · rintro ⟨c, hc⟩
    have h := isSchedule_of_standard hc
    refine ⟨h, (isFit_drafts_iff h).1 fun d hd => ?_⟩
    obtain ⟨s, -, hs⟩ := exists_of_mem_forall₂ (forall₂_of_standard hc).flip hd
    exact Draft.exists_build_iff.1 ⟨s, hs⟩
  · rintro ⟨h, hsuits⟩
    exact exists_standard h ((isFit_drafts_iff h).2 hsuits)

/-! ## What it is like -/

/-- The scenarios go to different files. -/
theorem nodup_fileNames (hc : standard plan = .ok c) :
    (c.toList.map fun s => (Probe.ofScenario s).fileName).Nodup := by
  have hids : c.ids = plan.ids := by
    rw [ids, map_eq_of_forall₂ ((forall₂_of_standard hc).imp fun _ _ hbuild => id_of_build hbuild),
      ids_drafts]
  have hisId : ∀ s ∈ c.toList, IsId s.id := by
    intro s hs
    have hmem : s.id ∈ c.ids := List.mem_map_of_mem hs
    exact isId_of_mem_ids (hids ▸ hmem)
  have hdistinct := (standard_eq_ok hc).1.distinct
  rw [ids, List.nodup_iff_pairwise_ne, List.pairwise_map] at hdistinct
  rw [List.nodup_iff_pairwise_ne, List.pairwise_map]
  refine hdistinct.imp_of_mem fun {s t} hs ht hne hfile => hne ?_
  have hs : IsId (Probe.ofScenario s).id := hisId s hs
  have ht : IsId (Probe.ofScenario t).id := hisId t ht
  exact Probe.fileName_inj hs ht hfile

theorem filter_family {l : List Scenario} {family : Family} (h : ∀ s ∈ l, s.family = family)
    (other : Family) : l.filter (fun s => s.family = other) = if family = other then l else [] := by
  by_cases heq : family = other
  · rw [if_pos heq, List.filter_eq_self]
    exact fun s hs => by simp [h s hs, heq]
  · rw [if_neg heq, List.filter_eq_nil_iff]
    exact fun s hs => by simp [h s hs, heq]

/-- The scenarios that are built of drafts of one family. -/
theorem family_of_forall₂ {drafts : List Draft} {family : Family} {l : List Scenario}
    (hfamily : ∀ d ∈ drafts, d.family = family)
    (h : List.Forall₂ (fun d s => Draft.build d = .ok s) drafts l) :
    ∀ s ∈ l, s.family = family := by
  intro s hs
  obtain ⟨d, hd, hbuild⟩ := exists_of_mem_forall₂ h hs
  obtain ⟨_, -, rfl, -⟩ := Draft.build_eq_ok_iff.1 hbuild
  exact hfamily d hd

theorem ne_nil_of_forall₂ {drafts : List Draft} {l : List Scenario} (hne : drafts ≠ [])
    (h : List.Forall₂ (fun d s => Draft.build d = .ok s) drafts l) : l ≠ [] := by
  rintro rfl
  exact hne (List.forall₂_nil_right_iff.1 h)

theorem families_drafts (plan : Plan) :
    (∀ d ∈ plan.callDrafts, d.family = .arity) ∧
    (∀ d ∈ plan.retypingDrafts, d.family = .polymorphic) ∧
    (∀ d ∈ plan.unwindingList, d.family = .exceptions) ∧
    (∀ d ∈ plan.vectorDrafts, d.family = .vectorized) := by
  refine ⟨fun d hd => ?_, fun d hd => ?_, fun d hd => ?_, fun d hd => ?_⟩
  · obtain ⟨n, -, hd⟩ := List.mem_flatMap.1 hd
    simp only [List.mem_cons, List.not_mem_nil, or_false] at hd
    rcases hd with rfl | rfl | rfl | rfl | rfl <;> rfl
  · obtain ⟨access, -, hd⟩ := List.mem_flatMap.1 hd
    obtain ⟨rotation, -, rfl⟩ := List.mem_map.1 hd
    rfl
  · simp only [unwindingList, List.mem_cons, List.not_mem_nil, or_false] at hd
    rcases hd with rfl | rfl | rfl | rfl | rfl | rfl | rfl | rfl <;> rfl
  · obtain ⟨op, -, hd⟩ := List.mem_flatMap.1 hd
    obtain ⟨e, -, hd⟩ := List.mem_flatMap.1 hd
    obtain ⟨n, -, rfl⟩ := List.mem_map.1 hd
    rfl

/-- The scenarios of a standard catalog stand family after family, and no family is left out. -/
theorem families_of_standard (hc : standard plan = .ok c) :
    Family.all.flatMap c.ofFamily = c.toList ∧ ∀ family, c.ofFamily family ≠ [] := by
  obtain ⟨hcalls, hretyping, hunwinding, hvectors⟩ := families_drafts plan
  have h := forall₂_of_standard hc
  rw [drafts] at h
  obtain ⟨_, vectors, hlist, h, h4⟩ := exists_append_of_forall₂ h
  obtain ⟨_, unwinding, rfl, h, h3⟩ := exists_append_of_forall₂ h
  obtain ⟨calls, retyping, rfl, h1, h2⟩ := exists_append_of_forall₂ h
  have hfilter : ∀ family, c.ofFamily family =
      (if .arity = family then calls else []) ++ (if .polymorphic = family then retyping else []) ++
        (if .exceptions = family then unwinding else []) ++
        (if .vectorized = family then vectors else []) := by
    intro family
    rw [ofFamily, hlist, List.filter_append, List.filter_append, List.filter_append,
      filter_family (family_of_forall₂ hcalls h1), filter_family (family_of_forall₂ hretyping h2),
      filter_family (family_of_forall₂ hunwinding h3),
      filter_family (family_of_forall₂ hvectors h4)]
  constructor
  · rw [hlist]
    simp [Family.all, hfilter]
  · intro family
    rw [hfilter]
    have hcallsNe := ne_nil_of_forall₂ (List.ne_nil_of_mem plan.canonicalDraft_mem) h1
    have hretypingNe := ne_nil_of_forall₂ (List.cons_ne_nil _ _) h2
    have hunwindingNe := ne_nil_of_forall₂ (List.cons_ne_nil _ _) h3
    have hvectorsNe := ne_nil_of_forall₂ (List.cons_ne_nil _ _) h4
    cases family <;> simpa

/-- The draft of a scenario that changes the element type. -/
theorem exists_retypingDraft (hc : standard plan = .ok c) {s : Scenario}
    (hs : s ∈ c.ofFamily .polymorphic) : ∃ access warm others, (warm, others) ∈ rotations ∧
      (plan.retypingDraft access warm others).build = .ok s := by
  obtain ⟨hmem, hfamily⟩ := List.mem_filter.1 hs
  obtain ⟨d, hd, hbuild⟩ := exists_of_mem_forall₂ (forall₂_of_standard hc) hmem
  have hsame : d.family = .polymorphic := by
    obtain ⟨_, -, rfl, -⟩ := Draft.build_eq_ok_iff.1 hbuild
    exact of_decide_eq_true hfamily
  obtain ⟨hcalls, -, hunwinding, hvectors⟩ := families_drafts plan
  rw [drafts, List.mem_append, List.mem_append, List.mem_append] at hd
  rcases hd with ((hd | hd) | hd) | hd
  · rw [hcalls d hd] at hsame
    cases hsame
  · obtain ⟨access, -, hd⟩ := List.mem_flatMap.1 hd
    obtain ⟨⟨warm, others⟩, hrotation, rfl⟩ := List.mem_map.1 hd
    exact ⟨access, warm, others, hrotation, hbuild⟩
  · rw [hunwinding d hd] at hsame
    cases hsame
  · rw [hvectors d hd] at hsame
    cases hsame

end Catalog

/-! ## Calls after the warm-up -/

namespace Probe

theorem segments_append (function : String) (arity made : Nat)
    (before after : List Checkpoint) :
    segments function arity made (before ++ after) = segments function arity made before ++
      segments function arity ((before.getLast?.map (·.iterations)).getD made) after := by
  induction before generalizing made with
  | nil => rfl
  | cons first rest ih =>
    rw [List.cons_append, segments, segments, ih, List.append_assoc, List.getLast?_cons]
    cases rest.getLast? <;> rfl

/-- A type that is tried is called once, whatever the warm-up was. -/
theorem segments_retyped (plan : Plan) (function : String) (arity : Nat) (a b c : Element) :
    segments function arity 0
        (plan.schedule.checkpoints ++ plan.retypedCheckpoints [a, b, c]) =
      segments function arity 0 plan.schedule.checkpoints ++
        (plan.retypedCheckpoints [a, b, c]).flatMap
          fun checkpoint => segment function arity checkpoint 1 := by
  have hone : ∀ n : Nat, n + 2 - (n + 1) = 1 ∧ n + 3 - (n + 2) = 1 := by omega
  rw [segments_append, Plan.retypedCheckpoints_three]
  change _ ++ segments function arity (warmup plan.schedule.checkpoints) _ = _
  simp [segments, hone]

end Probe

/-! ## Main results -/

namespace Catalog

open Plan

structure IsStandard (plan : Plan) (c : Catalog) : Prop where
  distinct : c.ids.Nodup
  files : (c.toList.map fun s => (Probe.ofScenario s).fileName).Nodup
  valid : ∀ s ∈ c.toList, s.IsValid
  canonical : ∃ s, c.get? "arity/sum7" = some s
  /-- The families come in their order, and each has scenarios. -/
  families : Family.all.flatMap c.ofFamily = c.toList ∧ ∀ family, c.ofFamily family ≠ []
  /-- After the warm-up, each of three types is tried by one call with arguments of its own. -/
  retyped : ∀ s ∈ c.ofFamily .polymorphic, ∃ retypes : List Checkpoint,
    retypes.map (·.argumentSet) = [1, 2, 3] ∧
    (∀ checkpoint ∈ retypes, checkpoint.name ∈ retypedNames) ∧
    s.checkpoints = plan.schedule.checkpoints ++ retypes ∧
    Probe.segments s.function s.arity 0 s.checkpoints =
      Probe.segments s.function s.arity 0 plan.schedule.checkpoints ++
        retypes.flatMap fun checkpoint => Probe.segment s.function s.arity checkpoint 1
  /-- Another schedule gives the same scenarios as far as a listing shows them. -/
  steady : ∀ schedule c', standard { plan with schedule } = .ok c' →
    c'.toList.map (fun s => (s.id, s.description, s.expectation)) =
      c.toList.map fun s => (s.id, s.description, s.expectation)

variable {plan : Plan} {c : Catalog}

theorem retyped_of_standard (hc : standard plan = .ok c) {s : Scenario}
    (hs : s ∈ c.ofFamily .polymorphic) : ∃ retypes : List Checkpoint,
      retypes.map (·.argumentSet) = [1, 2, 3] ∧
      (∀ checkpoint ∈ retypes, checkpoint.name ∈ retypedNames) ∧
      s.checkpoints = plan.schedule.checkpoints ++ retypes ∧
      Probe.segments s.function s.arity 0 s.checkpoints =
        Probe.segments s.function s.arity 0 plan.schedule.checkpoints ++
          retypes.flatMap fun checkpoint => Probe.segment s.function s.arity checkpoint 1 := by
  obtain ⟨access, warm, others, hrotation, hbuild⟩ := exists_retypingDraft hc hs
  have hnames := retypedName_mem hrotation
  obtain ⟨first, second, third, rfl, -⟩ := exists_three_of_mem_rotations hrotation
  obtain ⟨_, -, rfl, -⟩ := Draft.build_eq_ok_iff.1 hbuild
  refine ⟨plan.retypedCheckpoints [first, second, third], rfl, ?_, rfl, ?_⟩
  · simpa [retypedCheckpoints_three] using hnames
  · exact Probe.segments_retyped plan _ _ first second third

theorem summary_of_standard (hc : standard plan = .ok c) :
    c.toList.map (fun s => (s.id, s.description, s.expectation)) = plan.drafts.map summary := by
  refine map_eq_of_forall₂ ((forall₂_of_standard hc).imp fun d s hbuild => ?_)
  obtain ⟨_, -, rfl, -⟩ := Draft.build_eq_ok_iff.1 hbuild
  rfl

theorem keys_of_standard (hc : standard plan = .ok c) :
    c.toList.map (fun s => (s.id, s.family)) = plan.drafts.map fun d => (d.id, d.family) := by
  refine map_eq_of_forall₂ ((forall₂_of_standard hc).imp fun d s hbuild => ?_)
  obtain ⟨_, -, rfl, -⟩ := Draft.build_eq_ok_iff.1 hbuild
  rfl

theorem canonical_of_standard (hc : standard plan = .ok c) :
    ∃ s, c.get? "arity/sum7" = some s := by
  obtain ⟨s, hmem, hbuild⟩ := exists_of_mem_forall₂ (forall₂_of_standard hc).flip
    (List.mem_append_left _ (List.mem_append_left _
      (List.mem_append_left _ plan.canonicalDraft_mem)))
  exact ⟨s, (standard_eq_ok hc).1.get?_eq_some_iff.2 ⟨hmem, id_of_build hbuild⟩⟩

theorem isStandard_of_standard (hc : standard plan = .ok c) : c.IsStandard plan where
  distinct := (standard_eq_ok hc).1.distinct
  files := nodup_fileNames hc
  valid := (standard_eq_ok hc).1.valid
  canonical := canonical_of_standard hc
  families := families_of_standard hc
  retyped := fun _ => retyped_of_standard hc
  steady := by
    intro schedule c' hc'
    rw [summary_of_standard hc', summary_drafts, summary_of_standard hc]

/-- **When there is a standard catalog, and what it is like.** For any widths of the machine, a plan
has one if its schedule is accepted as a schedule, uses only the first argument set, and has no
checkpoint that is named after a type which some scenarios try. The catalog is then as
`IsStandard` says. -/
theorem standard_wellFormed (plan : Plan) :
    ((∃ c, standard plan = .ok c) ↔
      Schedule.ofCheckpoints plan.schedule.checkpoints = .ok plan.schedule ∧
        ∀ checkpoint ∈ plan.schedule.checkpoints,
          checkpoint.argumentSet = 0 ∧ checkpoint.name ∉ retypedNames) ∧
    ∀ c, standard plan = .ok c → c.IsStandard plan := by
  refine ⟨?_, fun c => isStandard_of_standard⟩
  have haccepted : Schedule.ofCheckpoints plan.schedule.checkpoints = .ok plan.schedule ↔
      IsSchedule plan.schedule.checkpoints := by
    rw [← checkpointFault?_eq_none_iff, Schedule.ofCheckpoints]
    cases checkpointFault? plan.schedule.checkpoints <;> simp
  rw [haccepted]
  exact exists_standard_iff

/-- The plan without settings has a standard catalog, and one whose schedule is named after a type
has none. -/
theorem standard_wellFormed_default :
    (∃ c, standard {} = .ok c ∧ c.IsStandard {}) ∧
    ∀ c, standard { schedule := ⟨[⟨"retype:Int32Array", 1, 0⟩]⟩ } ≠ .ok c := by
  constructor
  · obtain ⟨c, hc⟩ := (standard_wellFormed {}).1.2 ⟨by rfl, by decide⟩
    exact ⟨c, hc, (standard_wellFormed {}).2 c hc⟩
  · intro c hc
    obtain ⟨-, hsuits⟩ := (standard_wellFormed _).1.1 ⟨c, hc⟩
    exact (hsuits _ List.mem_cons_self).2 (by decide)

/-- A schedule with one checkpoint that asks for a second argument set is accepted as a schedule and
is named after no type, but the scenarios with one argument set refuse it. -/
theorem standard_argumentSet :
    Schedule.ofCheckpoints [⟨"a", 1, 1⟩] = .ok ⟨[⟨"a", 1, 1⟩]⟩ ∧ "a" ∉ retypedNames ∧
    standard { schedule := ⟨[⟨"a", 1, 1⟩]⟩ } =
      .error (.invalidScenario "arity/sum4" (.missingArgumentSet "a" 1 1)) := by
  refine ⟨by rfl, by decide, ?_⟩
  rfl

end Catalog

end TierCheck
