import TierCheck.Proofs.Catalog.Division
import TierCheck.Proofs.Catalog.Identity

/-!
# The drafts of a plan

The scenarios of a plan are built from drafts, and each draft is fit if the schedule of the plan
suits it. A schedule that is divided for the scenarios with a loop stays a schedule, so no plan is
refused for want of one.

* `Plan.drafts`, `Plan.scenarios_eq`: all drafts in one list, and the scenarios built of it.
* `Plan.isFit_of_mem_callDrafts` and the lemmas beside it: when the drafts of each family are fit.
-/
namespace TierCheck

/-! ## All drafts -/

namespace Plan

/-- The drafts of the scenarios that throw, for a schedule that can be divided. -/
def unwindingList (plan : Plan) : List Draft :=
  let s := plan.schedule
  let loops (divisor : Nat) : Schedule := ⟨Schedule.divideFrom divisor 0 s.checkpoints⟩
  [everyThirdThrow (loops 100), finallyCount (loops 10), nestedFinallyOrder s, deepUnwind s,
    rethrow s, thrownValues s, returnThroughFinally s, loopCatchSum (loops 10)]

def drafts (plan : Plan) : List Draft :=
  plan.callDrafts ++ plan.retypingDrafts ++ plan.unwindingList ++ plan.vectorDrafts

theorem unwindingDrafts_eq (plan : Plan) (h : IsSchedule plan.schedule.checkpoints) :
    plan.unwindingDrafts = plan.unwindingList.map .ok := by
  have hdivided := plan.schedule.divided_eq_ok h
  simp only [unwindingDrafts, hdivided]
  rfl

/-- The scenarios of a plan are built of its drafts, one after the other. -/
theorem scenarios_eq (plan : Plan) (h : IsSchedule plan.schedule.checkpoints) :
    plan.scenarios = plan.drafts.mapM Draft.build := by
  rw [scenarios, unwindingDrafts_eq plan h, drafts, List.mapM_map]
  simp only [List.mapM_append, bind_assoc, pure_bind]
  rfl

theorem ids_drafts (plan : Plan) : plan.drafts.map (·.id) = plan.ids := by
  have hcalls : plan.callDrafts.map (·.id) = plan.callIds := by
    rw [callDrafts, callIds, List.map_flatMap]
    rfl
  have hvectors : plan.vectorDrafts.map (·.id) = plan.vectorIds := by
    simp only [vectorDrafts, vectorIds, List.map_flatMap, List.map_map]
    rfl
  rw [drafts, List.map_append, List.map_append, List.map_append, hcalls, hvectors]
  rfl

/-- What a draft tells besides its schedule. -/
def summary (d : Draft) : String × String × Expectation := (d.id, d.description, d.expectation)

theorem summary_drafts (plan : Plan) (schedule : Schedule) :
    ({ plan with schedule } : Plan).drafts.map summary = plan.drafts.map summary := by
  simp only [drafts, callDrafts, vectorDrafts, List.map_append, List.map_flatMap, List.map_map]
  rfl

theorem keys_drafts (plan : Plan) (schedule : Schedule) :
    ({ plan with schedule } : Plan).drafts.map (fun d => (d.id, d.family)) =
      plan.drafts.map fun d => (d.id, d.family) := by
  simp only [drafts, callDrafts, vectorDrafts, List.map_append, List.map_flatMap, List.map_map]
  rfl

/-! ## Fitness -/

theorem isFunctionName_append_naturalText {name : String} (h : isFunctionName name = true)
    (n : Nat) : isFunctionName (name ++ naturalText n) = true := by
  have hdigits : (naturalText n).toList.all isNameCharacter = true := by
    rw [List.all_eq_true, naturalText, String.toList_ofList]
    intro c hc
    simp [isNameCharacter, Char.isAlphanum, isDigit_of_mem_toDigits hc]
  unfold isFunctionName at h ⊢
  rw [String.toList_append]
  cases hlist : name.toList with
  | nil =>
    rw [hlist] at h
    cases h
  | cons c rest =>
    rw [hlist] at h
    simp only [List.cons_append, List.all_append, hdigits, Bool.and_true]
    exact h

theorem isFit_id (plan : Plan) {d : Draft} (h : d ∈ plan.drafts) :
    d.id ≠ "" ∧ hasBlank d.id = false := by
  have hid : d.id ∈ plan.ids := plan.ids_drafts ▸ List.mem_map_of_mem h
  exact ⟨ne_empty_of_mem_ids hid, (isId_of_mem_ids hid).hasBlank⟩

/-- A draft with one argument set is fit for a schedule that uses no other one. -/
theorem isFit_of_single {d : Draft} {arguments : List Value}
    (hid : d.id ≠ "" ∧ hasBlank d.id = false) (hfunction : isFunctionName d.function = true)
    (hsets : d.argumentSets = [arguments]) (harguments : arguments.length = d.parameters.length)
    (hschedule : IsSchedule d.checkpoints)
    (hzero : ∀ checkpoint ∈ d.checkpoints, checkpoint.argumentSet = 0)
    (hreference : d.reference?.isSome = true) : d.IsFit where
  id := hid
  function := hfunction
  sets := by simp [hsets]
  arguments := by simpa [hsets] using harguments
  schedule := hschedule
  chosen := by simpa [hsets] using hzero
  reference := hreference

theorem length_countingArguments (n : Nat) : (countingArguments n).length = n := by
  simp [countingArguments]

theorem isFit_of_mem_callDrafts {plan : Plan} (h : IsSchedule plan.schedule.checkpoints)
    (hzero : ∀ checkpoint ∈ plan.schedule.checkpoints, checkpoint.argumentSet = 0) {d : Draft}
    (hd : d ∈ plan.callDrafts) : d.IsFit := by
  have hid : d.id ≠ "" ∧ hasBlank d.id = false := plan.isFit_id (by
    rw [drafts]
    simp [hd])
  obtain ⟨n, -, hd⟩ := List.mem_flatMap.1 hd
  simp only [List.mem_cons, List.not_mem_nil, or_false] at hd
  rcases hd with rfl | rfl | rfl | rfl | rfl
  · exact isFit_of_single hid (isFunctionName_append_naturalText (by decide) n) rfl
      (by simp [sumDraft, length_countingArguments]) h hzero rfl
  · exact isFit_of_single hid (isFunctionName_append_naturalText (by decide) n) rfl
      (by simp [echoDraft, length_countingArguments]) h hzero rfl
  · exact isFit_of_single hid (isFunctionName_append_naturalText (by decide) n) rfl
      (by simp [floatSumDraft]) h hzero rfl
  · exact isFit_of_single hid (isFunctionName_append_naturalText (by decide) n) rfl
      (by simp [stringTailDraft, length_countingArguments]) h hzero rfl
  · exact isFit_of_single hid (isFunctionName_append_naturalText (by decide) n) rfl
      (by simp [nestedDraft, length_countingArguments]) h hzero rfl

theorem isFit_of_mem_vectorDrafts {plan : Plan} (h : IsSchedule plan.schedule.checkpoints)
    (hzero : ∀ checkpoint ∈ plan.schedule.checkpoints, checkpoint.argumentSet = 0) {d : Draft}
    (hd : d ∈ plan.vectorDrafts) : d.IsFit := by
  have hid : d.id ≠ "" ∧ hasBlank d.id = false := plan.isFit_id (by
    rw [drafts]
    simp [hd])
  obtain ⟨op, -, hd⟩ := List.mem_flatMap.1 hd
  obtain ⟨e, -, hd⟩ := List.mem_flatMap.1 hd
  obtain ⟨n, -, rfl⟩ := List.mem_map.1 hd
  have hfunction : isFunctionName op.function = true := by cases op <;> decide
  exact isFit_of_single hid hfunction rfl rfl h hzero rfl

def unwindingFunctions : List String :=
  ["everyThirdThrow", "finallyCount", "nestedFinallyOrder", "deepUnwind", "rethrowChain",
    "thrownKinds", "returnThroughFinally", "loopCatchSum"]

theorem functions_unwindingList (plan : Plan) :
    plan.unwindingList.map (·.function) = unwindingFunctions := rfl

theorem isFit_of_mem_unwindingList {plan : Plan} (h : IsSchedule plan.schedule.checkpoints)
    (hzero : ∀ checkpoint ∈ plan.schedule.checkpoints, checkpoint.argumentSet = 0) {d : Draft}
    (hd : d ∈ plan.unwindingList) : d.IsFit := by
  have hid : d.id ≠ "" ∧ hasBlank d.id = false := plan.isFit_id (by
    rw [drafts]
    simp [hd])
  have hfunction : isFunctionName d.function = true := by
    have hvalid : ∀ name ∈ unwindingFunctions, isFunctionName name = true := by decide
    exact hvalid d.function (plan.functions_unwindingList ▸ List.mem_map_of_mem hd)
  have hloops : ∀ divisor, IsSchedule (Schedule.divideFrom divisor 0 plan.schedule.checkpoints) ∧
      ∀ checkpoint ∈ Schedule.divideFrom divisor 0 plan.schedule.checkpoints,
        checkpoint.argumentSet = 0 := fun divisor =>
    ⟨Schedule.isSchedule_divideFrom divisor h, fun _ => Schedule.argumentSet_of_mem_divideFrom⟩
  simp only [unwindingList, List.mem_cons, List.not_mem_nil, or_false] at hd
  rcases hd with rfl | rfl | rfl | rfl | rfl | rfl | rfl | rfl
  · exact isFit_of_single hid hfunction rfl rfl (hloops 100).1 (hloops 100).2 rfl
  · exact isFit_of_single hid hfunction rfl rfl (hloops 10).1 (hloops 10).2 rfl
  · exact isFit_of_single hid hfunction rfl rfl h hzero rfl
  · exact isFit_of_single hid hfunction rfl rfl h hzero rfl
  · exact isFit_of_single hid hfunction rfl rfl h hzero rfl
  · exact isFit_of_single hid hfunction rfl rfl h hzero rfl
  · exact isFit_of_single hid hfunction rfl rfl h hzero rfl
  · exact isFit_of_single hid hfunction rfl rfl (hloops 10).1 (hloops 10).2 rfl

/-! ## Calls with another element type -/

/-- The checkpoints that try the types that follow the warm-up. -/
def retypedCheckpoints (plan : Plan) (others : List Element) : List Checkpoint :=
  others.zipIdx.map fun (e, i) => retypedCheckpoint (warmup plan.schedule.checkpoints) e i

def retypedName (e : Element) : String := "retype:" ++ e.constructorName

theorem retypedName_inj {e e' : Element} (h : retypedName e = retypedName e') : e = e' := by
  have hmem : ∀ e, e ∈ elements := by intro e; cases e <;> decide
  have hnodup : (elements.map retypedName).Nodup := by decide
  exact List.inj_on_of_nodup_map hnodup (hmem e) (hmem e') h

theorem isCheckpointName_retypedName (e : Element) : isCheckpointName (retypedName e) = true := by
  cases e <;> decide

/-- Three types are tried after every warm-up. -/
theorem exists_three_of_mem_rotations {warm : Element} {others : List Element}
    (h : (warm, others) ∈ rotations) : ∃ a b c, others = [a, b, c] ∧ [a, b, c].Nodup := by
  simp only [rotations, List.mem_cons, List.not_mem_nil, or_false, Prod.mk.injEq] at h
  rcases h with ⟨-, rfl⟩ | ⟨-, rfl⟩
  · exact ⟨.float64, .int32, .uint8, rfl, by decide⟩
  · exact ⟨.float64, .uint8, .float32, rfl, by decide⟩

theorem retypedCheckpoints_three (plan : Plan) (a b c : Element) :
    plan.retypedCheckpoints [a, b, c] =
      [⟨retypedName a, warmup plan.schedule.checkpoints + 1, 1⟩,
        ⟨retypedName b, warmup plan.schedule.checkpoints + 2, 2⟩,
        ⟨retypedName c, warmup plan.schedule.checkpoints + 3, 3⟩] := rfl

theorem isSchedule_retypedCheckpoints (plan : Plan) {a b c : Element}
    (h : [a, b, c].Nodup) : IsSchedule (plan.retypedCheckpoints [a, b, c]) where
  nonempty := by simp [retypedCheckpoints_three]
  positive := by simp [retypedCheckpoints_three]
  increasing := by simp [retypedCheckpoints_three]
  named := by simp [retypedCheckpoints_three, isCheckpointName_retypedName]
  distinct := by
    have hnames : ([a, b, c].map retypedName).Nodup := h.map fun _ _ => retypedName_inj
    exact hnames

/-- Checkpoints behind a schedule. -/
theorem isSchedule_append {before after : List Checkpoint} (hbefore : IsSchedule before)
    (hafter : IsSchedule after) (hlate : ∀ checkpoint ∈ after,
      warmup before < checkpoint.iterations)
    (hnames : ∀ checkpoint ∈ after, checkpoint.name ∉ before.map (·.name)) :
    IsSchedule (before ++ after) where
  nonempty := by simp [hbefore.nonempty]
  positive := by
    intro checkpoint hmem
    exact (List.mem_append.1 hmem).elim (hbefore.positive _) (hafter.positive _)
  increasing := by
    refine List.pairwise_append.2 ⟨hbefore.increasing, hafter.increasing, ?_⟩
    intro early hearly late hlate'
    exact Nat.lt_of_le_of_lt (hbefore.le_warmup hearly) (hlate late hlate')
  named := by
    intro checkpoint hmem
    exact (List.mem_append.1 hmem).elim (hbefore.named _) (hafter.named _)
  distinct := by
    rw [List.map_append]
    refine List.nodup_append.2 ⟨hbefore.distinct, hafter.distinct, ?_⟩
    rintro name hname other hother rfl
    obtain ⟨late, hlate', rfl⟩ := List.mem_map.1 hother
    exact hnames late hlate' hname

theorem checkpoints_retypingDraft (plan : Plan) (access : Access) (warm : Element)
    (others : List Element) : (plan.retypingDraft access warm others).checkpoints =
      plan.schedule.checkpoints ++ plan.retypedCheckpoints others := rfl

/-- A draft that tries three types is fit if no checkpoint of the schedule is named after one of
them. -/
theorem isFit_retypingDraft {plan : Plan} (h : IsSchedule plan.schedule.checkpoints)
    (hzero : ∀ checkpoint ∈ plan.schedule.checkpoints, checkpoint.argumentSet = 0)
    (access : Access) {warm a b c : Element} (hdistinct : [a, b, c].Nodup)
    (hnames : ∀ e ∈ [a, b, c], retypedName e ∉ plan.schedule.checkpoints.map (·.name))
    (hmem : plan.retypingDraft access warm [a, b, c] ∈ plan.drafts) :
    (plan.retypingDraft access warm [a, b, c]).IsFit where
  id := plan.isFit_id hmem
  function := by
    have hvalid : ∀ access : Access, isFunctionName access.function = true := by
      intro access
      cases access <;> decide
    exact hvalid access
  sets := List.cons_ne_nil _ _
  arguments := by
    unfold retypingDraft
    simp [retypedArguments]
  schedule := by
    rw [checkpoints_retypingDraft]
    refine isSchedule_append h (plan.isSchedule_retypedCheckpoints hdistinct) ?_ ?_
    · simp [retypedCheckpoints_three]
    · simpa [retypedCheckpoints_three] using hnames
  chosen := by
    rw [checkpoints_retypingDraft, retypedCheckpoints_three, List.forall_mem_append]
    refine ⟨fun checkpoint hcheckpoint => ?_, by unfold retypingDraft; simp⟩
    rw [hzero checkpoint hcheckpoint]
    exact Nat.zero_lt_succ _
  reference := rfl

end Plan

end TierCheck
