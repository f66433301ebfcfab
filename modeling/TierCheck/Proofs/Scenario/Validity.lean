import Mathlib.Data.List.Nodup
import TierCheck.Failure
import TierCheck.Scenario.Basic

/-!
# When a scenario is fit to run

The checks go through a scenario in a fixed order and name the first fault. A valid scenario has at
least one checkpoint, and the names of its checkpoints are fit for report lines. Then the checks are
taken together: what has to hold of all checkpoints and of all argument sets for no fault to be
found.

* `sumScenario`: a valid scenario to look at.
* `IsSchedule`: checkpoints in which the check finds no fault.
* `Scenario.isValid_iff`: a scenario in which the check finds no fault.
* `Draft.IsFit`: a draft that can be built, and `Draft.build_eq_ok_iff`: what is built of it.
-/
namespace TierCheck

theorem isCheckpointName_of_nameFault?_eq_none {checkpoints : List Checkpoint} :
    ∀ {seen : List String}, nameFault? seen checkpoints = none →
      ∀ checkpoint ∈ checkpoints, isCheckpointName checkpoint.name = true := by
  induction checkpoints with
  | nil => intro _ _ checkpoint hmem; cases hmem
  | cons first rest ih =>
    intro seen h checkpoint hmem
    rw [nameFault?] at h
    split at h
    · cases h
    · next hname =>
      split at h
      · cases h
      · rcases List.mem_cons.1 hmem with rfl | hmem
        · simpa using hname
        · exact ih h checkpoint hmem

theorem checkpointFault?_eq_none {checkpoints : List Checkpoint}
    (h : checkpointFault? checkpoints = none) :
    checkpoints ≠ [] ∧ nameFault? [] checkpoints = none := by
  unfold checkpointFault? at h
  split at h
  · cases h
  · split at h
    · cases h
    · exact ⟨List.cons_ne_nil _ _, (Option.or_eq_none_iff.1 h).2⟩

namespace Scenario.IsValid

variable {s : Scenario}

theorem checkpointFault?_eq_none (h : s.IsValid) : checkpointFault? s.checkpoints = none := by
  unfold IsValid fault? at h
  repeat' split at h
  all_goals first
    | cases h
    | (simp only [Option.or_eq_none_iff, Option.map_eq_none_iff] at h; exact h.2.1)

theorem checkpoints_ne_nil (h : s.IsValid) : s.checkpoints ≠ [] :=
  (TierCheck.checkpointFault?_eq_none h.checkpointFault?_eq_none).1

theorem isCheckpointName (h : s.IsValid) {checkpoint : Checkpoint}
    (hmem : checkpoint ∈ s.checkpoints) : isCheckpointName checkpoint.name = true :=
  isCheckpointName_of_nameFault?_eq_none
    (TierCheck.checkpointFault?_eq_none h.checkpointFault?_eq_none).2 checkpoint hmem

end Scenario.IsValid

/-! ## A small scenario -/

/-- The sum of two numbers, and no result for other arguments. -/
def sumOfNumbers : List Value → Value
  | [.number a, .number b] => .number (a + b)
  | _ => .undefined

/-- A valid scenario with two checkpoints, the second of which has a colon in its name. -/
def sumScenario : Scenario :=
  { id := "arity/sum2"
    family := .arity
    description := "sum of two numbers"
    arity := 2
    parameters := [.integer, .integer]
    returns := .integer
    zeroSign := false
    expectation := .strict
    checkpoints := [⟨"warm", 10, 0⟩, ⟨"retype:hot", 100, 0⟩]
    function := "sum2"
    source := "function sum2(a, b) { return a + b; }"
    argumentSets := [[.ofNat 1, .ofNat 2]]
    reference := sumOfNumbers }

theorem sumScenario_isValid : sumScenario.IsValid := by rfl

/-! ## Checkpoints -/

/-- Increasing counts of calls, none of them zero, under different names that can stand in a
report line. -/
structure IsSchedule (checkpoints : List Checkpoint) : Prop where
  nonempty : checkpoints ≠ []
  positive : ∀ checkpoint ∈ checkpoints, 0 < checkpoint.iterations
  increasing : checkpoints.Pairwise fun a b => a.iterations < b.iterations
  named : ∀ checkpoint ∈ checkpoints, isCheckpointName checkpoint.name = true
  distinct : (checkpoints.map (·.name)).Nodup

theorem orderFault?_eq_none_iff (checkpoints : List Checkpoint) :
    orderFault? checkpoints = none ↔
      checkpoints.Pairwise fun a b => a.iterations < b.iterations := by
  induction checkpoints with
  | nil => simp [orderFault?]
  | cons earlier rest ih =>
    cases rest with
    | nil => simp [orderFault?]
    | cons later rest =>
      unfold orderFault?
      by_cases hle : later.iterations ≤ earlier.iterations
      · rw [if_pos hle]
        constructor
        · intro h
          cases h
        · intro h
          have hlt := List.rel_of_pairwise_cons h List.mem_cons_self
          omega
      · rw [if_neg hle, ih, List.pairwise_cons (a := earlier)]
        refine ⟨fun h => ⟨fun checkpoint hmem => ?_, h⟩, fun h => h.2⟩
        rcases List.mem_cons.1 hmem with rfl | hmem
        · omega
        · have hlater := List.rel_of_pairwise_cons h hmem
          omega

theorem nameFault?_eq_none_iff (seen : List String) (checkpoints : List Checkpoint) :
    nameFault? seen checkpoints = none ↔
      (∀ checkpoint ∈ checkpoints,
        isCheckpointName checkpoint.name = true ∧ checkpoint.name ∉ seen) ∧
      (checkpoints.map (·.name)).Nodup := by
  induction checkpoints generalizing seen with
  | nil => simp [nameFault?]
  | cons first rest ih =>
    unfold nameFault?
    by_cases hname : isCheckpointName first.name = true
    · by_cases hseen : first.name ∈ seen
      · simp [hname, hseen]
      · rw [if_neg (by simp [hname]), if_neg hseen, ih]
        simp only [List.mem_cons, not_or, List.map_cons, List.nodup_cons, List.mem_map,
          not_exists, not_and, forall_eq_or_imp]
        grind
    · simp [hname]

theorem checkpointFault?_eq_none_iff (checkpoints : List Checkpoint) :
    checkpointFault? checkpoints = none ↔ IsSchedule checkpoints := by
  cases checkpoints with
  | nil =>
    constructor
    · intro h
      cases h
    · intro h
      exact absurd rfl h.nonempty
  | cons first rest =>
    unfold checkpointFault?
    by_cases hzero : first.iterations = 0
    · simp only [hzero, if_true, reduceCtorEq, false_iff]
      intro h
      have hpos := h.positive first List.mem_cons_self
      omega
    · simp only [if_neg hzero, Option.or_eq_none_iff, orderFault?_eq_none_iff,
        nameFault?_eq_none_iff]
      constructor
      · rintro ⟨horder, hnames, hdistinct⟩
        refine ⟨List.cons_ne_nil _ _, fun checkpoint hmem => ?_, horder,
          fun checkpoint hmem => (hnames checkpoint hmem).1, hdistinct⟩
        rcases List.mem_cons.1 hmem with rfl | hmem
        · omega
        · have hlt := List.rel_of_pairwise_cons horder hmem
          omega
      · intro h
        exact ⟨h.increasing, fun checkpoint hmem => ⟨h.named checkpoint hmem, List.not_mem_nil⟩,
          h.distinct⟩

theorem Schedule.ofCheckpoints_eq_ok_iff {checkpoints : List Checkpoint} {schedule : Schedule} :
    Schedule.ofCheckpoints checkpoints = .ok schedule ↔
      schedule = ⟨checkpoints⟩ ∧ IsSchedule checkpoints := by
  rw [← checkpointFault?_eq_none_iff]
  unfold Schedule.ofCheckpoints
  cases checkpointFault? checkpoints <;> simp [eq_comm]

theorem Schedule.isSchedule_standard : IsSchedule Schedule.standard.checkpoints :=
  (checkpointFault?_eq_none_iff _).1 (by decide)

theorem warmup_concat (checkpoints : List Checkpoint) (last : Checkpoint) :
    warmup (checkpoints ++ [last]) = last.iterations := by
  simp [warmup]

/-- The last checkpoint of a schedule is sampled after all others. -/
theorem IsSchedule.le_warmup {checkpoints : List Checkpoint} (h : IsSchedule checkpoints)
    {checkpoint : Checkpoint} (hmem : checkpoint ∈ checkpoints) :
    checkpoint.iterations ≤ warmup checkpoints := by
  rcases List.eq_nil_or_concat checkpoints with rfl | ⟨before, last, rfl⟩
  · cases hmem
  · rw [List.concat_eq_append, warmup_concat]
    rw [List.concat_eq_append] at h hmem
    rcases List.mem_append.1 hmem with hmem | hmem
    · have hlt := (List.pairwise_append.1 h.increasing).2.2 checkpoint hmem last List.mem_cons_self
      omega
    · exact Nat.le_of_eq (congrArg Checkpoint.iterations (List.mem_singleton.1 hmem))

theorem IsSchedule.warmup_pos {checkpoints : List Checkpoint} (h : IsSchedule checkpoints) :
    0 < warmup checkpoints := by
  obtain ⟨first, hfirst⟩ := List.exists_mem_of_ne_nil _ h.nonempty
  exact Nat.lt_of_lt_of_le (h.positive first hfirst) (h.le_warmup hfirst)

/-! ## Scenarios -/

namespace Scenario

theorem argumentFault?_eq_none_iff (arity place : Nat) (sets : List (List Value)) :
    argumentFault? arity place sets = none ↔ ∀ set ∈ sets, set.length = arity := by
  induction sets generalizing place with
  | nil => simp [argumentFault?]
  | cons set rest ih =>
    unfold argumentFault?
    by_cases hlength : set.length = arity <;> simp [hlength, ih]

theorem setFault?_eq_none_iff (available : Nat) (checkpoints : List Checkpoint) :
    setFault? available checkpoints = none ↔
      ∀ checkpoint ∈ checkpoints, checkpoint.argumentSet < available := by
  induction checkpoints with
  | nil => simp [setFault?]
  | cons checkpoint rest ih =>
    unfold setFault?
    by_cases hset : checkpoint.argumentSet < available <;> simp [hset, ih]

theorem isValid_iff (s : Scenario) :
    s.IsValid ↔ (s.id ≠ "" ∧ hasBlank s.id = false) ∧ s.parameters.length = s.arity ∧
      isFunctionName s.function = true ∧ s.argumentSets ≠ [] ∧
      (∀ set ∈ s.argumentSets, set.length = s.arity) ∧ IsSchedule s.checkpoints ∧
      ∀ checkpoint ∈ s.checkpoints, checkpoint.argumentSet < s.argumentSets.length := by
  -- checkpoints without a fault come after a call, so the last one is never the fault
  have hwarmup : checkpointFault? s.checkpoints = none → s.warmup ≠ 0 := by
    intro h
    have hpos := ((checkpointFault?_eq_none_iff _).1 h).warmup_pos
    exact Nat.ne_of_gt hpos
  rw [← argumentFault?_eq_none_iff s.arity 0, ← checkpointFault?_eq_none_iff,
    ← setFault?_eq_none_iff]
  unfold IsValid fault?
  by_cases hid : s.id = "" ∨ hasBlank s.id = true
  · simp only [hid, if_true]
    grind
  · rw [if_neg hid]
    grind [Option.or_eq_none_iff, Option.map_eq_none_iff]

end Scenario

/-! ## Drafts -/

structure Draft.IsFit (d : Draft) : Prop where
  id : d.id ≠ "" ∧ hasBlank d.id = false
  function : isFunctionName d.function = true
  sets : d.argumentSets ≠ []
  arguments : ∀ set ∈ d.argumentSets, set.length = d.parameters.length
  schedule : IsSchedule d.checkpoints
  chosen : ∀ checkpoint ∈ d.checkpoints, checkpoint.argumentSet < d.argumentSets.length
  reference : d.reference?.isSome = true

namespace Draft

variable {d : Draft} {s : Scenario}

theorem build_eq_ok_iff : d.build = .ok s ↔
    ∃ reference, d.reference? = some reference ∧ s = d.toScenario reference ∧ s.IsValid := by
  unfold build
  cases hreference : d.reference? with
  | none => simp
  | some reference =>
    have hcheck := (d.toScenario reference).check_eq_ok_iff
    have hbuild : ((do (d.toScenario reference).check; return d.toScenario reference) :
        Except Failure Scenario) = .ok s ↔
          s = d.toScenario reference ∧ (d.toScenario reference).IsValid := by
      rw [← hcheck]
      cases (d.toScenario reference).check with
      | error e => constructor <;> simp [bind, Except.bind]
      | ok _ => simp [bind, Except.bind, pure, Except.pure, eq_comm]
    simp only [hbuild]
    constructor
    · rintro ⟨rfl, hs⟩
      exact ⟨reference, rfl, rfl, hs⟩
    · rintro ⟨_, hsome, rfl, hs⟩
      cases hsome
      exact ⟨rfl, hs⟩

theorem exists_build_iff : (∃ s, d.build = .ok s) ↔ d.IsFit := by
  constructor
  · rintro ⟨s, hs⟩
    obtain ⟨reference, hreference, rfl, hvalid⟩ := build_eq_ok_iff.1 hs
    obtain ⟨hid, -, hfunction, hsets, harguments, hschedule, hchosen⟩ :=
      (Scenario.isValid_iff _).1 hvalid
    exact ⟨hid, hfunction, hsets, harguments, hschedule, hchosen, by rw [hreference]; rfl⟩
  · intro h
    obtain ⟨reference, hreference⟩ := Option.isSome_iff_exists.1 h.reference
    refine ⟨_, build_eq_ok_iff.2 ⟨reference, hreference, rfl, ?_⟩⟩
    exact (Scenario.isValid_iff _).2 ⟨h.id, rfl, h.function, h.sets, h.arguments, h.schedule,
      h.chosen⟩

end Draft

end TierCheck
