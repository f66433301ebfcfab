import Mathlib.Algebra.Order.Floor.Semifield
import Mathlib.Data.Rat.Floor
import TierCheck.Catalog.Unwinding
import TierCheck.Proofs.Scenario.Validity

/-!
# Divided schedules

A divided schedule has the checkpoints of the schedule under new names, and each count is the least
that both its share of the calls and the counts before it allow. So its counts are the least ones
that increase and give every checkpoint its share, none of them is greater than the count it comes
from, and no sum on the way to them is greater than that count either.

* `Schedule.divided_eq_ok`: a divided schedule is a schedule.
* `Schedule.SharesOut`: counts that give every checkpoint its share.
* `Schedule.divideInWords?`: the division in words of 64 bits, where a sum may leave the word.
* `Schedule.divided_least`: the result.
-/
namespace TierCheck

/-! ## The checkpoints of a divided schedule -/

namespace Schedule

theorem lt_of_mem_divideFrom {divisor previous : Nat} {checkpoints : List Checkpoint}
    {checkpoint : Checkpoint} (h : checkpoint ∈ divideFrom divisor previous checkpoints) :
    previous < checkpoint.iterations := by
  induction checkpoints generalizing previous with
  | nil => cases h
  | cons first rest ih =>
    unfold divideFrom at h
    rcases List.mem_cons.1 h with rfl | h
    · exact Nat.lt_of_lt_of_le (Nat.lt_succ_self previous) (Nat.le_max_right _ _)
    · have hrest := ih h
      omega

theorem increasing_divideFrom (divisor previous : Nat) (checkpoints : List Checkpoint) :
    (divideFrom divisor previous checkpoints).Pairwise fun a b => a.iterations < b.iterations := by
  induction checkpoints generalizing previous with
  | nil => exact List.Pairwise.nil
  | cons first rest ih =>
    unfold divideFrom
    exact List.pairwise_cons.2 ⟨fun checkpoint hmem => lt_of_mem_divideFrom hmem, ih _⟩

theorem names_divideFrom (divisor previous : Nat) (checkpoints : List Checkpoint) :
    (divideFrom divisor previous checkpoints).map (·.name) =
      (checkpoints.map (·.name)).map fun name => "loop-" ++ name := by
  induction checkpoints generalizing previous with
  | nil => rfl
  | cons first rest ih =>
    unfold divideFrom
    rw [List.map_cons, List.map_cons, List.map_cons, ih]

theorem argumentSet_of_mem_divideFrom {divisor previous : Nat} {checkpoints : List Checkpoint}
    {checkpoint : Checkpoint} (h : checkpoint ∈ divideFrom divisor previous checkpoints) :
    checkpoint.argumentSet = 0 := by
  induction checkpoints generalizing previous with
  | nil => cases h
  | cons first rest ih =>
    unfold divideFrom at h
    rcases List.mem_cons.1 h with rfl | h
    · rfl
    · exact ih h

theorem isCheckpointName_loop {name : String} (h : isCheckpointName name = true) :
    isCheckpointName ("loop-" ++ name) = true := by
  have hblank : ("loop-".toList.any isBlank) = false := by decide
  have hquote : ("loop-".toList.contains '"') = false := by decide
  simp only [isCheckpointName, hasBlank, Bool.and_eq_true, Bool.not_eq_true',
    decide_eq_true_eq] at h ⊢
  refine ⟨⟨by simp, ?_⟩, ?_⟩
  · rw [String.toList_append, List.any_append, hblank, h.1.2]
    rfl
  · rw [String.toList_append, List.contains_append, hquote, h.2]
    rfl

theorem isSchedule_divideFrom (divisor : Nat) {checkpoints : List Checkpoint}
    (h : IsSchedule checkpoints) : IsSchedule (divideFrom divisor 0 checkpoints) where
  nonempty := by
    intro hnil
    have hnames := names_divideFrom divisor 0 checkpoints
    rw [hnil, List.map_nil, eq_comm, List.map_eq_nil_iff, List.map_eq_nil_iff] at hnames
    exact h.nonempty hnames
  positive := fun checkpoint hmem => lt_of_mem_divideFrom hmem
  increasing := increasing_divideFrom divisor 0 checkpoints
  named := by
    intro checkpoint hmem
    have hname : checkpoint.name ∈ (divideFrom divisor 0 checkpoints).map (·.name) :=
      List.mem_map_of_mem hmem
    rw [names_divideFrom] at hname
    obtain ⟨_, horiginal, hloop⟩ := List.mem_map.1 hname
    obtain ⟨original, hmem, rfl⟩ := List.mem_map.1 horiginal
    rw [← hloop]
    exact isCheckpointName_loop (h.named original hmem)
  distinct := by
    rw [names_divideFrom]
    refine h.distinct.map fun a b hab => ?_
    simpa [← String.toList_inj] using hab

/-- A divided schedule is a schedule. -/
theorem divided_eq_ok (s : Schedule) (h : IsSchedule s.checkpoints) (divisor : Nat) :
    s.divided divisor = .ok ⟨divideFrom divisor 0 s.checkpoints⟩ := by
  have hfault := (checkpointFault?_eq_none_iff _).2 (isSchedule_divideFrom divisor h)
  rw [divided, ofCheckpoints, hfault]

/-! ## The least counts -/

/-- The quotient, rounded up. -/
def share (divisor total : Nat) : Nat := ⌈(total / divisor : ℚ)⌉₊

/-- Positive and increasing counts, one for each of the given ones and none less than its share when
the given one is divided. -/
structure SharesOut (divisor : Nat) (given counts : List Nat) : Prop where
  positive : ∀ count ∈ counts, 0 < count
  increasing : counts.Pairwise (· < ·)
  enough : List.Forall₂ (fun total count => share divisor total ≤ count) given counts

theorem share_eq {divisor : Nat} (hdivisor : 0 < divisor) (total : Nat) :
    (total + (divisor - 1)) / divisor = share divisor total := by
  refine eq_of_forall_ge_iff fun count => ?_
  rw [share, Nat.div_le_iff_le_mul_add_pred hdivisor, Nat.add_le_add_iff_right, Nat.ceil_le,
    div_le_iff₀ (Nat.cast_pos.2 hdivisor), mul_comm]
  exact_mod_cast Iff.rfl

theorem share_le {divisor : Nat} (hdivisor : 0 < divisor) (total : Nat) :
    share divisor total ≤ total :=
  Nat.ceil_le.2 (div_le_self total.cast_nonneg (Nat.one_le_cast.2 hdivisor))

theorem enough_divideFrom {divisor : Nat} (hdivisor : 0 < divisor) (previous : Nat)
    (checkpoints : List Checkpoint) :
    List.Forall₂ (fun total count => share divisor total ≤ count) (checkpoints.map (·.iterations))
      ((divideFrom divisor previous checkpoints).map (·.iterations)) := by
  induction checkpoints generalizing previous with
  | nil => exact .nil
  | cons first rest ih =>
    refine .cons ?_ (ih _)
    rw [← share_eq hdivisor]
    exact Nat.le_max_left _ _

/-- Increasing counts above `previous` that give every checkpoint its share are nowhere less than
those that are divided from `previous` on. -/
theorem divideFrom_le {divisor : Nat} (hdivisor : 0 < divisor) {previous : Nat}
    {checkpoints : List Checkpoint} {counts : List Nat}
    (habove : ∀ count ∈ counts, previous < count) (hincreasing : counts.Pairwise (· < ·))
    (henough : List.Forall₂ (fun total count => share divisor total ≤ count)
      (checkpoints.map (·.iterations)) counts) :
    List.Forall₂ (· ≤ ·) ((divideFrom divisor previous checkpoints).map (·.iterations))
      counts := by
  induction checkpoints generalizing previous counts with
  | nil =>
    cases henough
    exact .nil
  | cons first rest ih =>
    cases henough with
    | @cons _ count _ later hshare hlater =>
      rw [List.forall_mem_cons] at habove
      rw [List.pairwise_cons] at hincreasing
      rw [← share_eq hdivisor] at hshare
      have hfirst : max ((first.iterations + (divisor - 1)) / divisor) (previous + 1) ≤ count :=
        Nat.max_le.2 ⟨hshare, habove.1⟩
      refine .cons hfirst (ih (fun other hmem => ?_) hincreasing.2 hlater)
      exact Nat.lt_of_le_of_lt hfirst (hincreasing.1 other hmem)

theorem sharesOut_divideFrom {divisor : Nat} (hdivisor : 0 < divisor)
    (checkpoints : List Checkpoint) :
    SharesOut divisor (checkpoints.map (·.iterations))
      ((divideFrom divisor 0 checkpoints).map (·.iterations)) where
  positive := List.forall_mem_map.2 fun _ hmem => lt_of_mem_divideFrom hmem
  increasing := List.pairwise_map.2 (increasing_divideFrom divisor 0 checkpoints)
  enough := enough_divideFrom hdivisor 0 checkpoints

/-- The counts of a schedule give every checkpoint its share and more. -/
theorem sharesOut_self {divisor : Nat} (hdivisor : 0 < divisor) {checkpoints : List Checkpoint}
    (h : IsSchedule checkpoints) :
    SharesOut divisor (checkpoints.map (·.iterations)) (checkpoints.map (·.iterations)) where
  positive := List.forall_mem_map.2 h.positive
  increasing := List.pairwise_map.2 h.increasing
  enough := List.forall₂_same.2 fun total _ => share_le hdivisor total

/-! ## Words -/

/-- The sum of two counts, if it has no more than 64 bits. -/
def wordSum? (a b : Nat) : Option Nat := if a + b < wordLimit 64 then some (a + b) else none

/-- A share in words: the quotient, and one more if there is a rest. Nothing is divided by zero. -/
def wordShare? (total divisor : Nat) : Option Nat :=
  if divisor = 0 then none
  else if total % divisor = 0 then some (total / divisor)
  else wordSum? (total / divisor) 1

/-- The checkpoints that `divideFrom` gives, if no sum on the way leaves the word. -/
def divideInWords? (divisor previous : Nat) : List Checkpoint → Option (List Checkpoint)
  | [] => some []
  | checkpoint :: rest => do
    let share ← wordShare? checkpoint.iterations divisor
    let next ← wordSum? previous 1
    let later ← divideInWords? divisor (max share next) rest
    return ⟨"loop-" ++ checkpoint.name, max share next, 0⟩ :: later

theorem share_eq_of_rest {divisor : Nat} (hdivisor : 0 < divisor) (total : Nat) :
    share divisor total = total / divisor + if total % divisor = 0 then 0 else 1 := by
  have hrest := Nat.mod_lt total hdivisor
  have hover : total + (divisor - 1) =
      total % divisor + (divisor - 1) + divisor * (total / divisor) := by
    rw [Nat.add_right_comm, Nat.mod_add_div]
  rw [← share_eq hdivisor, hover, Nat.add_mul_div_left _ _ hdivisor, Nat.add_comm]
  congr 1
  split
  · exact Nat.div_eq_of_lt (by omega)
  · exact Nat.div_eq_of_lt_le (by omega) (by omega)

theorem wordShare?_eq {divisor total : Nat} (hdivisor : 0 < divisor)
    (htotal : total < wordLimit 64) : wordShare? total divisor = some (share divisor total) := by
  have hle := share_le hdivisor total
  rw [share_eq_of_rest hdivisor] at hle ⊢
  unfold wordShare?
  rw [if_neg hdivisor.ne']
  by_cases hrest : total % divisor = 0
  · rw [if_pos hrest, if_pos hrest, Nat.add_zero]
  · rw [if_neg hrest] at hle ⊢
    rw [if_neg hrest]
    exact if_pos (Nat.lt_of_le_of_lt hle htotal)

/-- The counts stay below those they come from, so no sum leaves the word. -/
theorem divideInWords?_eq_some {divisor : Nat} (hdivisor : 0 < divisor) {previous : Nat}
    {checkpoints : List Checkpoint} (habove : ∀ checkpoint ∈ checkpoints,
      previous < checkpoint.iterations)
    (hincreasing : checkpoints.Pairwise fun a b => a.iterations < b.iterations)
    (hwords : ∀ checkpoint ∈ checkpoints, checkpoint.iterations < wordLimit 64) :
    divideInWords? divisor previous checkpoints =
      some (divideFrom divisor previous checkpoints) := by
  induction checkpoints generalizing previous with
  | nil => rfl
  | cons first rest ih =>
    rw [List.forall_mem_cons] at habove hwords
    rw [List.pairwise_cons] at hincreasing
    have hshare := share_le hdivisor first.iterations
    have hnext : wordSum? previous 1 = some (previous + 1) := if_pos (by omega)
    have hlater := @ih (max (share divisor first.iterations) (previous + 1))
      (fun later hmem => by have := hincreasing.1 later hmem; omega) hincreasing.2 hwords.2
    rw [divideInWords?, wordShare?_eq hdivisor hwords.1, hnext, divideFrom, share_eq hdivisor]
    simp only [Option.bind_eq_bind, Option.bind_some, hlater]
    rfl

/-- **Division keeps the counts as low as can be.** A schedule divides without a failure and without
leaving the word. Its checkpoints keep their order and have their names marked, and their counts
are the least of those that give every checkpoint its share, so none of them grows. -/
theorem divided_least (checkpoints : List Checkpoint) (s : Schedule)
    (hs : ofCheckpoints checkpoints = .ok s)
    (hwords : ∀ checkpoint ∈ checkpoints, checkpoint.iterations < wordLimit 64) (divisor : Nat)
    (hdivisor : 0 < divisor) :
    ∃ divided, s.divided divisor = .ok divided ∧
      divideInWords? divisor 0 checkpoints = some divided.checkpoints ∧
      divided.checkpoints.map (·.name) =
        (checkpoints.map (·.name)).map (fun name => "loop-" ++ name) ∧
      (∀ checkpoint ∈ divided.checkpoints, checkpoint.argumentSet = 0) ∧
      SharesOut divisor (checkpoints.map (·.iterations))
        (divided.checkpoints.map (·.iterations)) ∧
      (∀ counts, SharesOut divisor (checkpoints.map (·.iterations)) counts →
        List.Forall₂ (· ≤ ·) (divided.checkpoints.map (·.iterations)) counts) ∧
      List.Forall₂ (· ≤ ·) (divided.checkpoints.map (·.iterations))
        (checkpoints.map (·.iterations)) := by
  obtain ⟨rfl, hschedule⟩ := ofCheckpoints_eq_ok_iff.1 hs
  have hleast : ∀ counts, SharesOut divisor (checkpoints.map (·.iterations)) counts →
      List.Forall₂ (· ≤ ·) ((divideFrom divisor 0 checkpoints).map (·.iterations)) counts :=
    fun counts h => divideFrom_le hdivisor h.positive h.increasing h.enough
  exact ⟨_, divided_eq_ok _ hschedule divisor,
    divideInWords?_eq_some hdivisor hschedule.positive hschedule.increasing hwords,
    names_divideFrom divisor 0 checkpoints, fun _ => argumentSet_of_mem_divideFrom,
    sharesOut_divideFrom hdivisor checkpoints, hleast,
    hleast _ (sharesOut_self hdivisor hschedule)⟩

/-- Three counts whose shares are the same, and the greatest one of 64 bits. -/
theorem divided_least_ties :
    let checkpoints : List Checkpoint :=
      [⟨"a", 4, 0⟩, ⟨"b", 5, 0⟩, ⟨"c", 6, 1⟩, ⟨"d", wordLimit 64 - 1, 0⟩]
    ofCheckpoints checkpoints = .ok ⟨checkpoints⟩ ∧
      (∀ checkpoint ∈ checkpoints, checkpoint.iterations < wordLimit 64) ∧
      ∃ divided, Schedule.divided ⟨checkpoints⟩ 3 = .ok divided ∧
        divideInWords? 3 0 checkpoints = some divided.checkpoints ∧
        divided.checkpoints = [⟨"loop-a", 2, 0⟩, ⟨"loop-b", 3, 0⟩, ⟨"loop-c", 4, 0⟩,
          ⟨"loop-d", 6148914691236517205, 0⟩] ∧
        SharesOut 3 [4, 5, 6, wordLimit 64 - 1] [2, 3, 4, 6148914691236517205] ∧
        ∀ counts, SharesOut 3 [4, 5, 6, wordLimit 64 - 1] counts →
          List.Forall₂ (· ≤ ·) [2, 3, 4, 6148914691236517205] counts := by
  intro checkpoints
  have hs : ofCheckpoints checkpoints = .ok ⟨checkpoints⟩ :=
    ofCheckpoints_eq_ok_iff.2 ⟨rfl, (checkpointFault?_eq_none_iff _).1 (by decide +kernel)⟩
  have hwords : ∀ checkpoint ∈ checkpoints, checkpoint.iterations < wordLimit 64 := by
    decide +kernel
  obtain ⟨divided, hdivided, hword, -, -, hshares, hleast, -⟩ :=
    divided_least checkpoints ⟨checkpoints⟩ hs hwords 3 (by decide)
  have heq : divided.checkpoints = [⟨"loop-a", 2, 0⟩, ⟨"loop-b", 3, 0⟩, ⟨"loop-c", 4, 0⟩,
      ⟨"loop-d", 6148914691236517205, 0⟩] := by
    refine Option.some.inj (hword.symm.trans ?_)
    decide +kernel
  rw [heq] at hshares hleast
  exact ⟨hs, hwords, divided, hdivided, hword, heq, hshares, hleast⟩

end Schedule
end TierCheck
