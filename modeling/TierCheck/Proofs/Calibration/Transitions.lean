import Mathlib.Data.List.Range
import TierCheck.Calibration
import TierCheck.Proofs.Catalog.Identity
import TierCheck.Proofs.Event.RoundTrip
import TierCheck.Proofs.Number.Scaling
import TierCheck.Proofs.Scenario.Validity

/-!
# What a calibration detects

A batch of calls can be measured if it has calls and they took time. The time per call of the first
one is the level, and every later one that needs at most half of it is a transition: the level falls
to its time per call. The schedule has a checkpoint at the end of the first batch that can be
measured and at each transition, and one at twice the last of them. There is such a schedule unless
the numbers of calls reach the end of their range, where twice the number of calls is no greater.

* `Measurement`, `measurements`: the batches that can be measured.
* `Descends`: the measurements at which the level falls.
* `foldl_step_start`: the checkpoints of a calibration are those of the transitions.
* `isSchedule_detected_iff`: when they make a schedule.
* `schedule?_detects`: the result.
-/
namespace TierCheck.Calibration

/-! ## Batches that can be measured -/

/-- The batch has calls, and they took time. -/
def IsMeasurable (batch : Nat × Double) : Prop := 0 < batch.1 ∧ Double.zero < batch.2

instance : DecidablePred IsMeasurable := fun _ => inferInstanceAs (Decidable (_ ∧ _))

/-- The end of a batch that can be measured. -/
structure Measurement where
  /-- The number of calls so far, held in 64 bits. -/
  total : Nat
  /-- The time per call of the batch. -/
  cost : Double
deriving DecidableEq, Repr

/-- The ends of the batches that can be measured, when `before` calls were made before the first
batch. The other batches only count toward the totals. -/
def measurements (before : Nat) : List (Nat × Double) → List Measurement
  | [] => []
  | batch :: rest =>
    let later := measurements (before + batch.1) rest
    if IsMeasurable batch then
      ⟨saturate (before + batch.1), batch.2 / Double.ofNat batch.1⟩ :: later
    else later

theorem measurements_append (before : Nat) (a b : List (Nat × Double)) :
    measurements before (a ++ b) =
      measurements before a ++ measurements (before + (a.map (·.1)).sum) b := by
  induction a generalizing before with
  | nil => rfl
  | cons batch rest ih =>
    rw [List.cons_append, measurements, measurements, ih, List.map_cons, List.sum_cons,
      ← Nat.add_assoc]
    split <;> rfl

theorem measurements_eq_nil {batches : List (Nat × Double)}
    (h : ∀ batch ∈ batches, ¬IsMeasurable batch) (before : Nat) :
    measurements before batches = [] := by
  induction batches generalizing before with
  | nil => rfl
  | cons batch rest ih =>
    rw [measurements, if_neg (h batch List.mem_cons_self)]
    exact ih (fun other hmem => h other (List.mem_cons_of_mem _ hmem)) _

/-! ### Totals -/

theorem saturate_add (a b : Nat) : saturate (saturate a + b) = saturate (a + b) := by
  unfold saturate
  omega

theorem saturate_le (n : Nat) : saturate n ≤ wordLimit 64 - 1 := Nat.min_le_right _ _

/-- More calls are a greater total, or the total is the greatest one. -/
theorem saturate_lt_or_eq {a b : Nat} (h : a < b) :
    saturate a < saturate b ∨ saturate b = wordLimit 64 - 1 := by
  unfold saturate
  omega

theorem exists_total_eq {before : Nat} {batches : List (Nat × Double)} {m : Measurement}
    (h : m ∈ measurements before batches) : ∃ n, before < n ∧ m.total = saturate n := by
  induction batches generalizing before with
  | nil => cases h
  | cons batch rest ih =>
    rw [measurements] at h
    split at h
    · next hmeasurable =>
      have hcalls := hmeasurable.1
      rcases List.mem_cons.1 h with rfl | h
      · exact ⟨before + batch.1, by omega, rfl⟩
      · obtain ⟨n, hn, htotal⟩ := ih h
        exact ⟨n, by omega, htotal⟩
    · obtain ⟨n, hn, htotal⟩ := ih h
      exact ⟨n, by omega, htotal⟩

theorem total_pos {before : Nat} {batches : List (Nat × Double)} {m : Measurement}
    (h : m ∈ measurements before batches) : 0 < m.total := by
  obtain ⟨n, hn, htotal⟩ := exists_total_eq h
  have hlimit : 0 < wordLimit 64 - 1 := by decide
  rw [htotal, saturate]
  omega

/-- Of two measurements the later one has the greater total, or the greatest one. -/
theorem pairwise_measurements (before : Nat) (batches : List (Nat × Double)) :
    (measurements before batches).Pairwise fun a b =>
      a.total < b.total ∨ b.total = wordLimit 64 - 1 := by
  induction batches generalizing before with
  | nil => exact .nil
  | cons batch rest ih =>
    rw [measurements]
    split
    · refine List.pairwise_cons.2 ⟨fun m hm => ?_, ih _⟩
      obtain ⟨n, hn, htotal⟩ := exists_total_eq hm
      rw [htotal]
      exact saturate_lt_or_eq hn
    · exact ih _

/-! ## Transitions -/

/-- The one time is at most half of the other one. -/
def IsHalf (cost level : Double) : Prop :=
  ∃ a b : ℚ, cost.StandsFor a ∧ level.StandsFor b ∧ 2 * a ≤ b

theorem mul_two_le_iff_isHalf {cost level : Double} (hcost : cost.isFinite = true)
    (hlevel : level.isFinite = true) : cost * Double.ofNat 2 ≤ level ↔ IsHalf cost level := by
  obtain ⟨a, ha⟩ := Double.isFinite_iff_standsFor.1 hcost
  obtain ⟨b, hb⟩ := Double.isFinite_iff_standsFor.1 hlevel
  rw [ha.mul_two_le_iff hb]
  constructor
  · exact fun h => ⟨a, b, ha, hb, h⟩
  · rintro ⟨a', b', ha', hb', h⟩
    rwa [ha.number_unique ha', hb.number_unique hb']

/-- The measurements at which the level falls: those that need at most half of the time per call
that the level stands at, which is then the new level. -/
inductive Descends : Double → List Measurement → List Measurement → Prop
  | done (level : Double) : Descends level [] []
  | stays {level : Double} {m : Measurement} {rest transitions : List Measurement} :
    ¬IsHalf m.cost level → Descends level rest transitions →
    Descends level (m :: rest) transitions
  | falls {level : Double} {m : Measurement} {rest transitions : List Measurement} :
    IsHalf m.cost level → Descends m.cost rest transitions →
    Descends level (m :: rest) (m :: transitions)

theorem Descends.unique {level : Double} {rest transitions transitions' : List Measurement}
    (h : Descends level rest transitions) (h' : Descends level rest transitions') :
    transitions = transitions' := by
  induction h generalizing transitions' with
  | done => cases h'; rfl
  | stays hstays _ ih =>
    cases h' with
    | stays _ hrest => exact ih hrest
    | falls hfalls _ => exact absurd hfalls hstays
  | falls hfalls _ ih =>
    cases h' with
    | stays hstays _ => exact absurd hfalls hstays
    | falls _ hrest => rw [ih hrest]

theorem Descends.sublist {level : Double} {rest transitions : List Measurement}
    (h : Descends level rest transitions) : transitions.Sublist rest := by
  induction h with
  | done => exact .slnil
  | stays _ _ ih => exact ih.cons _
  | falls _ _ ih => exact ih.cons_cons _

def tierName (place : Nat) : String := "tier-" ++ naturalText place

/-- The checkpoints of transitions, the first of which is number `place`. -/
def tiers (place : Nat) : List Measurement → List Checkpoint
  | [] => []
  | m :: rest => ⟨tierName place, m.total, 0⟩ :: tiers (place + 1) rest

/-- The checkpoints of a calibration with these transitions after its first measurement. -/
def detected (first : Measurement) (transitions : List Measurement) : List Checkpoint :=
  ⟨"interpreted", first.total, 0⟩ :: tiers 1 transitions

/-! ## Steps -/

/-- Whether a batch is left out, where its time is finite. -/
theorem skipped_iff {batch : Nat × Double} (h : batch.2.isFinite = true) :
    (batch.1 = 0 ∨ batch.2 ≤ Double.zero) ↔ ¬IsMeasurable batch := by
  obtain ⟨a, ha⟩ := Double.isFinite_iff_standsFor.1 h
  rw [IsMeasurable, ha.le_iff Double.standsFor_zero, Double.standsFor_zero.lt_iff ha, not_and_or,
    Nat.not_lt, Nat.le_zero, not_lt]

variable {c : Calibration} {batch : Nat × Double} {before : Nat} {level : Double}

theorem step_eq (c : Calibration) (batch : Nat × Double) :
    c.step batch =
      if batch.1 = 0 ∨ batch.2 ≤ Double.zero then
        { c with total := saturate (c.total + batch.1) }
      else
        match c.level with
        | none =>
          { total := saturate (c.total + batch.1)
            level := some (batch.2 / Double.ofNat batch.1)
            checkpoints := [⟨"interpreted", saturate (c.total + batch.1), 0⟩] }
        | some level =>
          if batch.2 / Double.ofNat batch.1 * Double.ofNat 2 ≤ level then
            { total := saturate (c.total + batch.1)
              level := some (batch.2 / Double.ofNat batch.1)
              checkpoints := c.checkpoints ++
                [⟨tierName c.checkpoints.length, saturate (c.total + batch.1), 0⟩] }
          else { c with total := saturate (c.total + batch.1) } := rfl

theorem total_step (c : Calibration) (batch : Nat × Double) :
    (c.step batch).total = saturate (c.total + batch.1) := by
  rw [step_eq]
  split
  · rfl
  · split
    · rfl
    · split <;> rfl

theorem step_skipped (hfinite : batch.2.isFinite = true) (h : ¬IsMeasurable batch) :
    (c.step batch).level = c.level ∧ (c.step batch).checkpoints = c.checkpoints := by
  rw [step_eq, if_pos ((skipped_iff hfinite).2 h)]
  exact ⟨rfl, rfl⟩

theorem step_first (hfinite : batch.2.isFinite = true) (h : IsMeasurable batch)
    (hlevel : c.level = none) :
    (c.step batch).level = some (batch.2 / Double.ofNat batch.1) ∧
      (c.step batch).checkpoints = [⟨"interpreted", (c.step batch).total, 0⟩] := by
  rw [step_eq, if_neg fun hskip => (skipped_iff hfinite).1 hskip h, hlevel]
  exact ⟨rfl, rfl⟩

theorem step_falls (hfinite : batch.2.isFinite = true) (h : IsMeasurable batch)
    (hlevel : c.level = some level) (hlevelFinite : level.isFinite = true)
    (hhalf : IsHalf (batch.2 / Double.ofNat batch.1) level) :
    (c.step batch).level = some (batch.2 / Double.ofNat batch.1) ∧
      (c.step batch).checkpoints =
        c.checkpoints ++ [⟨tierName c.checkpoints.length, (c.step batch).total, 0⟩] := by
  rw [← mul_two_le_iff_isHalf (Double.isFinite_div_ofNat hfinite h.1) hlevelFinite] at hhalf
  rw [step_eq, if_neg fun hskip => (skipped_iff hfinite).1 hskip h, hlevel]
  dsimp only
  rw [if_pos hhalf]
  exact ⟨rfl, rfl⟩

theorem step_stays (hfinite : batch.2.isFinite = true) (h : IsMeasurable batch)
    (hlevel : c.level = some level) (hlevelFinite : level.isFinite = true)
    (hhalf : ¬IsHalf (batch.2 / Double.ofNat batch.1) level) :
    (c.step batch).level = some level ∧ (c.step batch).checkpoints = c.checkpoints := by
  rw [← mul_two_le_iff_isHalf (Double.isFinite_div_ofNat hfinite h.1) hlevelFinite] at hhalf
  rw [step_eq, if_neg fun hskip => (skipped_iff hfinite).1 hskip h, hlevel]
  dsimp only
  rw [if_neg hhalf]
  exact ⟨rfl, rfl⟩

/-! ## Runs -/

/-- After the first measurement a run adds the checkpoints of its transitions. -/
theorem foldl_step_level {batches : List (Nat × Double)}
    (hfinite : ∀ batch ∈ batches, batch.2.isFinite = true) (htotal : c.total = saturate before)
    (hlevel : c.level = some level) (hlevelFinite : level.isFinite = true) :
    ∃ transitions, Descends level (measurements before batches) transitions ∧
      (batches.foldl step c).checkpoints =
        c.checkpoints ++ tiers c.checkpoints.length transitions := by
  induction batches generalizing c level before with
  | nil => exact ⟨[], .done level, (List.append_nil _).symm⟩
  | cons batch rest ih =>
    obtain ⟨hbatch, hrest⟩ := List.forall_mem_cons.1 hfinite
    have htotal' : (c.step batch).total = saturate (before + batch.1) := by
      rw [total_step, htotal, saturate_add]
    rw [List.foldl_cons, measurements]
    by_cases hmeasurable : IsMeasurable batch
    · rw [if_pos hmeasurable]
      by_cases hhalf : IsHalf (batch.2 / Double.ofNat batch.1) level
      · obtain ⟨hlevel', hcheckpoints⟩ :=
          step_falls hbatch hmeasurable hlevel hlevelFinite hhalf
        obtain ⟨transitions, hdescends, hmore⟩ :=
          ih hrest htotal' hlevel' (Double.isFinite_div_ofNat hbatch hmeasurable.1)
        refine ⟨_ :: transitions, .falls hhalf hdescends, ?_⟩
        rw [hmore, hcheckpoints, htotal', tiers, List.append_assoc, List.length_append]
        rfl
      · obtain ⟨hlevel', hcheckpoints⟩ :=
          step_stays hbatch hmeasurable hlevel hlevelFinite hhalf
        obtain ⟨transitions, hdescends, hmore⟩ := ih hrest htotal' hlevel' hlevelFinite
        rw [hcheckpoints] at hmore
        exact ⟨transitions, .stays hhalf hdescends, hmore⟩
    · obtain ⟨hlevel', hcheckpoints⟩ := step_skipped (c := c) hbatch hmeasurable
      rw [if_neg hmeasurable, ← hcheckpoints]
      exact ih hrest htotal' (hlevel'.trans hlevel) hlevelFinite

/-- A run has no checkpoints before its first measurement, and after it those of the transitions. -/
theorem foldl_step_start {batches : List (Nat × Double)}
    (hfinite : ∀ batch ∈ batches, batch.2.isFinite = true) (htotal : c.total = saturate before)
    (hlevel : c.level = none) (hcheckpoints : c.checkpoints = []) :
    (measurements before batches = [] ∧ (batches.foldl step c).checkpoints = []) ∨
      ∃ first rest transitions, measurements before batches = first :: rest ∧
        Descends first.cost rest transitions ∧
        (batches.foldl step c).checkpoints = detected first transitions := by
  induction batches generalizing c before with
  | nil => exact .inl ⟨rfl, hcheckpoints⟩
  | cons batch rest ih =>
    obtain ⟨hbatch, hrest⟩ := List.forall_mem_cons.1 hfinite
    have htotal' : (c.step batch).total = saturate (before + batch.1) := by
      rw [total_step, htotal, saturate_add]
    rw [List.foldl_cons, measurements]
    by_cases hmeasurable : IsMeasurable batch
    · obtain ⟨hlevel', hfirst⟩ := step_first hbatch hmeasurable hlevel
      obtain ⟨transitions, hdescends, hmore⟩ :=
        foldl_step_level hrest htotal' hlevel' (Double.isFinite_div_ofNat hbatch hmeasurable.1)
      rw [hfirst, htotal'] at hmore
      rw [if_pos hmeasurable]
      exact .inr ⟨_, _, transitions, rfl, hdescends, hmore⟩
    · obtain ⟨hlevel', hsame⟩ := step_skipped (c := c) hbatch hmeasurable
      rw [if_neg hmeasurable]
      exact ih hrest htotal' (hlevel'.trans hlevel) (hsame.trans hcheckpoints)

/-! ## Names -/

theorem tierName_injective : Function.Injective tierName := by
  intro a b h
  have hlist := congrArg String.toList h
  simp only [tierName, naturalText, String.toList_append, String.toList_ofList] at hlist
  exact toDigits_inj (List.append_cancel_left hlist)

theorem tierName_ne {name : String} (h : name.toList.head? ≠ some 't') (place : Nat) :
    tierName place ≠ name := by
  rintro rfl
  exact h (by simp [tierName, String.toList_append])

theorem isCheckpointName_tierName (place : Nat) : isCheckpointName (tierName place) = true := by
  have hchars : ∀ c ∈ (tierName place).toList, c ∈ "tier-".toList ∨ c.isDigit = true := by
    intro c hc
    simp only [tierName, naturalText, String.toList_append, String.toList_ofList,
      List.mem_append] at hc
    exact hc.imp id isDigit_of_mem_toDigits
  have hne : tierName place ≠ "" := tierName_ne (by decide) place
  refine Event.isCheckpointName_iff.2 ⟨hne, fun c hc => ?_, fun hquote => ?_⟩
  · rcases hchars c hc with hc | hc
    · have hplain : "tier-".toList.all (fun c => !isBlank c) = true := by decide
      simpa using List.all_eq_true.1 hplain c hc
    · exact isBlank_of_isDigit hc
  · rcases hchars _ hquote with hc | hc
    · exact absurd hc (by decide)
    · exact absurd hc (by decide)

theorem names_tiers (place : Nat) (transitions : List Measurement) :
    (tiers place transitions).map (·.name) =
      (List.range' place transitions.length).map tierName := by
  induction transitions generalizing place with
  | nil => rfl
  | cons m rest ih =>
    rw [tiers, List.map_cons, ih, List.length_cons, List.range'_succ, List.map_cons]

/-! ## Schedules -/

theorem iterations_tiers (place : Nat) (transitions : List Measurement) :
    (tiers place transitions).map (·.iterations) = transitions.map (·.total) := by
  induction transitions generalizing place with
  | nil => rfl
  | cons m rest ih => rw [tiers, List.map_cons, List.map_cons, ih]

/-- The checkpoint that ends the schedule. -/
def steady (last : Measurement) : Checkpoint := ⟨"steady", saturate (2 * last.total), 0⟩

theorem iterations_detected (first : Measurement) (transitions : List Measurement)
    (last : Measurement) :
    (detected first transitions ++ [steady last]).map (·.iterations) =
      (first :: transitions).map (·.total) ++ [saturate (2 * last.total)] := by
  rw [detected, List.map_append, List.map_cons, iterations_tiers]
  rfl

theorem names_detected (first : Measurement) (transitions : List Measurement)
    (last : Measurement) :
    (detected first transitions ++ [steady last]).map (·.name) =
      "interpreted" :: (List.range' 1 transitions.length).map tierName ++ ["steady"] := by
  rw [detected, List.map_append, List.map_cons, names_tiers]
  rfl

/-- Whatever the transitions are, their names can stand together. -/
theorem named_detected (first : Measurement) (transitions : List Measurement)
    (last : Measurement) :
    (∀ checkpoint ∈ detected first transitions ++ [steady last],
        isCheckpointName checkpoint.name = true) ∧
      ((detected first transitions ++ [steady last]).map (·.name)).Nodup := by
  have hnames := names_detected first transitions last
  have hinterpreted : ∀ place, tierName place ≠ "interpreted" := tierName_ne (by decide)
  have hsteady : ∀ place, tierName place ≠ "steady" := tierName_ne (by decide)
  constructor
  · intro checkpoint hmem
    have hname := List.mem_map_of_mem (f := (·.name)) hmem
    rw [hnames] at hname
    simp only [List.cons_append, List.mem_cons, List.mem_append, List.mem_map, List.not_mem_nil,
      or_false] at hname
    rcases hname with hname | ⟨place, -, hname⟩ | hname
    · rw [hname]
      decide
    · rw [← hname]
      exact isCheckpointName_tierName place
    · rw [hname]
      decide
  · rw [hnames, List.cons_append, List.nodup_cons]
    refine ⟨by simp [hinterpreted], ?_⟩
    have htiers : ((List.range' 1 transitions.length).map tierName).Nodup :=
      (List.nodup_range' ..).map tierName_injective
    refine htiers.append (List.nodup_singleton _) ?_
    simp [hsteady]

/-- If the last total is not the greatest one, then all totals increase. -/
theorem pairwise_lt_of_last {before : List Measurement} {last : Measurement}
    (h : (before ++ [last]).Pairwise fun a b =>
      a.total < b.total ∨ b.total = wordLimit 64 - 1)
    (hlast : last.total < wordLimit 64 - 1) :
    (before ++ [last]).Pairwise fun a b => a.total < b.total := by
  obtain ⟨hbefore, -, hall⟩ := List.pairwise_append.1 h
  have hbelow : ∀ m ∈ before, m.total < last.total := fun m hm =>
    (hall m hm last List.mem_cons_self).resolve_right (Nat.ne_of_lt hlast)
  refine List.pairwise_append.2 ⟨?_, List.pairwise_singleton _ _, ?_⟩
  · refine hbefore.imp_of_mem fun {a b} _ hb hab => hab.resolve_right ?_
    exact Nat.ne_of_lt ((hbelow b hb).trans hlast)
  · intro m hm other hother
    rw [List.mem_singleton.1 hother]
    exact hbelow m hm

variable {batches : List (Nat × Double)} {first last : Measurement}
  {rest transitions : List Measurement}

/-- The checkpoints of transitions make a schedule unless the last total is the greatest one, of
which there is no greater double. -/
theorem isSchedule_detected_iff (hmeasured : measurements 0 batches = first :: rest)
    (hdescends : Descends first.cost rest transitions) (hlast : transitions.getLast? = some last) :
    IsSchedule (detected first transitions ++ [steady last]) ↔
      last.total < wordLimit 64 - 1 := by
  obtain ⟨before, hbefore⟩ := List.getLast?_eq_some_iff.1 hlast
  have hsublist : (first :: transitions).Sublist (measurements 0 batches) :=
    hmeasured ▸ hdescends.sublist.cons_cons first
  have hpositive : ∀ m ∈ first :: transitions, 0 < m.total := fun m hm =>
    total_pos (hsublist.subset hm)
  have hlastPositive : 0 < last.total :=
    hpositive last (List.mem_cons_of_mem _ (List.mem_of_getLast? hlast))
  have hiterations := iterations_detected first transitions last
  constructor
  · intro h
    have hincreasing := List.pairwise_map.2 h.increasing
    rw [hiterations] at hincreasing
    have hlt := (List.pairwise_append.1 hincreasing).2.2 last.total
      (List.mem_map_of_mem (List.mem_cons_of_mem _ (List.mem_of_getLast? hlast)))
      _ List.mem_cons_self
    exact hlt.trans_le (saturate_le _)
  · intro hlt
    have hrising : (first :: transitions).Pairwise fun a b => a.total < b.total := by
      have hall := (pairwise_measurements 0 batches).sublist hsublist
      rw [hbefore, ← List.cons_append] at hall ⊢
      exact pairwise_lt_of_last hall hlt
    have hle : ∀ m ∈ first :: transitions, m.total ≤ last.total := by
      intro m hm
      rw [hbefore, ← List.cons_append] at hm hrising
      rcases List.mem_append.1 hm with hm | hm
      · exact Nat.le_of_lt ((List.pairwise_append.1 hrising).2.2 m hm last List.mem_cons_self)
      · rw [List.mem_singleton.1 hm]
    have hdouble : last.total < saturate (2 * last.total) := by
      unfold saturate
      omega
    obtain ⟨hnamed, hdistinct⟩ := named_detected first transitions last
    refine ⟨by simp [detected], ?_, List.pairwise_map.1 ?_, hnamed, hdistinct⟩
    · intro checkpoint hmem
      have hcount := List.mem_map_of_mem (f := (·.iterations)) hmem
      rw [hiterations] at hcount
      rcases List.mem_append.1 hcount with hcount | hcount
      · obtain ⟨m, hm, htotal⟩ := List.mem_map.1 hcount
        exact htotal ▸ hpositive m hm
      · rw [List.mem_singleton.1 hcount]
        omega
    · rw [hiterations]
      refine List.pairwise_append.2 ⟨List.pairwise_map.2 hrising, List.pairwise_singleton _ _, ?_⟩
      intro total htotal other hother
      obtain ⟨m, hm, rfl⟩ := List.mem_map.1 htotal
      rw [List.mem_singleton.1 hother]
      exact (hle m hm).trans_lt hdouble

theorem tiers_concat (place : Nat) (before : List Measurement) (last : Measurement) :
    tiers place (before ++ [last]) =
      tiers place before ++ [⟨tierName (place + before.length), last.total, 0⟩] := by
  induction before generalizing place with
  | nil => rfl
  | cons m rest ih =>
    rw [List.cons_append, tiers, ih, tiers, List.length_cons, Nat.add_assoc, Nat.add_comm 1]
    rfl

/-- A calibration suggests the checkpoints of its transitions with the one that ends them, if they
make a schedule. -/
theorem schedule?_eq_some_iff_of_detected {schedule : Schedule}
    (h : (batches.foldl step {}).checkpoints = detected first transitions) :
    schedule? batches = some schedule ↔
      ∃ last, transitions.getLast? = some last ∧
        IsSchedule (detected first transitions ++ [steady last]) ∧
        schedule = ⟨detected first transitions ++ [steady last]⟩ := by
  unfold schedule?
  simp only [h]
  rcases List.eq_nil_or_concat transitions with rfl | ⟨before, last, rfl⟩
  · simp [detected, tiers]
  · rw [List.concat_eq_append, List.getLast?_concat, detected, tiers_concat, ← List.cons_append,
      List.getLast?_concat]
    have hlength : ¬(⟨"interpreted", first.total, 0⟩ :: tiers 1 before ++
        [⟨tierName (1 + before.length), last.total, 0⟩] : List Checkpoint).length < 2 := by
      simp
    have hoption : ∀ result : Except ScheduleFault Schedule,
        result.toOption = some schedule ↔ result = .ok schedule := by
      intro result
      cases result <;> simp [Except.toOption]
    simp only [if_neg hlength, Option.some.injEq, exists_eq_left', hoption]
    rw [Schedule.ofCheckpoints_eq_ok_iff, and_comm]
    rfl

/-- A calibration suggests a schedule if and only if there is a transition and the total at the last
one is not the greatest. -/
theorem schedule?_eq_some_iff (hfinite : ∀ batch ∈ batches, batch.2.isFinite = true)
    {schedule : Schedule} :
    schedule? batches = some schedule ↔
      ∃ first rest transitions last, measurements 0 batches = first :: rest ∧
        Descends first.cost rest transitions ∧ transitions.getLast? = some last ∧
        last.total < wordLimit 64 - 1 ∧
        schedule = ⟨detected first transitions ++ [steady last]⟩ := by
  have hstart : ({} : Calibration).total = saturate 0 := rfl
  rcases foldl_step_start hfinite hstart rfl rfl with
    ⟨hnone, hcheckpoints⟩ | ⟨first, rest, transitions, hmeasured, hdescends, hcheckpoints⟩
  · have hno : schedule? batches = none := by
      unfold schedule?
      rw [hcheckpoints]
      rfl
    simp [hno, hnone]
  · rw [schedule?_eq_some_iff_of_detected hcheckpoints]
    constructor
    · rintro ⟨last, hlast, hschedule, rfl⟩
      exact ⟨first, rest, transitions, last, hmeasured, hdescends, hlast,
        (isSchedule_detected_iff hmeasured hdescends hlast).1 hschedule, rfl⟩
    · rintro ⟨first', rest', transitions', last, hmeasured', hdescends', hlast, hlt, rfl⟩
      obtain ⟨rfl, rfl⟩ := List.cons.inj (hmeasured.symm.trans hmeasured')
      obtain rfl := hdescends.unique hdescends'
      exact ⟨last, hlast, (isSchedule_detected_iff hmeasured hdescends hlast).2 hlt, rfl⟩

/-- **What a calibration detects.** There is a schedule if and only if the level falls at least once
and the total at the last time is not the greatest one. It has a checkpoint at the first
measurement, one at each transition in order and one at twice the last of them, with increasing
counts and different names. Of batches that cannot be measured only the number of calls matters. -/
theorem schedule?_detects (batches : List (Nat × Double))
    (hfinite : ∀ batch ∈ batches, batch.2.isFinite = true) :
    (∀ schedule, schedule? batches = some schedule ↔
      ∃ first rest transitions last, measurements 0 batches = first :: rest ∧
        Descends first.cost rest transitions ∧ transitions.getLast? = some last ∧
        last.total < wordLimit 64 - 1 ∧
        schedule = ⟨⟨"interpreted", first.total, 0⟩ :: tiers 1 transitions ++
          [⟨"steady", saturate (2 * last.total), 0⟩]⟩) ∧
    (∀ schedule, schedule? batches = some schedule → IsSchedule schedule.checkpoints) ∧
    ∀ before idle after idle', batches = before ++ idle ++ after →
      (∀ batch ∈ idle ++ idle', ¬IsMeasurable batch ∧ batch.2.isFinite = true) →
      (idle'.map (·.1)).sum = (idle.map (·.1)).sum →
      schedule? (before ++ idle' ++ after) = schedule? batches := by
  refine ⟨fun schedule => schedule?_eq_some_iff hfinite, fun schedule h => ?_, ?_⟩
  · obtain ⟨first, rest, transitions, last, hmeasured, hdescends, hlast, hlt, rfl⟩ :=
      (schedule?_eq_some_iff hfinite).1 h
    exact (isSchedule_detected_iff hmeasured hdescends hlast).2 hlt
  · rintro before idle after idle' rfl hidle hsum
    have hmeasured : measurements 0 (before ++ idle' ++ after) =
        measurements 0 (before ++ idle ++ after) := by
      have hnil : measurements (0 + (before.map (·.1)).sum) idle' = [] :=
        measurements_eq_nil (fun batch h => (hidle batch (List.mem_append_right _ h)).1) _
      have hnil' : measurements (0 + (before.map (·.1)).sum) idle = [] :=
        measurements_eq_nil (fun batch h => (hidle batch (List.mem_append_left _ h)).1) _
      simp only [measurements_append, hnil, hnil', List.map_append, List.sum_append, hsum]
    have hfinite' : ∀ batch ∈ before ++ idle' ++ after, batch.2.isFinite = true := by
      intro batch hmem
      rcases List.mem_append.1 hmem with hmem | hmem
      · rcases List.mem_append.1 hmem with hmem | hmem
        · exact hfinite batch (by simp [hmem])
        · exact (hidle batch (List.mem_append_right _ hmem)).2
      · exact hfinite batch (by simp [hmem])
    apply Option.ext
    intro schedule
    rw [schedule?_eq_some_iff hfinite', schedule?_eq_some_iff hfinite, hmeasured]

/-- Batches whose time per call falls from 8 to 4 and to 1.5 and then rises. Among them are batches
of no calls and batches that took no time. -/
def fallingBatches : List (Nat × Double) :=
  [(1, Double.ofNat 8), (2, Double.zero), (4, Double.ofNat 16), (0, Double.ofNat 3),
    (8, Double.negZero), (16, Double.ofNat 24), (32, Double.ofNat 60)]

/-- Two transitions are detected. The batches between the second and the third measurement might as
well have been a single one that took no time. -/
theorem schedule?_detects_fallingBatches :
    let schedule : Schedule :=
      ⟨[⟨"interpreted", 1, 0⟩, ⟨"tier-1", 7, 0⟩, ⟨"tier-2", 31, 0⟩, ⟨"steady", 62, 0⟩]⟩
    (∀ batch ∈ fallingBatches, batch.2.isFinite = true) ∧
      (∀ batch ∈ [(0, Double.ofNat 3), (8, Double.negZero)] ++ [(8, Double.zero)],
        ¬IsMeasurable batch ∧ batch.2.isFinite = true) ∧
      schedule? fallingBatches = some schedule ∧ IsSchedule schedule.checkpoints ∧
      schedule? [(1, Double.ofNat 8), (2, Double.zero), (4, Double.ofNat 16), (8, Double.zero),
        (16, Double.ofNat 24), (32, Double.ofNat 60)] = some schedule := by
  intro schedule
  have hfinite : ∀ batch ∈ fallingBatches, batch.2.isFinite = true := by decide
  have hidle : ∀ batch ∈ [(0, Double.ofNat 3), (8, Double.negZero)] ++ [(8, Double.zero)],
      ¬IsMeasurable batch ∧ batch.2.isFinite = true := by decide +kernel
  have hmeasured : measurements 0 fallingBatches =
      [⟨1, Double.ofNat 8⟩, ⟨7, Double.ofNat 4⟩, ⟨31, Double.ofRatio 3 2⟩,
        ⟨63, Double.ofRatio 15 8⟩] := by decide +kernel
  have hdescends : Descends (Double.ofNat 8)
      [⟨7, Double.ofNat 4⟩, ⟨31, Double.ofRatio 3 2⟩, ⟨63, Double.ofRatio 15 8⟩]
      [⟨7, Double.ofNat 4⟩, ⟨31, Double.ofRatio 3 2⟩] := by
    refine .falls ?_ (.falls ?_ (.stays ?_ (.done _))) <;>
      rw [← mul_two_le_iff_isHalf (by decide +kernel) (by decide +kernel)] <;> decide +kernel
  obtain ⟨hdetects, hschedule, hidleOnly⟩ := schedule?_detects fallingBatches hfinite
  have hsome : schedule? fallingBatches = some schedule :=
    (hdetects schedule).2 ⟨_, _, _, _, hmeasured, hdescends, rfl, by decide, by decide +kernel⟩
  have hsame := hidleOnly [(1, Double.ofNat 8), (2, Double.zero), (4, Double.ofNat 16)] _
    [(16, Double.ofNat 24), (32, Double.ofNat 60)] [(8, Double.zero)] rfl hidle rfl
  exact ⟨hfinite, hidle, hsome, hschedule schedule hsome, hsame.trans hsome⟩

end TierCheck.Calibration
