import Mathlib.Algebra.BigOperators.Fin
import Mathlib.Algebra.Order.BigOperators.Group.Finset
import TierCheck.Proofs.Catalog.Identity
import TierCheck.Proofs.Number.Text
import TierCheck.Proofs.Run.Completeness

/-!
# Arguments read from the wrong slots

The functions with many parameters are called with `1, 2, …, n`. A parameter that is read from
another slot gets another of these numbers. The sum of the arguments weighted by their places shows
that: it is greatest when every parameter is read from its own slot, and a single parameter that is
read elsewhere moves it. The plain sum does not see an exchange.

* `slotArguments`, `IsMixUp`: what the parameters hold, and what can be wrong with them.
* `checksum_lt`, `checksum_update`: the weighted sum of a mix-up.
* `weightedSum_slotArguments`: it is computed exactly.
* `mixUp_seen`: the references of two functions tell every mix-up.
-/
namespace TierCheck.Plan

variable {n : Nat} {read : Fin n → Fin n}

/-- What the parameters hold when each is read from the slot that `read` says. -/
def slotArguments (read : Fin n → Fin n) : List Value :=
  (List.ofFn fun place => (read place).val + 1).map .ofNat

/-- Slots are exchanged in some way, or one parameter is read from the slot of another one. -/
def IsMixUp (read : Fin n → Fin n) : Prop :=
  (Function.Bijective read ∧ read ≠ id) ∨
    ∃ place other, other ≠ place ∧ read = Function.update id place other

theorem slotArguments_id : slotArguments (id : Fin n → Fin n) = countingArguments n := by
  rw [slotArguments, countingArguments, List.ofFn_eq_map, ← List.map_coe_finRange_eq_range,
    List.map_map, List.map_map]
  rfl

/-! ## The weighted sum -/

/-- The arguments, each times its place counted from one. -/
def checksum (read : Fin n → Fin n) : Nat :=
  ∑ place, ((read place).val + 1) * (place.val + 1)

theorem checksum_le (read : Fin n → Fin n) : checksum read ≤ n ^ 2 * (n + 1) := by
  have hterm : ∀ place ∈ Finset.univ, ((read place).val + 1) * (place.val + 1) ≤ n * n :=
    fun place _ => Nat.mul_le_mul (read place).isLt place.isLt
  calc checksum read ≤ ∑ _place : Fin n, n * n := Finset.sum_le_sum hterm
    _ = n ^ 2 * n := by
      rw [Finset.sum_const, Finset.card_univ, Fintype.card_fin, smul_eq_mul]
      ring
    _ ≤ n ^ 2 * (n + 1) := Nat.mul_le_mul_left _ n.le_succ

/-- What an exchange takes away from the weighted sum is half the sum of the squares of the
distances between the places and the slots they are read from. -/
theorem two_mul_checksum (h : Function.Bijective read) :
    2 * (checksum read : Int) + ∑ place, ((read place).val - place.val : Int) ^ 2 =
      2 * checksum (id : Fin n → Fin n) := by
  have hsquares : ∑ place, ((read place).val + 1 : Int) ^ 2 =
      ∑ place : Fin n, (place.val + 1 : Int) ^ 2 :=
    h.sum_comp fun place => (place.val + 1 : Int) ^ 2
  have hterms : ∑ place, ((read place).val - place.val : Int) ^ 2 =
      ∑ place, ((read place).val + 1 : Int) ^ 2 + ∑ place : Fin n, (place.val + 1 : Int) ^ 2 -
        2 * ∑ place, ((read place).val + 1 : Int) * (place.val + 1) := by
    rw [Finset.mul_sum, ← Finset.sum_add_distrib, ← Finset.sum_sub_distrib]
    exact Finset.sum_congr rfl fun place _ => by ring
  have hid : (checksum (id : Fin n → Fin n) : Int) =
      ∑ place : Fin n, (place.val + 1 : Int) ^ 2 := by
    rw [checksum]
    push_cast
    exact Finset.sum_congr rfl fun place _ => by rw [id, sq]
  rw [hterms, hsquares, hid, checksum]
  push_cast
  ring

/-- The weighted sum is greatest when every parameter is read from its own slot. -/
theorem checksum_lt (h : Function.Bijective read) (hne : read ≠ id) :
    checksum read < checksum (id : Fin n → Fin n) := by
  obtain ⟨moved, hmoved⟩ := Function.ne_iff.1 hne
  have hdistance : 0 < ((read moved).val - moved.val : Int) ^ 2 := by
    refine sq_pos_of_ne_zero fun hzero => hmoved (Fin.ext ?_)
    rw [id]
    omega
  have hpos : 0 < ∑ place, ((read place).val - place.val : Int) ^ 2 :=
    Finset.sum_pos' (fun place _ => sq_nonneg _) ⟨moved, Finset.mem_univ _, hdistance⟩
  have htwice := two_mul_checksum h
  omega

/-- A parameter that is read elsewhere moves the weighted sum by a multiple of its place. -/
theorem checksum_update (place other : Fin n) :
    checksum (Function.update id place other) + (place.val + 1) * (place.val + 1) =
      checksum (id : Fin n → Fin n) + (other.val + 1) * (place.val + 1) := by
  have hrest : ∀ rest ∈ Finset.univ.erase place,
      ((Function.update id place other rest).val + 1) * (rest.val + 1) =
        (rest.val + 1) * (rest.val + 1) := by
    intro rest hrest
    rw [Function.update_of_ne (Finset.ne_of_mem_erase hrest), id]
  rw [checksum, checksum, ← Finset.add_sum_erase _ _ (Finset.mem_univ place),
    ← Finset.add_sum_erase _ _ (Finset.mem_univ place), Finset.sum_congr rfl hrest,
    Function.update_self]
  simp only [id]
  ring

/-- A mix-up shows in the weighted sum. -/
theorem IsMixUp.checksum_ne (h : IsMixUp read) : checksum read ≠ checksum (id : Fin n → Fin n) := by
  rcases h with ⟨hbijective, hne⟩ | ⟨place, other, hne, rfl⟩
  · exact (checksum_lt hbijective hne).ne
  · intro heq
    have hmoved := checksum_update place other
    rw [heq, Nat.add_left_cancel_iff, Nat.mul_left_inj (Nat.succ_ne_zero _)] at hmoved
    exact hne (Fin.ext (Nat.succ.inj hmoved).symm)

/-! ## The sums of the references -/

/-- A sum of natural numbers is exact where it stays in the exact range. -/
theorem sum_ofNat (hn : 1 ≤ n) (values : Fin n → Nat) (h : ∑ place, values place ≤ 2 ^ 53) :
    Double.sum (List.ofFn fun place => Double.ofNat (values place)) =
      Double.ofNat (∑ place, values place) := by
  have hlist : (List.ofFn values).map Double.ofNat =
      List.ofFn fun place => Double.ofNat (values place) := List.map_ofFn
  rw [← List.sum_ofFn] at h ⊢
  obtain ⟨hstands, hprefix⟩ := Double.forall₂_ofNat h
  have hpositive : ((List.ofFn values).map Double.ofNat).all (· = Double.negZero) ≠ true := by
    intro hall
    rw [hlist, List.all_eq_true, List.forall_mem_ofFn_iff] at hall
    have hvalue : values ⟨0, hn⟩ ≤ 2 ^ 53 :=
      (List.le_sum_of_mem (List.mem_ofFn.2 ⟨_, rfl⟩)).trans h
    exact Double.ofNat_ne_negZero hvalue (of_decide_eq_true (hall ⟨0, hn⟩))
  rw [← hlist, Double.sum_of_integers hstands hprefix, if_neg hpositive, ← Nat.cast_list_sum]
  rfl

theorem numberOf_ofNat (m : Nat) : numberOf (.ofNat m) = Double.ofNat m := by
  rw [Value.ofNat, numberOf]

theorem plainSum_slotArguments (hn : 1 ≤ n) (h : n ^ 2 * (n + 1) < 2 ^ 53)
    (read : Fin n → Fin n) :
    plainSum (slotArguments read) = Double.ofNat (∑ place, ((read place).val + 1)) := by
  have hle : ∑ place, ((read place).val + 1) ≤ checksum read :=
    Finset.sum_le_sum fun place _ => Nat.le_mul_of_pos_right _ (Nat.succ_pos _)
  rw [← sum_ofNat hn _ (hle.trans ((checksum_le read).trans h.le)), plainSum, slotArguments,
    List.map_ofFn, List.map_ofFn]
  simp only [Function.comp_def, numberOf_ofNat]

/-- The weighted sum of the arguments is exact. -/
theorem weightedSum_slotArguments (hn : 1 ≤ n) (h : n ^ 2 * (n + 1) < 2 ^ 53)
    (read : Fin n → Fin n) : weightedSum (slotArguments read) = Double.ofNat (checksum read) := by
  have hle := (checksum_le read).trans h.le
  have hproduct (place : Fin n) :
      Double.ofNat ((read place).val + 1) * Double.ofNat (place.val + 1) =
        Double.ofNat (((read place).val + 1) * (place.val + 1)) := by
    have hterm : ((read place).val + 1) * (place.val + 1) ≤ 2 ^ 53 :=
      (Finset.single_le_sum (f := fun place => ((read place).val + 1) * (place.val + 1))
        (fun _ _ => Nat.zero_le _) (Finset.mem_univ place)).trans hle
    have hleft := Double.standsFor_ofNat
      ((Nat.le_mul_of_pos_right _ (Nat.succ_pos _)).trans hterm)
    have hright := Double.standsFor_ofNat
      ((Nat.le_mul_of_pos_left _ (Nat.succ_pos _)).trans hterm)
    refine hleft.mul hright ?_ (by positivity)
    exact_mod_cast Double.standsFor_ofNat hterm
  have hterms : weightedSum (slotArguments read) = Double.sum
      (List.ofFn fun place => Double.ofNat (((read place).val + 1) * (place.val + 1))) := by
    refine congrArg Double.sum (List.ext_getElem (by simp [slotArguments]) fun i hi _ => ?_)
    simpa [slotArguments, numberOf_ofNat] using hproduct ⟨i, by simpa [slotArguments] using hi⟩
  rw [hterms, sum_ofNat hn _ hle, checksum]

/-! ## The references -/

/-- Numbers that are not the same do not agree where results are no floating point numbers. -/
theorem not_numbersAgree {rule : Agreement} (hkind : rule.kind ≠ .float) {x y : Double} {a b : ℚ}
    (hx : x.StandsFor a) (hy : y.StandsFor b) (h : a ≠ b) : rule.numbersAgree x y = false := by
  have hzero : ∀ {z : Double} {c : ℚ}, z.StandsFor c → z.isZero = true → c = 0 :=
    fun hz => (hz.eqv_iff Double.standsFor_zero).1
  rw [Agreement.numbersAgree, if_neg (not_or.2 ⟨hx.not_isNaN, hy.not_isNaN⟩),
    if_neg (fun hboth => h ((hzero hx hboth.1).trans (hzero hy hboth.2).symm)),
    if_neg ((hx.eqv_iff hy).not.2 h), decide_eq_false hkind, Bool.false_and]

/-- The weighted sum can be read off the echo, because no digit is the mark in front of it. -/
theorem echoText_inj {args args' : List Value} {a b : Nat} (ha : a ≤ 2 ^ 53) (hb : b ≤ 2 ^ 53)
    (hargs : weightedSum args = Double.ofNat a) (hargs' : weightedSum args' = Double.ofNat b)
    (h : echoText args = echoText args') : a = b := by
  have hmark (m : Nat) : '|' ∉ Nat.toDigits 10 m := by
    intro hmem
    cases isDigit_of_mem_toDigits hmem
  have hbar : "|".toList = ['|'] := rfl
  rw [echoText, echoText, hargs, hargs', Double.text_ofNat ha, Double.text_ofNat hb, naturalText,
    naturalText, ← String.toList_inj] at h
  simp only [String.toList_append, String.toList_ofList, hbar, List.append_assoc,
    List.cons_append, List.nil_append] at h
  exact toDigits_inj (append_cons_inj h (hmark a) (hmark b)).2

/-- **The references see every mix-up.** They give the arguments `1, 2, …, n` another result than
those in which slots are exchanged or one is read in place of another, and the two results do not
agree. An exchange lowers the weighted sum, but it leaves the plain sum as it is. -/
theorem mixUp_seen (plan : Plan) {n : Nat} (hn : 1 ≤ n) (h : n ^ 2 * (n + 1) < 2 ^ 53) :
    (∀ d ∈ [plan.nestedDraft n, plan.echoDraft n, plan.sumDraft n],
      d.argumentSets = [countingArguments n]) ∧
    slotArguments (id : Fin n → Fin n) = countingArguments n ∧
    (∀ d ∈ [plan.nestedDraft n, plan.echoDraft n], ∃ reference, d.reference? = some reference ∧
      ∀ (read : Fin n → Fin n) (c : Criteria), IsMixUp read →
        (c.agreement (d.toScenario reference)).holds (reference (slotArguments read))
          (reference (countingArguments n)) = false) ∧
    (∃ reference, (plan.nestedDraft n).reference? = some reference ∧
      ∀ read : Fin n → Fin n, Function.Bijective read → read ≠ id →
        ∃ lower greatest : Double, reference (slotArguments read) = .number lower ∧
          reference (countingArguments n) = .number greatest ∧ lower < greatest) ∧
    ∃ reference, (plan.sumDraft n).reference? = some reference ∧
      ∀ (read : Fin n → Fin n) (c : Criteria), Function.Bijective read →
        reference (slotArguments read) = reference (countingArguments n) ∧
        (c.agreement ((plan.sumDraft n).toScenario reference)).holds
          (reference (slotArguments read)) (reference (countingArguments n)) = true := by
  have hweighted := weightedSum_slotArguments hn h
  have hcounted : weightedSum (countingArguments n) =
      Double.ofNat (checksum (id : Fin n → Fin n)) := by
    rw [← slotArguments_id, hweighted]
  have hbound (read : Fin n → Fin n) : checksum read ≤ 2 ^ 53 := (checksum_le read).trans h.le
  have hstands (read : Fin n → Fin n) :
      (Double.ofNat (checksum read)).StandsFor (checksum read) :=
    Double.standsFor_ofNat (hbound read)
  refine ⟨by simp [nestedDraft, echoDraft, sumDraft], slotArguments_id, ?_, ?_, ?_⟩
  · rw [List.forall_mem_cons, List.forall_mem_singleton]
    constructor
    · refine ⟨_, rfl, fun read c hread => ?_⟩
      have hne : (checksum read : ℚ) ≠ checksum (id : Fin n → Fin n) := by
        exact_mod_cast hread.checksum_ne
      rw [hweighted, hcounted]
      exact not_numbersAgree (by simp [Criteria.agreement, nestedDraft, Draft.toScenario])
        (hstands read) (hstands id) hne
    · refine ⟨_, rfl, fun read c hread => decide_eq_false fun heq => hread.checksum_ne ?_⟩
      exact echoText_inj (hbound read) (hbound id) (hweighted read) hcounted
        (Value.string.inj heq)
  · refine ⟨_, rfl, fun read hread hne => ⟨_, _, rfl, rfl, ?_⟩⟩
    rw [hweighted, hcounted, (hstands read).lt_iff (hstands id)]
    exact_mod_cast checksum_lt hread hne
  · refine ⟨_, rfl, fun read c hread => ?_⟩
    have hsame : plainSum (slotArguments read) = plainSum (countingArguments n) := by
      rw [← slotArguments_id, plainSum_slotArguments hn h, plainSum_slotArguments hn h]
      exact congrArg Double.ofNat (hread.sum_comp fun slot => slot.val + 1)
    rw [hsame]
    exact ⟨rfl, Agreement.holds_self _ _⟩

/-- With the last two of seven arguments exchanged, the weighted sum is lower by one. -/
theorem mixUp_seen_exchange : (1 ≤ 7 ∧ 7 ^ 2 * (7 + 1) < 2 ^ 53) ∧
    checksum (Equiv.swap 5 6 : Fin 7 → Fin 7) + 1 = checksum (id : Fin 7 → Fin 7) ∧
    ∃ reference, (echoDraft {} 7).reference? = some reference ∧
      ∀ c : Criteria, (c.agreement ((echoDraft {} 7).toScenario reference)).holds
        (reference ([1, 2, 3, 4, 5, 7, 6].map Value.ofNat))
        (reference ([1, 2, 3, 4, 5, 6, 7].map Value.ofNat)) = false := by
  have hread : IsMixUp (Equiv.swap 5 6 : Fin 7 → Fin 7) :=
    .inl ⟨(Equiv.swap 5 6).bijective, by decide⟩
  obtain ⟨-, -, hseen, -⟩ := mixUp_seen {} (n := 7) (by decide) (by decide)
  obtain ⟨reference, hreference, hdisagree⟩ := hseen _ (List.mem_cons_of_mem _ List.mem_cons_self)
  have hslots : slotArguments (Equiv.swap 5 6 : Fin 7 → Fin 7) =
      [1, 2, 3, 4, 5, 7, 6].map Value.ofNat :=
    congrArg (List.map Value.ofNat) (by decide)
  have hcounting : countingArguments 7 = [1, 2, 3, 4, 5, 6, 7].map Value.ofNat := by
    simp [countingArguments, List.range, List.range.loop]
  refine ⟨by decide, by decide, reference, hreference, fun c => ?_⟩
  rw [← hslots, ← hcounting]
  exact hdisagree _ c hread

end TierCheck.Plan
