import Mathlib.Algebra.Order.Field.Power
import Mathlib.Algebra.Order.Field.Rat
import Mathlib.Tactic.FieldSimp
import Mathlib.Tactic.Linarith
import Mathlib.Tactic.NormNum
import Mathlib.Tactic.Positivity
import Mathlib.Tactic.Ring
import TierCheck.Number.Format

/-!
# The nearest magnitude

What `Format.nearest` computes on pairs of integers, said of rational numbers: a ratio that lies no
further from a magnitude than half way to its neighbours is rounded to that magnitude, where the
half ways themselves count if the significand is even. The neighbour below is half as far away as
the one above at the least significand of a run, so there the ratio may have the leading exponent
of the run below; it is then rounded up to the end of that run, which is the same ordinal.

* `roundHalfEven_eq`, `roundHalfEven_spec`: what is within a half of an integer, and nothing else,
  is rounded to it.
* `Format.leadingExponent_spec`: the leading exponent of a ratio.
* `Format.RoundsTo`, `Format.nearest_eq`, `Format.roundsTo_nearest`: what is rounded to a magnitude.
-/
namespace TierCheck

/-- A ratio of integers, scaled by a power of two. -/
def ratio (num den : Nat) (shift : Int) : ℚ := num / den * 2 ^ shift

theorem ratio_sub (num den : Nat) (shift down : Int) :
    ratio num den (shift - down) = ratio num den shift / 2 ^ down := by
  unfold ratio
  rw [zpow_sub₀ (by norm_num), mul_div_assoc]

/-- Scaling keeps the value, and the denominator positive. -/
theorem scaleRatio_spec (num : Nat) {den : Nat} (hden : 0 < den) (shift : Int) :
    ((scaleRatio num den shift).1 : ℚ) / (scaleRatio num den shift).2 = ratio num den shift ∧
      0 < (scaleRatio num den shift).2 := by
  cases shift with
  | ofNat s =>
    refine ⟨?_, hden⟩
    simp only [scaleRatio, ratio, Nat.shiftLeft_eq, Nat.cast_mul, Nat.cast_pow, Nat.cast_ofNat,
      Int.ofNat_eq_natCast, zpow_natCast]
    ring
  | negSucc s =>
    refine ⟨?_, by simp only [scaleRatio, Nat.shiftLeft_eq]; positivity⟩
    simp only [scaleRatio, ratio, Nat.shiftLeft_eq, Nat.cast_mul, Nat.cast_pow, Nat.cast_ofNat,
      zpow_negSucc]
    rw [div_mul_eq_div_div, div_eq_mul_inv _ ((2 : ℚ) ^ (s + 1))]

/-! ## Rounding to an integer -/

theorem roundHalfEven_of_bounds {num den m : Nat} (hden : 0 < den)
    (hlow : 2 * (m * den) ≤ 2 * num + den) (hhigh : 2 * num ≤ 2 * (m * den) + den)
    (hties : m % 2 = 1 → 2 * (m * den) < 2 * num + den ∧ 2 * num < 2 * (m * den) + den) :
    roundHalfEven num den = m := by
  have hdiv : num = num / den * den + num % den := by rw [Nat.mul_comm, Nat.div_add_mod]
  have hmod : num % den < den := Nat.mod_lt _ hden
  generalize hq : num / den = q at hdiv
  generalize hr : num % den = r at hdiv hmod
  have hq_le : q ≤ m := by
    have hlt : q * den < (m + 1) * den := by rw [Nat.add_one_mul]; omega
    exact Nat.le_of_lt_succ (Nat.lt_of_mul_lt_mul_right hlt)
  have hm_le : m ≤ q + 1 := by
    have hlt : m * den < (q + 2) * den := by rw [Nat.add_mul]; omega
    exact Nat.le_of_lt_succ (Nat.lt_of_mul_lt_mul_right hlt)
  unfold roundHalfEven
  simp only [hq, hr]
  rcases Nat.lt_or_eq_of_le hq_le with hlt | rfl
  · obtain rfl : m = q + 1 := by omega
    have hnext : (q + 1) * den = q * den + den := Nat.add_one_mul q den
    rw [hnext] at hlow hhigh hties
    split
    · omega
    · split <;> omega
  · split
    · rfl
    · split <;> omega

/-- What is within a half of an integer is rounded to it, and what is exactly a half away if the
integer is even. -/
theorem roundHalfEven_eq {num den m : Nat} (hden : 0 < den)
    (hlow : (m : ℚ) - 1 / 2 ≤ num / den) (hhigh : (num : ℚ) / den ≤ m + 1 / 2)
    (hties : m % 2 = 1 → (m : ℚ) - 1 / 2 < num / den ∧ (num : ℚ) / den < m + 1 / 2) :
    roundHalfEven num den = m := by
  have hden' : (0 : ℚ) < den := by exact_mod_cast hden
  rw [le_div_iff₀ hden'] at hlow
  rw [div_le_iff₀ hden'] at hhigh
  refine roundHalfEven_of_bounds hden ?_ ?_ fun hodd => ?_
  · have h : (2 * (m * den) : ℚ) ≤ 2 * num + den := by linarith
    exact_mod_cast h
  · have h : (2 * num : ℚ) ≤ 2 * (m * den) + den := by linarith
    exact_mod_cast h
  · obtain ⟨hlow', hhigh'⟩ := hties hodd
    rw [lt_div_iff₀ hden'] at hlow'
    rw [div_lt_iff₀ hden'] at hhigh'
    have h : (2 * (m * den) : ℚ) < 2 * num + den ∧ (2 * num : ℚ) < 2 * (m * den) + den :=
      ⟨by linarith, by linarith⟩
    exact_mod_cast h

theorem bounds_of_roundHalfEven (num : Nat) {den : Nat} (hden : 0 < den) :
    2 * (roundHalfEven num den * den) ≤ 2 * num + den ∧
      2 * num ≤ 2 * (roundHalfEven num den * den) + den ∧
      (roundHalfEven num den % 2 = 1 → 2 * (roundHalfEven num den * den) < 2 * num + den ∧
        2 * num < 2 * (roundHalfEven num den * den) + den) := by
  have hdiv : num = num / den * den + num % den := by rw [Nat.mul_comm, Nat.div_add_mod]
  have hmod : num % den < den := Nat.mod_lt _ hden
  unfold roundHalfEven
  dsimp only
  generalize num / den = q at hdiv
  generalize num % den = r at hdiv hmod
  have hnext : (q + 1) * den = q * den + den := Nat.add_one_mul q den
  split
  · omega
  · split
    · omega
    · rcases Nat.mod_two_eq_zero_or_one q with heven | hodd
      · rw [heven, Nat.add_zero]
        omega
      · rw [hodd]
        omega

/-- The integer that a ratio is rounded to is within a half of it, and closer if it is odd. -/
theorem roundHalfEven_spec (num : Nat) {den : Nat} (hden : 0 < den) :
    (roundHalfEven num den : ℚ) - 1 / 2 ≤ num / den ∧
      (num : ℚ) / den ≤ roundHalfEven num den + 1 / 2 ∧
      (roundHalfEven num den % 2 = 1 → (roundHalfEven num den : ℚ) - 1 / 2 < num / den ∧
        (num : ℚ) / den < roundHalfEven num den + 1 / 2) := by
  obtain ⟨hlow, hhigh, hties⟩ := bounds_of_roundHalfEven num hden
  have hden' : (0 : ℚ) < den := by exact_mod_cast hden
  generalize roundHalfEven num den = m at *
  rw [le_div_iff₀ hden', div_le_iff₀ hden', lt_div_iff₀ hden', div_lt_iff₀ hden']
  have hlow' : (2 * (m * den) : ℚ) ≤ 2 * num + den := by exact_mod_cast hlow
  have hhigh' : (2 * num : ℚ) ≤ 2 * (m * den) + den := by exact_mod_cast hhigh
  refine ⟨by linarith, by linarith, fun hodd => ?_⟩
  obtain ⟨hlow, hhigh⟩ := hties hodd
  have hlow' : (2 * (m * den) : ℚ) < 2 * num + den := by exact_mod_cast hlow
  have hhigh' : (2 * num : ℚ) < 2 * (m * den) + den := by exact_mod_cast hhigh
  exact ⟨by linarith, by linarith⟩

namespace Format

variable (f : Format)

/-! ## The leading exponent -/

theorem log2_bounds {n : Nat} (h : n ≠ 0) :
    (2 : ℚ) ^ (n.log2 : Int) ≤ n ∧ (n : ℚ) < 2 ^ ((n.log2 : Int) + 1) := by
  have hlow : 2 ^ n.log2 ≤ n := Nat.log2_self_le h
  have hhigh : n < 2 ^ (n.log2 + 1) := Nat.lt_log2_self
  constructor
  · rw [zpow_natCast]; exact_mod_cast hlow
  · rw [← Int.natCast_succ, zpow_natCast]; exact_mod_cast hhigh

/-- The bit lengths of a ratio's parts leave two candidates for its leading exponent. -/
theorem ratio_bounds {num den : Nat} (hnum : num ≠ 0) (hden : 0 < den) (shift : Int) :
    (2 : ℚ) ^ (shift + num.log2 - den.log2 - 1) < ratio num den shift ∧
      ratio num den shift < 2 ^ (shift + num.log2 - den.log2 + 1) := by
  obtain ⟨hnum_low, hnum_high⟩ := log2_bounds hnum
  obtain ⟨hden_low, hden_high⟩ := log2_bounds hden.ne'
  have hden' : (0 : ℚ) < den := by exact_mod_cast hden
  have htwo : (0 : ℚ) < 2 ^ shift := by positivity
  unfold ratio
  constructor
  · have hsplit : (2 : ℚ) ^ (shift + num.log2 - den.log2 - 1) =
        2 ^ (num.log2 : Int) / 2 ^ ((den.log2 : Int) + 1) * 2 ^ shift := by
      rw [← zpow_sub₀ (by norm_num), ← zpow_add₀ (by norm_num)]
      congr 1
      ring
    rw [hsplit]
    refine mul_lt_mul_of_pos_right ?_ htwo
    exact div_lt_div₀' hnum_low hden_high (by positivity) hden'
  · have hsplit : (2 : ℚ) ^ (shift + num.log2 - den.log2 + 1) =
        2 ^ ((num.log2 : Int) + 1) / 2 ^ (den.log2 : Int) * 2 ^ shift := by
      rw [← zpow_sub₀ (by norm_num), ← zpow_add₀ (by norm_num)]
      congr 1
      ring
    rw [hsplit]
    refine mul_lt_mul_of_pos_right ?_ htwo
    exact div_lt_div₀ hnum_high hden_low (by positivity) (by positivity)

theorem leadingExponent_spec {num den : Nat} (hnum : num ≠ 0) (hden : 0 < den) (shift : Int) :
    (2 : ℚ) ^ leadingExponent num den shift ≤ ratio num den shift ∧
      ratio num den shift < 2 ^ (leadingExponent num den shift + 1) := by
  obtain ⟨hlow, hhigh⟩ := ratio_bounds hnum hden shift
  set candidate : Int := shift + num.log2 - den.log2 with hcandidate
  obtain ⟨hscaled, hpos⟩ := scaleRatio_spec num hden (shift - candidate)
  have hpos' : (0 : ℚ) < (scaleRatio num den (shift - candidate)).2 := by exact_mod_cast hpos
  have htwo : (0 : ℚ) < 2 ^ candidate := by positivity
  rw [ratio_sub] at hscaled
  have hle : (scaleRatio num den (shift - candidate)).2 ≤ (scaleRatio num den (shift - candidate)).1
      ↔ (2 : ℚ) ^ candidate ≤ ratio num den shift := by
    rw [← one_le_div htwo, ← hscaled, one_le_div hpos']
    exact Nat.cast_le.symm
  unfold leadingExponent
  simp only [← hcandidate]
  split
  · next h => exact ⟨hle.1 h, hhigh⟩
  · next h =>
    rw [hle, not_le] at h
    exact ⟨hlow.le, by rwa [sub_add_cancel]⟩

theorem leadingExponent_le {num den : Nat} (hnum : num ≠ 0) (hden : 0 < den) {shift bound : Int}
    (h : ratio num den shift < 2 ^ (bound + 1)) : leadingExponent num den shift ≤ bound := by
  have hlt := (leadingExponent_spec hnum hden shift).1.trans_lt h
  rw [zpow_lt_zpow_iff_right₀ (by norm_num)] at hlt
  omega

theorem le_leadingExponent {num den : Nat} (hnum : num ≠ 0) (hden : 0 < den) {shift bound : Int}
    (h : (2 : ℚ) ^ bound ≤ ratio num den shift) : bound ≤ leadingExponent num den shift := by
  have hlt := h.trans_lt (leadingExponent_spec hnum hden shift).2
  rw [zpow_lt_zpow_iff_right₀ (by norm_num)] at hlt
  omega

/-! ## Ordinals -/

theorem significand_lt (o : Nat) : f.significand o < 2 * 2 ^ f.fractionBits := by
  have hrun : 0 < 2 ^ f.fractionBits := by positivity
  unfold significand
  simp only [Nat.pow_eq]
  split
  · omega
  · have := Nat.mod_lt o hrun
    omega

theorem leastExponent_le (o : Nat) : f.leastExponent ≤ f.exponent o := by
  unfold exponent
  omega

/-- Only the first two runs have significands below the run's length. -/
theorem exponent_eq_or_le (o : Nat) :
    f.exponent o = f.leastExponent ∨ 2 ^ f.fractionBits ≤ f.significand o := by
  by_cases h : o < 2 ^ f.fractionBits
  · left
    unfold exponent
    rw [Nat.pow_eq, Nat.div_eq_of_lt h]
    simp
  · right
    unfold significand
    simp only [Nat.pow_eq, if_neg h]
    omega

/-- An ordinal counts the runs below it and the place in its run. -/
theorem ordinal_eq (o : Nat) :
    (f.exponent o - f.leastExponent).toNat * 2 ^ f.fractionBits + f.significand o = o := by
  have hexponent : (f.exponent o - f.leastExponent).toNat = o / 2 ^ f.fractionBits - 1 := by
    unfold exponent
    rw [Nat.pow_eq]
    omega
  rw [hexponent]
  unfold significand
  simp only [Nat.pow_eq]
  by_cases h : o < 2 ^ f.fractionBits
  · rw [if_pos h, Nat.div_eq_of_lt h]
    omega
  · rw [if_neg h]
    have hdiv : 1 ≤ o / 2 ^ f.fractionBits := Nat.div_pos (Nat.le_of_not_lt h) (by positivity)
    obtain ⟨k, hk⟩ := Nat.exists_eq_add_of_le' hdiv
    have hdecomp := Nat.div_add_mod o (2 ^ f.fractionBits)
    rw [hk, Nat.mul_add] at hdecomp
    rw [hk, Nat.add_sub_cancel, Nat.mul_comm k]
    omega

/-- The least magnitude of a run comes behind the last one of the run below. -/
theorem ordinal_eq_of_below {o : Nat} (hsignificand : f.significand o = 2 ^ f.fractionBits)
    (hleast : f.leastExponent < f.exponent o) :
    (f.exponent o - 1 - f.leastExponent).toNat * 2 ^ f.fractionBits + 2 * 2 ^ f.fractionBits =
      o := by
  have hordinal := f.ordinal_eq o
  have hruns : (f.exponent o - f.leastExponent).toNat =
      (f.exponent o - 1 - f.leastExponent).toNat + 1 := by omega
  rw [hsignificand, hruns, Nat.add_one_mul] at hordinal
  omega

/-- An ordinal that is written as a number of runs and a place in the next run. -/
theorem significand_of_run {runs place : Nat} (hlow : runs = 0 ∨ 2 ^ f.fractionBits ≤ place)
    (hhigh : place < 2 * 2 ^ f.fractionBits) :
    f.significand (runs * 2 ^ f.fractionBits + place) = place ∧
      f.exponent (runs * 2 ^ f.fractionBits + place) = f.leastExponent + runs := by
  have hpos : 0 < 2 ^ f.fractionBits := by positivity
  by_cases hplace : place < 2 ^ f.fractionBits
  · obtain rfl : runs = 0 := hlow.resolve_right (by omega)
    simp [significand, exponent, hplace, Nat.div_eq_of_lt hplace]
  · obtain ⟨rest, rfl⟩ := Nat.exists_eq_add_of_le (Nat.le_of_not_lt hplace)
    have hsplit : runs * 2 ^ f.fractionBits + (2 ^ f.fractionBits + rest) =
        rest + (runs + 1) * 2 ^ f.fractionBits := by ring
    have hdiv : (rest + (runs + 1) * 2 ^ f.fractionBits) / 2 ^ f.fractionBits = runs + 1 := by
      rw [Nat.add_mul_div_right _ _ hpos, Nat.div_eq_of_lt (by omega), Nat.zero_add]
    have hmod : (rest + (runs + 1) * 2 ^ f.fractionBits) % 2 ^ f.fractionBits = rest := by
      rw [Nat.add_mul_mod_self_right, Nat.mod_eq_of_lt (by omega)]
    rw [significand, exponent, hsplit]
    simp only [Nat.pow_eq]
    rw [hdiv, hmod, if_neg (by rw [Nat.add_one_mul]; omega), Nat.add_sub_cancel]
    exact ⟨rfl, rfl⟩

theorem significand_pos {o : Nat} (h : 0 < o) : 0 < f.significand o := by
  unfold significand
  simp only [Nat.pow_eq]
  split
  · exact h
  · positivity

/-! ## What is rounded to a magnitude -/

/-- The way from a magnitude down to the half way to its lower neighbour, in units of the last
place. -/
def halfBelow (o : Nat) : ℚ :=
  if f.significand o = 2 ^ f.fractionBits ∧ f.leastExponent < f.exponent o then 1 / 4 else 1 / 2

/-- The number lies between the half ways to the neighbours of a magnitude, and it is one of them
only if the significand is even. -/
structure RoundsTo (o : Nat) (x : ℚ) : Prop where
  low : f.significand o - f.halfBelow o ≤ x / 2 ^ f.exponent o
  high : x / 2 ^ f.exponent o ≤ f.significand o + 1 / 2
  ties : f.significand o % 2 = 1 →
    f.significand o - f.halfBelow o < x / 2 ^ f.exponent o ∧
      x / 2 ^ f.exponent o < f.significand o + 1 / 2

theorem halfBelow_le (o : Nat) : f.halfBelow o ≤ 1 / 2 := by
  unfold halfBelow
  split <;> norm_num

theorem le_halfBelow (o : Nat) : 1 / 4 ≤ f.halfBelow o := by
  unfold halfBelow
  split <;> norm_num

variable {f}

theorem RoundsTo.half_le {o : Nat} {x : ℚ} (h : f.RoundsTo o x) (ho : 0 < o) :
    1 / 2 * 2 ^ f.exponent o ≤ x := by
  have hsignificand : (1 : ℚ) ≤ f.significand o := by exact_mod_cast f.significand_pos ho
  have hbelow := f.halfBelow_le o
  have hlow := h.low
  rw [le_div_iff₀ (by positivity)] at hlow
  refine le_trans ?_ hlow
  exact mul_le_mul_of_nonneg_right (by linarith) (by positivity)

theorem RoundsTo.lt {o : Nat} {x : ℚ} (h : f.RoundsTo o x) :
    x < 2 ^ (f.exponent o + f.fractionBits + 1) := by
  have hlt : (f.significand o : ℚ) + 1 ≤ 2 * 2 ^ f.fractionBits := by
    exact_mod_cast f.significand_lt o
  have hhigh := h.high
  rw [div_le_iff₀ (by positivity)] at hhigh
  have hsplit : (2 : ℚ) ^ (f.exponent o + f.fractionBits + 1) =
      2 * 2 ^ f.fractionBits * 2 ^ f.exponent o := by
    rw [zpow_add₀ (by norm_num), zpow_add₀ (by norm_num), zpow_natCast, zpow_one]
    ring
  rw [hsplit]
  refine hhigh.trans_lt ?_
  exact mul_lt_mul_of_pos_right (by linarith) (by positivity)

/-- The numbers that are rounded to a magnitude are an interval. -/
theorem RoundsTo.between {a b x : ℚ} (ha : f.RoundsTo o a) (hb : f.RoundsTo o b) (hle : a ≤ x)
    (hge : x ≤ b) : f.RoundsTo o x := by
  have hpos : (0 : ℚ) < 2 ^ f.exponent o := by positivity
  have hle' := (div_le_div_iff_of_pos_right hpos).2 hle
  have hge' := (div_le_div_iff_of_pos_right hpos).2 hge
  exact ⟨ha.low.trans hle', hge'.trans hb.high, fun hodd =>
    ⟨(ha.ties hodd).1.trans_le hle', hge'.trans_lt (hb.ties hodd).2⟩⟩

/-- The interval is no longer than one unit in the last place. -/
theorem RoundsTo.sub_le {a b : ℚ} (ha : f.RoundsTo o a) (hb : f.RoundsTo o b) :
    b - a ≤ 2 ^ f.exponent o := by
  have hpos : (0 : ℚ) < 2 ^ f.exponent o := by positivity
  have hbelow := f.halfBelow_le o
  have hlow := ha.low
  have hhigh := hb.high
  rw [le_div_iff₀ hpos] at hlow
  rw [div_le_iff₀ hpos] at hhigh
  have hhalf : f.halfBelow o * 2 ^ f.exponent o ≤ 1 / 2 * 2 ^ f.exponent o := by gcongr
  linarith

/-- The rounding on a given unit. -/
theorem nearest_of_unit {num den : Nat} {shift : Int} (m : Nat) (unit : Int) (hnum : num ≠ 0)
    (hden : 0 < den)
    (hunit : max f.leastExponent (leadingExponent num den shift - f.fractionBits) = unit)
    (hlow : (m : ℚ) - 1 / 2 ≤ ratio num den shift / 2 ^ unit)
    (hhigh : ratio num den shift / 2 ^ unit ≤ m + 1 / 2)
    (hties : m % 2 = 1 → (m : ℚ) - 1 / 2 < ratio num den shift / 2 ^ unit ∧
      ratio num den shift / 2 ^ unit < m + 1 / 2) :
    f.nearest num den shift = (unit - f.leastExponent).toNat * 2 ^ f.fractionBits + m := by
  obtain ⟨hscaled, hpos⟩ := scaleRatio_spec num hden (shift - unit)
  rw [ratio_sub] at hscaled
  rw [← hscaled] at hlow hhigh hties
  unfold nearest
  simp only [if_neg hnum, hunit, Nat.pow_eq]
  rw [roundHalfEven_eq hpos hlow hhigh hties]

/-- Below the run of a magnitude, only what lies close to the least magnitude of the run is within
the half ways. -/
theorem RoundsTo.of_below {o : Nat} {x : ℚ} (h : f.RoundsTo o x)
    (hleast : f.leastExponent < f.exponent o) (hx : x < 2 ^ (f.exponent o + f.fractionBits)) :
    f.significand o = 2 ^ f.fractionBits ∧
      (2 : ℚ) ^ f.fractionBits - 1 / 4 ≤ x / 2 ^ f.exponent o ∧
      x / 2 ^ f.exponent o < 2 ^ f.fractionBits := by
  have hbelow := f.halfBelow_le o
  have hlow := h.low
  have hlt : x / 2 ^ f.exponent o < 2 ^ f.fractionBits := by
    rw [div_lt_iff₀ (by positivity), mul_comm, ← zpow_natCast, ← zpow_add₀ (by norm_num)]
    exact hx
  have hsignificand : f.significand o = 2 ^ f.fractionBits := by
    refine le_antisymm ?_ ((f.exponent_eq_or_le o).resolve_left (by omega))
    have hcast : (f.significand o : ℚ) < (2 ^ f.fractionBits : Nat) + 1 := by
      push_cast
      linarith
    exact Nat.le_of_lt_succ (by exact_mod_cast hcast)
  refine ⟨hsignificand, ?_, hlt⟩
  rw [halfBelow, if_pos ⟨hsignificand, hleast⟩, hsignificand] at hlow
  exact_mod_cast hlow

/-- There the rounding goes up to the end of the run below. -/
theorem nearest_of_below {num den o : Nat} {shift : Int} (hnum : num ≠ 0)
    (hden : 0 < den) (h : f.RoundsTo o (ratio num den shift))
    (hleast : f.leastExponent < f.exponent o)
    (hleading : leadingExponent num den shift < f.exponent o + f.fractionBits) :
    f.nearest num den shift = o := by
  have hx : ratio num den shift < 2 ^ (f.exponent o + f.fractionBits) :=
    (leadingExponent_spec hnum hden shift).2.trans_le
      (zpow_le_zpow_right₀ (by norm_num) (by omega))
  obtain ⟨hsignificand, hlow, hhigh⟩ := h.of_below hleast hx
  have hrun : (1 : ℚ) ≤ 2 ^ f.fractionBits := one_le_pow₀ (by norm_num)
  -- the leading exponent is that of the run below
  have hbelow : f.exponent o + f.fractionBits - 1 ≤ leadingExponent num den shift := by
    refine le_leadingExponent hnum hden ?_
    have hhalf : (2 : ℚ) ^ f.fractionBits / 2 ≤ ratio num den shift / 2 ^ f.exponent o := by
      linarith
    rw [le_div_iff₀ (by positivity)] at hhalf
    refine le_of_eq_of_le ?_ hhalf
    rw [zpow_sub₀ (by norm_num), zpow_add₀ (by norm_num), zpow_natCast, zpow_one]
    ring
  have hdouble : ratio num den shift / 2 ^ (f.exponent o - 1) =
      2 * (ratio num den shift / 2 ^ f.exponent o) := by
    rw [zpow_sub₀ (by norm_num), zpow_one]
    field_simp
  have heven : (2 * 2 ^ f.fractionBits) % 2 = 0 := Nat.mul_mod_right 2 _
  rw [nearest_of_unit (2 * 2 ^ f.fractionBits) (f.exponent o - 1) hnum hden (by omega)]
  · exact f.ordinal_eq_of_below hsignificand hleast
  · rw [hdouble]
    push_cast
    linarith
  · rw [hdouble]
    push_cast
    linarith
  · intro hodd
    omega

/-- What lies within the half ways of a magnitude is rounded to it. -/
theorem nearest_eq {num den o : Nat} {shift : Int} (hden : 0 < den) (ho : 0 < o)
    (h : f.RoundsTo o (ratio num den shift)) : f.nearest num den shift = o := by
  have hnum : num ≠ 0 := by
    rintro rfl
    have hhalf := h.half_le ho
    have hpos : (0 : ℚ) < 1 / 2 * 2 ^ f.exponent o := by positivity
    simp only [ratio, Nat.cast_zero, zero_div, zero_mul] at hhalf
    linarith
  have hleading : leadingExponent num den shift ≤ f.exponent o + f.fractionBits :=
    leadingExponent_le hnum hden h.lt
  have hleast := f.leastExponent_le o
  have hbelow := f.halfBelow_le o
  by_cases hunit : max f.leastExponent (leadingExponent num den shift - f.fractionBits) =
      f.exponent o
  · rw [nearest_of_unit _ _ hnum hden hunit (by linarith [h.low]) h.high, f.ordinal_eq o]
    intro hodd
    obtain ⟨hlow, hhigh⟩ := h.ties hodd
    exact ⟨by linarith, hhigh⟩
  · exact nearest_of_below hnum hden h (by omega) (by omega)

/-- A ratio in units of the last place is less than the length of two runs, and at least that of
one unless the unit is the least. -/
theorem ratio_div_unit_bounds {num den : Nat} {shift : Int} (hnum : num ≠ 0) (hden : 0 < den)
    {unit : Int}
    (hunit : max f.leastExponent (leadingExponent num den shift - f.fractionBits) = unit) :
    ratio num den shift / 2 ^ unit < 2 * 2 ^ f.fractionBits ∧
      (f.leastExponent < unit → (2 : ℚ) ^ f.fractionBits ≤ ratio num den shift / 2 ^ unit) := by
  obtain ⟨hlow, hhigh⟩ := leadingExponent_spec hnum hden shift
  constructor
  · rw [div_lt_iff₀ (by positivity)]
    refine hhigh.trans_le ?_
    calc (2 : ℚ) ^ (leadingExponent num den shift + 1) ≤ 2 ^ (1 + (f.fractionBits : Int) + unit) :=
          zpow_le_zpow_right₀ (by norm_num) (by omega)
      _ = 2 * 2 ^ f.fractionBits * 2 ^ unit := by
          rw [zpow_add₀ (by norm_num), zpow_add₀ (by norm_num), zpow_one, zpow_natCast]
  · intro hleast
    rw [le_div_iff₀ (by positivity)]
    refine le_of_eq_of_le ?_ hlow
    rw [← zpow_natCast, ← zpow_add₀ (by norm_num)]
    congr 1
    omega

/-- What is rounded up to the end of a run is rounded to the least magnitude of the next one. -/
theorem RoundsTo.of_end (hbits : 0 < f.fractionBits) {runs : Nat} {x : ℚ}
    (hlow : 2 * 2 ^ f.fractionBits - 1 / 2 ≤ x / 2 ^ (f.leastExponent + runs))
    (hhigh : x / 2 ^ (f.leastExponent + runs) < 2 * 2 ^ f.fractionBits) :
    f.RoundsTo (runs * 2 ^ f.fractionBits + 2 * 2 ^ f.fractionBits) x := by
  have hsplit : runs * 2 ^ f.fractionBits + 2 * 2 ^ f.fractionBits =
      (runs + 1) * 2 ^ f.fractionBits + 2 ^ f.fractionBits := by ring
  have hpos : 0 < 2 ^ f.fractionBits := by positivity
  obtain ⟨hsignificand, hexponent⟩ :
      f.significand ((runs + 1) * 2 ^ f.fractionBits + 2 ^ f.fractionBits) = 2 ^ f.fractionBits ∧
        f.exponent ((runs + 1) * 2 ^ f.fractionBits + 2 ^ f.fractionBits) =
          f.leastExponent + (runs + 1 : Nat) :=
    f.significand_of_run (.inr le_rfl) (by omega)
  have hhalf : x / 2 ^ f.exponent ((runs + 1) * 2 ^ f.fractionBits + 2 ^ f.fractionBits) =
      x / 2 ^ (f.leastExponent + runs) / 2 := by
    rw [hexponent, Nat.cast_add_one, ← add_assoc, zpow_add₀ (by norm_num) _ 1, zpow_one, div_div]
  have hbelow : f.halfBelow ((runs + 1) * 2 ^ f.fractionBits + 2 ^ f.fractionBits) = 1 / 4 := by
    rw [halfBelow, if_pos ⟨hsignificand, by rw [hexponent]; omega⟩]
  have heven : 2 ^ f.fractionBits % 2 = 0 := Nat.two_pow_mod_two_eq_zero.2 hbits
  rw [hsplit]
  refine ⟨?_, ?_, fun hodd => ?_⟩
  · rw [hhalf, hbelow, hsignificand]
    push_cast
    linarith
  · rw [hhalf, hsignificand]
    push_cast
    linarith
  · omega

/-- A ratio lies within the half ways of the magnitude that it is rounded to. -/
theorem roundsTo_nearest (hbits : 0 < f.fractionBits) {num den : Nat} {shift : Int} (hnum : num ≠ 0)
    (hden : 0 < den) : f.RoundsTo (f.nearest num den shift) (ratio num den shift) := by
  obtain ⟨unit, hunit⟩ : ∃ unit,
      max f.leastExponent (leadingExponent num den shift - f.fractionBits) = unit := ⟨_, rfl⟩
  obtain ⟨hlt, hfirst⟩ := ratio_div_unit_bounds hnum hden hunit
  obtain ⟨hscaled, hpos⟩ := scaleRatio_spec num hden (shift - unit)
  obtain ⟨hlow, hhigh, hties⟩ := roundHalfEven_spec (scaleRatio num den (shift - unit)).1 hpos
  obtain ⟨runs, rfl⟩ : ∃ runs : Nat, unit = f.leastExponent + runs :=
    ⟨(unit - f.leastExponent).toNat, by omega⟩
  rw [ratio_sub] at hscaled
  rw [hscaled] at hlow hhigh hties
  unfold nearest
  simp only [if_neg hnum, hunit, Nat.pow_eq, add_sub_cancel_left, Int.toNat_natCast]
  generalize roundHalfEven (scaleRatio num den (shift - (f.leastExponent + runs))).1
    (scaleRatio num den (shift - (f.leastExponent + runs))).2 = m at *
  have hle : m ≤ 2 * 2 ^ f.fractionBits := by
    have hcast : (m : ℚ) < (2 * 2 ^ f.fractionBits + 1 : Nat) := by
      push_cast
      linarith
    exact Nat.le_of_lt_succ (by exact_mod_cast hcast)
  have hge : runs = 0 ∨ 2 ^ f.fractionBits ≤ m := by
    refine or_iff_not_imp_left.2 fun hruns => ?_
    have hfirst := hfirst (by omega)
    have hcast : ((2 ^ f.fractionBits : Nat) : ℚ) < m + 1 := by
      push_cast
      linarith
    exact Nat.le_of_lt_succ (by exact_mod_cast hcast)
  rcases Nat.lt_or_eq_of_le hle with hinside | rfl
  · obtain ⟨hsignificand, hexponent⟩ := f.significand_of_run hge hinside
    refine ⟨?_, ?_, ?_⟩
    · rw [hsignificand, hexponent, halfBelow, hsignificand, hexponent]
      split
      · next h =>
        have hfirst := hfirst h.2
        rw [h.1]
        push_cast
        linarith
      · exact hlow
    · rw [hsignificand, hexponent]
      exact hhigh
    · rw [hsignificand, hexponent]
      intro hodd
      obtain ⟨hlow, hhigh⟩ := hties hodd
      refine ⟨?_, hhigh⟩
      rw [halfBelow, hsignificand, hexponent]
      split
      · next h =>
        have hfirst := hfirst h.2
        rw [h.1]
        push_cast
        linarith
      · exact hlow
  · refine RoundsTo.of_end hbits ?_ hlt
    push_cast at hlow
    exact hlow

end Format
end TierCheck
