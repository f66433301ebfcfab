import Mathlib.Algebra.BigOperators.Ring.Finset
import Mathlib.Algebra.Order.BigOperators.Group.List
import Mathlib.Order.Monotone.Basic
import TierCheck.Number.Double
import TierCheck.Proofs.Number.Nearest

/-!
# Exact results

A finite double stands for a rational number. Where the exact result of an operation is itself such
a number, rounding leaves it as it is. The integers up to `2 ^ 53` are such numbers, so sums and
products of integers are exact as long as they stay in this range, and only a zero has to be told
from the other zero.

* `Format.magnitude`, `Format.strictMono_magnitude`: the magnitudes are in the order of their
  ordinals.
* `Double.StandsFor`: the rational number behind a double.
* `Double.StandsFor.add`, `Double.StandsFor.mul`: exact results.
* `Double.StandsFor.lt_iff`, `Double.StandsFor.eqv_iff`: doubles compare like their numbers.
* `Double.standsFor_ofInt`: the integers up to `2 ^ 53`.
-/
namespace TierCheck

/-! ## Magnitudes -/

namespace Format

variable (f : Format)

/-- The number at an ordinal. -/
def magnitude (o : Nat) : ℚ := f.significand o * 2 ^ f.exponent o

theorem ratio_significand (o : Nat) :
    ratio (f.significand o) 1 (f.exponent o) = f.magnitude o := by
  simp [ratio, magnitude]

@[simp] theorem magnitude_zero : f.magnitude 0 = 0 := by
  simp [magnitude, significand]

theorem magnitude_nonneg (o : Nat) : 0 ≤ f.magnitude o := by
  unfold magnitude
  positivity

/-- Two neighbours are in the same run, or the second one begins the next run. -/
theorem magnitude_lt_succ (o : Nat) : f.magnitude o < f.magnitude (o + 1) := by
  have hordinal := f.ordinal_eq o
  have hnext := f.ordinal_eq (o + 1)
  have hlt := f.significand_lt o
  have hlt' := f.significand_lt (o + 1)
  have hleast := f.leastExponent_le o
  have hleast' := f.leastExponent_le (o + 1)
  have hruns : (o + 1) / 2 ^ f.fractionBits = o / 2 ^ f.fractionBits ∨
      (o + 1) / 2 ^ f.fractionBits = o / 2 ^ f.fractionBits + 1 := by
    rw [Nat.succ_div]
    split <;> simp
  have hexponent : f.exponent (o + 1) = f.exponent o ∨ f.exponent (o + 1) = f.exponent o + 1 := by
    simp only [exponent, Nat.pow_eq]
    omega
  unfold magnitude
  rcases hexponent with hsame | hstep
  · have hsignificand : f.significand (o + 1) = f.significand o + 1 := by
      rw [hsame] at hnext
      omega
    rw [hsame, hsignificand]
    push_cast
    exact mul_lt_mul_of_pos_right (by linarith) (by positivity)
  · have hrun : (f.exponent (o + 1) - f.leastExponent).toNat =
        (f.exponent o - f.leastExponent).toNat + 1 := by omega
    rw [hrun, Nat.add_one_mul] at hnext
    have hbegin := (f.exponent_eq_or_le (o + 1)).resolve_left (by omega)
    have hsignificand : f.significand (o + 1) = 2 ^ f.fractionBits ∧
        f.significand o + 1 = 2 * 2 ^ f.fractionBits := by omega
    have hlast : (f.significand o : ℚ) + 1 = 2 * 2 ^ f.fractionBits := by
      exact_mod_cast hsignificand.2
    rw [hstep, hsignificand.1, zpow_add₀ (by norm_num), zpow_one]
    push_cast
    have hpos : (0 : ℚ) < 2 ^ f.exponent o := by positivity
    nlinarith

theorem strictMono_magnitude : StrictMono f.magnitude :=
  strictMono_nat_of_lt_succ f.magnitude_lt_succ

theorem magnitude_pos {o : Nat} (h : 0 < o) : 0 < f.magnitude o := by
  have hlt := f.strictMono_magnitude h
  rwa [magnitude_zero] at hlt

theorem roundsTo_magnitude (o : Nat) : f.RoundsTo o (f.magnitude o) := by
  have hvalue : f.magnitude o / 2 ^ f.exponent o = f.significand o := by
    unfold magnitude
    field_simp
  have hbelow := f.le_halfBelow o
  refine ⟨?_, ?_, fun _ => ⟨?_, ?_⟩⟩ <;> rw [hvalue] <;> linarith

/-- A ratio that is a magnitude is rounded to it. -/
theorem nearest_of_ratio_eq {num den o : Nat} {shift : Int} (hden : 0 < den)
    (h : ratio num den shift = f.magnitude o) : f.nearest num den shift = o := by
  rcases Nat.eq_zero_or_pos o with rfl | ho
  · have hnum : num = 0 := by
      rw [magnitude_zero, ratio] at h
      have hpos : (2 : ℚ) ^ shift ≠ 0 := by positivity
      have hden' : (den : ℚ) ≠ 0 := by positivity
      simpa [hpos, hden'] using h
    rw [hnum, nearest_zero]
  · exact nearest_eq hden ho (h ▸ f.roundsTo_magnitude o)

/-- The ordinals of a run by their place in it. -/
theorem magnitude_of_run (runs : Nat) {significand : Nat} (hlow : 2 ^ f.fractionBits ≤ significand)
    (hhigh : significand < 2 * 2 ^ f.fractionBits) :
    f.magnitude (runs * 2 ^ f.fractionBits + significand) =
      significand * 2 ^ (f.leastExponent + runs) := by
  obtain ⟨hsignificand, hexponent⟩ := f.significand_of_run (.inr hlow) hhigh
  rw [magnitude, hsignificand, hexponent]

/-- The integers below `2 ^ 53`, scaled by a power of two, are magnitudes of the format with 53
significant bits, unless they leave its range. -/
theorem exists_magnitude_eq_scaled {n : Nat} (h : n < 2 ^ 53) {shift : Int} (hlow : -1022 ≤ shift)
    (hhigh : shift ≤ 970) : ∃ o < binary64.overflow, binary64.magnitude o = n * 2 ^ shift := by
  have hoverflow : binary64.overflow = 2047 * 2 ^ 52 := rfl
  rcases Nat.eq_zero_or_pos n with rfl | hpos
  · exact ⟨0, by rw [hoverflow]; positivity, by simp⟩
  have hbelow : 2 ^ n.log2 ≤ n := Nat.log2_self_le hpos.ne'
  have habove : n < 2 ^ (n.log2 + 1) := Nat.lt_log2_self
  have hlog : n.log2 ≤ 52 := Nat.le_of_lt_succ ((Nat.log2_lt hpos.ne').2 h)
  obtain ⟨k, hk⟩ := Nat.exists_eq_add_of_le hlog
  obtain ⟨runs, hruns⟩ := Int.eq_ofNat_of_zero_le (show 0 ≤ n.log2 + 1022 + shift by omega)
  have hfirst : 2 ^ 52 ≤ n * 2 ^ k := by
    rw [hk, pow_add]
    exact Nat.mul_le_mul_right _ hbelow
  have hlast : n * 2 ^ k < 2 * 2 ^ 52 := by
    calc n * 2 ^ k < 2 ^ (n.log2 + 1) * 2 ^ k := Nat.mul_lt_mul_of_pos_right habove (by positivity)
      _ = 2 * 2 ^ 52 := by rw [hk, pow_add, pow_add]; ring
  refine ⟨runs * 2 ^ 52 + n * 2 ^ k, by rw [hoverflow]; omega, ?_⟩
  have hmagnitude := binary64.magnitude_of_run runs hfirst hlast
  have hexponent : binary64.leastExponent + (runs : Int) = shift - k := by
    have hleast : binary64.leastExponent = -1074 := rfl
    rw [hleast]
    omega
  rw [hexponent, zpow_sub₀ (by norm_num), zpow_natCast, Nat.cast_mul, Nat.cast_pow,
    Nat.cast_ofNat, mul_assoc, mul_div_cancel₀ _ (by positivity)] at hmagnitude
  exact hmagnitude

/-- The integers up to `2 ^ 53` are magnitudes of the format with 53 significant bits. -/
theorem exists_magnitude_eq {n : Nat} (h : n ≤ 2 ^ 53) :
    ∃ o < binary64.overflow, binary64.magnitude o = n := by
  rcases Nat.lt_or_eq_of_le h with hlt | rfl
  · have hunscaled : (n : ℚ) = n * 2 ^ (0 : Int) := by norm_num
    rw [hunscaled]
    exact exists_magnitude_eq_scaled hlt (by norm_num) (by norm_num)
  · have hpower : (2 ^ 53 : Nat) = ((1 : Nat) : ℚ) * 2 ^ (53 : Int) := by norm_num
    rw [hpower]
    exact exists_magnitude_eq_scaled (by norm_num) (by norm_num) (by norm_num)

end Format

/-! ## The number behind a double -/

namespace Double

/-- A magnitude with a sign. -/
def signedMagnitude (negative : Bool) (o : Nat) : ℚ :=
  if negative then -Format.binary64.magnitude o else Format.binary64.magnitude o

/-- The double is finite, and the rational number is its value. -/
def StandsFor (d : Double) (q : ℚ) : Prop :=
  ∃ negative o, d = finite negative o ∧ signedMagnitude negative o.val = q

theorem abs_signedMagnitude (negative : Bool) (o : Nat) :
    |signedMagnitude negative o| = Format.binary64.magnitude o := by
  unfold signedMagnitude
  split
  · rw [abs_neg, abs_of_nonneg (Format.binary64.magnitude_nonneg o)]
  · exact abs_of_nonneg (Format.binary64.magnitude_nonneg o)

theorem round_of_ratio_eq {num den : Nat} {shift : Int} {o : Fin Format.binary64.overflow}
    (hden : 0 < den) (h : ratio num den shift = Format.binary64.magnitude o.val)
    (negative : Bool) : round negative num den shift = finite negative o := by
  rw [round, Format.binary64.nearest_of_ratio_eq hden h, ofOrdinal, dif_pos o.isLt]

/-- The sign of a magnitude other than zero is the sign of its number. -/
theorem signedMagnitude_neg_iff {negative : Bool} {o : Nat}
    (h : signedMagnitude negative o ≠ 0) : signedMagnitude negative o < 0 ↔ negative = true := by
  have hnonneg := Format.binary64.magnitude_nonneg o
  unfold signedMagnitude at h ⊢
  cases negative with
  | true =>
    simp only [if_true, ne_eq, neg_eq_zero, iff_true] at h ⊢
    exact neg_neg_of_pos (lt_of_le_of_ne hnonneg (Ne.symm h))
  | false => simpa using hnonneg

theorem standsFor_negZero : negZero.StandsFor 0 :=
  ⟨true, ⟨0, by decide⟩, rfl, by simp [signedMagnitude]⟩

theorem standsFor_zero : zero.StandsFor 0 :=
  ⟨false, ⟨0, by decide⟩, rfl, by simp [signedMagnitude]⟩

namespace StandsFor

variable {x y z : Double} {a b : ℚ}

theorem not_isNaN (hx : x.StandsFor a) : ¬x.isNaN = true := by
  obtain ⟨negative, o, rfl, -⟩ := hx
  exact Bool.false_ne_true

/-- A double stands for one number. -/
theorem number_unique (ha : x.StandsFor a) (hb : x.StandsFor b) : a = b := by
  obtain ⟨s, o, rfl, rfl⟩ := ha
  obtain ⟨t, p, hp, rfl⟩ := hb
  cases hp
  rfl

/-- There is one double for a number other than zero. -/
theorem unique (hx : x.StandsFor a) (hy : y.StandsFor a) (ha : a ≠ 0) : x = y := by
  obtain ⟨s, o, rfl, hs⟩ := hx
  obtain ⟨t, p, rfl, ht⟩ := hy
  have hmagnitude : Format.binary64.magnitude o.val = Format.binary64.magnitude p.val := by
    rw [← abs_signedMagnitude s, ← abs_signedMagnitude t, hs, ht]
  have hsign : s = true ↔ t = true := by
    rw [← signedMagnitude_neg_iff (hs ▸ ha), ← signedMagnitude_neg_iff (ht ▸ ha), hs, ht]
  rw [Bool.eq_iff_iff.2 hsign, Fin.ext (Format.binary64.strictMono_magnitude.injective hmagnitude)]

/-- The two zeros stand for zero. -/
theorem eq_of_zero (hx : x.StandsFor 0) : x = zero ∨ x = negZero := by
  obtain ⟨s, o, rfl, hs⟩ := hx
  have hmagnitude : Format.binary64.magnitude o.val = Format.binary64.magnitude 0 := by
    rw [← abs_signedMagnitude s, hs, abs_zero, Format.magnitude_zero]
  have ho : o.val = 0 := Format.binary64.strictMono_magnitude.injective hmagnitude
  obtain ⟨_, hlt⟩ := o
  dsimp only at ho
  subst ho
  cases s
  · exact .inl rfl
  · exact .inr rfl

theorem le_zero_of_isNegative (hx : x.StandsFor a) (h : x.isNegative = true) : a ≤ 0 := by
  obtain ⟨s, o, rfl, rfl⟩ := hx
  obtain rfl : s = true := h
  simpa [signedMagnitude] using Format.binary64.magnitude_nonneg o.val

theorem eq_negZero (hx : x.StandsFor 0) (h : x.isNegative = true) : x = negZero := by
  rcases hx.eq_of_zero with rfl | rfl
  · exact absurd h (by decide)
  · rfl

theorem neg (hx : x.StandsFor a) : x.neg.StandsFor (-a) := by
  obtain ⟨negative, o, rfl, rfl⟩ := hx
  refine ⟨!negative, o, rfl, ?_⟩
  cases negative <;> simp [signedMagnitude]

/-! ### Sums -/

theorem cast_signed (negative : Bool) (n : Nat) :
    ((signed negative n : Int) : ℚ) = if negative then -(n : ℚ) else n := by
  unfold signed
  split <;> simp

/-- A significand that is brought to a lesser exponent. -/
theorem signed_shiftLeft (negative : Bool) (o : Nat) {low : Int}
    (h : low ≤ Format.binary64.exponent o) :
    ((signed negative (Format.binary64.significand o <<<
      (Format.binary64.exponent o - low).toNat) : Int) : ℚ) * 2 ^ low =
        signedMagnitude negative o := by
  have hexponent : (2 : ℚ) ^ Format.binary64.exponent o =
      2 ^ (Format.binary64.exponent o - low).toNat * 2 ^ low := by
    rw [← zpow_natCast, ← zpow_add₀ (by norm_num)]
    congr 1
    omega
  rw [cast_signed, signedMagnitude, Format.magnitude, hexponent, Nat.shiftLeft_eq]
  push_cast
  split <;> ring

/-- A sum is computed exactly before it is rounded. -/
theorem exists_total (s t : Bool) (o p : Fin Format.binary64.overflow) :
    ∃ (total : Int) (low : Int),
      (total : ℚ) * 2 ^ low = signedMagnitude s o.val + signedMagnitude t p.val ∧
      finite s o + finite t p = if total = 0 then ofOrdinal (s && t) 0
        else round (decide (total < 0)) total.natAbs 1 low := by
  refine ⟨_, min (Format.binary64.exponent o.val) (Format.binary64.exponent p.val), ?_, rfl⟩
  rw [Int.cast_add, add_mul, signed_shiftLeft s o.val (min_le_left _ _),
    signed_shiftLeft t p.val (min_le_right _ _)]

/-- The sum of two doubles is the double of the sum, where there is one. -/
theorem add (hx : x.StandsFor a) (hy : y.StandsFor b) (hz : z.StandsFor (a + b))
    (hne : a + b ≠ 0) : x + y = z := by
  obtain ⟨s, o, rfl, rfl⟩ := hx
  obtain ⟨t, p, rfl, rfl⟩ := hy
  obtain ⟨u, q, rfl, hq⟩ := hz
  obtain ⟨total, low, htotal, hsum⟩ := exists_total s t o p
  have hlow : (0 : ℚ) < 2 ^ low := by positivity
  rw [← htotal] at hne hq
  have hnonzero : total ≠ 0 := by
    rintro rfl
    simp at hne
  have hratio : ratio total.natAbs 1 low = Format.binary64.magnitude q.val := by
    rw [← abs_signedMagnitude u, hq, abs_mul, abs_of_pos hlow, ratio, Nat.cast_natAbs]
    simp
  have hsign : decide (total < 0) = u := by
    have hneg := signedMagnitude_neg_iff (hq ▸ hne : signedMagnitude u q.val ≠ 0)
    rw [hq, ← zero_mul ((2 : ℚ) ^ low), mul_lt_mul_iff_left₀ hlow, Int.cast_lt_zero] at hneg
    rw [Bool.eq_iff_iff, decide_eq_true_iff, hneg]
  rw [hsum, if_neg hnonzero, round_of_ratio_eq Nat.one_pos hratio, hsign]

/-- A sum of zero is negative only if both terms are. -/
theorem add_of_zero (hx : x.StandsFor a) (hy : y.StandsFor b) (h : a + b = 0) :
    x + y = if x.isNegative && y.isNegative then negZero else zero := by
  obtain ⟨s, o, rfl, rfl⟩ := hx
  obtain ⟨t, p, rfl, rfl⟩ := hy
  obtain ⟨total, low, htotal, hsum⟩ := exists_total s t o p
  have hlow : (2 : ℚ) ^ low ≠ 0 := by positivity
  have hzero : total = 0 := by
    rw [h, mul_eq_zero_iff_right hlow, Int.cast_eq_zero] at htotal
    exact htotal
  rw [hsum, if_pos hzero]
  cases s <;> cases t <;> rfl

/-- A sum is exact where it is a double. -/
theorem add_exact (hx : x.StandsFor a) (hy : y.StandsFor b) (hz : z.StandsFor (a + b)) :
    (x + y).StandsFor (a + b) := by
  by_cases h : a + b = 0
  · rw [hx.add_of_zero hy h, h]
    split
    · exact standsFor_negZero
    · exact standsFor_zero
  · rwa [hx.add hy hz h]

/-! ### Products -/

/-- A product is exact where it is a double. -/
theorem mul_exact (hx : x.StandsFor a) (hy : y.StandsFor b) (hz : z.StandsFor (a * b)) :
    (x * y).StandsFor (a * b) := by
  obtain ⟨s, o, rfl, rfl⟩ := hx
  obtain ⟨t, p, rfl, rfl⟩ := hy
  obtain ⟨u, q, rfl, hq⟩ := hz
  have hratio : ratio (Format.binary64.significand o.val * Format.binary64.significand p.val) 1
      (Format.binary64.exponent o.val + Format.binary64.exponent p.val) =
        Format.binary64.magnitude q.val := by
    rw [← abs_signedMagnitude u, hq, abs_mul, abs_signedMagnitude, abs_signedMagnitude, ratio,
      zpow_add₀ (by norm_num), Format.magnitude, Format.magnitude]
    push_cast
    ring
  refine ⟨s != t, q, round_of_ratio_eq Nat.one_pos hratio (s != t), ?_⟩
  have hmagnitude : Format.binary64.magnitude q.val =
      Format.binary64.magnitude o.val * Format.binary64.magnitude p.val := by
    rw [← abs_signedMagnitude u, hq, abs_mul, abs_signedMagnitude, abs_signedMagnitude]
  unfold signedMagnitude
  cases s <;> cases t <;> simp [hmagnitude]

/-- The product of two doubles is the double of the product, where there is one. -/
theorem mul (hx : x.StandsFor a) (hy : y.StandsFor b) (hz : z.StandsFor (a * b))
    (hne : a * b ≠ 0) : x * y = z :=
  (hx.mul_exact hy hz).unique hz hne

/-! ### Comparisons -/

/-- The magnitudes are in the order of their ordinals, whatever the signs. -/
theorem signedMagnitude_lt_iff {s t : Bool} {o p : Nat} :
    signedMagnitude s o < signedMagnitude t p ↔
      (if s then -(o : Int) else o) < if t then -(p : Int) else p := by
  have hmono := Format.binary64.strictMono_magnitude
  have ho := Format.binary64.magnitude_nonneg o
  have hp := Format.binary64.magnitude_nonneg p
  unfold signedMagnitude
  cases s <;> cases t <;> simp only [if_true, if_false, Bool.false_eq_true]
  · rw [hmono.lt_iff_lt]
    omega
  · constructor
    · intro h
      linarith
    · intro h
      omega
  · constructor
    · intro h
      by_contra hle
      obtain ⟨rfl, rfl⟩ : o = 0 ∧ p = 0 := by omega
      simp at h
    · intro h
      rcases Nat.eq_zero_or_pos o with rfl | hpos
      · have := Format.binary64.magnitude_pos (o := p) (by omega)
        rw [Format.magnitude_zero]
        linarith
      · have := Format.binary64.magnitude_pos hpos
        linarith
  · rw [neg_lt_neg_iff, hmono.lt_iff_lt]
    omega

/-- Doubles are in the order of their numbers. -/
theorem lt_iff (hx : x.StandsFor a) (hy : y.StandsFor b) : x < y ↔ a < b := by
  obtain ⟨s, o, rfl, rfl⟩ := hx
  obtain ⟨t, p, rfl, rfl⟩ := hy
  rw [signedMagnitude_lt_iff]
  exact decide_eq_true_iff

/-- Doubles are equal as numbers if their numbers are. -/
theorem eqv_iff (hx : x.StandsFor a) (hy : y.StandsFor b) : x.eqv y = true ↔ a = b := by
  obtain ⟨s, o, rfl, rfl⟩ := hx
  obtain ⟨t, p, rfl, rfl⟩ := hy
  have hlt := signedMagnitude_lt_iff (s := s) (t := t) (o := o.val) (p := p.val)
  have hgt := signedMagnitude_lt_iff (s := t) (t := s) (o := p.val) (p := o.val)
  rw [eqv, compareRanks, rank?, rank?]
  simp only [beq_iff_eq]
  constructor
  · intro h
    rw [h] at hlt hgt
    exact le_antisymm (not_lt.1 (hgt.not.2 (lt_irrefl _))) (not_lt.1 (hlt.not.2 (lt_irrefl _)))
  · intro h
    rw [h] at hlt hgt
    exact le_antisymm (not_lt.1 (hgt.not.1 (lt_irrefl _))) (not_lt.1 (hlt.not.1 (lt_irrefl _)))

end StandsFor

theorem eq_zero_of_isZero {x : Double} (h : x.isZero = true) :
    x = zero ∨ x = negZero := by
  cases x with
  | nan => cases h
  | infinite negative => cases negative <;> exact absurd h (by decide)
  | finite negative o =>
    have hx : (finite negative o).StandsFor (signedMagnitude negative o.val) :=
      ⟨negative, o, rfl, rfl⟩
    exact ((hx.eqv_iff standsFor_zero).1 h ▸ hx).eq_of_zero

/-! ### Zeros in sums -/

theorem StandsFor.zero_add {x z : Double} {a : ℚ} (hz : z.StandsFor 0) (hx : x.StandsFor a)
    (ha : a ≠ 0) : z + x = x := by
  have hsum : 0 + a = a := by ring
  exact hz.add hx (hsum.symm ▸ hx) (hsum.symm ▸ ha)

/-- A finite number is a zero or stands for another number. -/
theorem eq_zero_or_standsFor (negative : Bool) (o : Fin Format.binary64.overflow) :
    finite negative o = zero ∨ finite negative o = negZero ∨
      ∃ a, a ≠ 0 ∧ (finite negative o).StandsFor a := by
  have hx : (finite negative o).StandsFor (signedMagnitude negative o.val) :=
    ⟨negative, o, rfl, rfl⟩
  by_cases h : signedMagnitude negative o.val = 0
  · rw [h] at hx
    exact hx.eq_of_zero.imp_right .inl
  · exact .inr (.inr ⟨_, h, hx⟩)

/-- Negative zero changes nothing that is added to it. -/
theorem negZero_add (x : Double) : negZero + x = x := by
  cases x with
  | nan => rfl
  | infinite negative => rfl
  | finite negative o =>
    rcases eq_zero_or_standsFor negative o with h | h | ⟨a, ha, hx⟩
    · rw [h]
      decide
    · rw [h]
      decide
    · exact standsFor_negZero.zero_add hx ha

/-- Positive zero changes nothing but negative zero. -/
theorem zero_add_of_ne {x : Double} (hne : x ≠ negZero) : zero + x = x := by
  cases x with
  | nan => rfl
  | infinite negative => rfl
  | finite negative o =>
    rcases eq_zero_or_standsFor negative o with h | h | ⟨a, ha, hx⟩
    · rw [h]
      decide
    · exact absurd h hne
    · exact standsFor_zero.zero_add hx ha

/-! ## Integers -/

theorem standsFor_ofInt {n : Int} (h : |n| ≤ 2 ^ 53) : (ofInt n).StandsFor n := by
  have hround : ∀ (negative : Bool) (m : Nat), m ≤ 2 ^ 53 →
      ∃ o : Fin Format.binary64.overflow, round negative m 1 0 = finite negative o ∧
        Format.binary64.magnitude o.val = m := by
    intro negative m hm
    obtain ⟨o, hlt, ho⟩ := Format.exists_magnitude_eq hm
    exact ⟨⟨o, hlt⟩, round_of_ratio_eq Nat.one_pos (by simp [ratio, ho]) negative, ho⟩
  cases n with
  | ofNat m =>
    obtain ⟨o, hfinite, ho⟩ := hround false m (by simpa using h)
    exact ⟨false, o, hfinite, by simp [signedMagnitude, ho]⟩
  | negSucc m =>
    have hm : m + 1 ≤ 2 ^ 53 := by
      have hlow := (abs_le.1 h).1
      rw [Int.negSucc_eq] at hlow
      omega
    obtain ⟨o, hfinite, ho⟩ := hround true (m + 1) hm
    exact ⟨true, o, hfinite, by simp [signedMagnitude, ho]⟩

theorem standsFor_ofNat {n : Nat} (h : n ≤ 2 ^ 53) : (ofNat n).StandsFor n := by
  have hinteger : |(n : Int)| ≤ 2 ^ 53 := by
    rw [Nat.abs_cast]
    exact_mod_cast h
  have hstands := standsFor_ofInt hinteger
  rwa [Int.cast_natCast] at hstands

theorem standsFor_one : one.StandsFor 1 := by
  have hone : (ofNat 1).StandsFor (1 : Nat) := standsFor_ofNat (by norm_num)
  rwa [Nat.cast_one] at hone

theorem isNegative_ofOrdinal (negative : Bool) (o : Nat) :
    (ofOrdinal negative o).isNegative = negative := by
  unfold ofOrdinal
  split <;> rfl

theorem isNegative_ofInt (n : Int) : (ofInt n).isNegative = decide (n < 0) := by
  cases n with
  | ofNat m => exact isNegative_ofOrdinal false _
  | negSucc m =>
    exact (isNegative_ofOrdinal true _).trans (decide_eq_true (Int.negSucc_lt_zero m)).symm

theorem ofInt_ne_negZero {n : Int} (h : |n| ≤ 2 ^ 53) : ofInt n ≠ negZero := by
  intro heq
  have hnegative := isNegative_ofInt n
  have hstands := standsFor_ofInt h
  rw [heq] at hnegative hstands
  have hlt : n < 0 := of_decide_eq_true hnegative.symm
  have hzero : (n : ℚ) = 0 := hstands.number_unique standsFor_negZero
  rw [Int.cast_eq_zero] at hzero
  omega

/-- A double for an integer is the nearest to it, if it is not negative zero. -/
theorem StandsFor.eq_ofInt {d : Double} {n : Int} (hd : d.StandsFor n) (hn : |n| ≤ 2 ^ 53)
    (hne : d ≠ negZero) : d = ofInt n := by
  by_cases hzero : n = 0
  · subst hzero
    rw [Int.cast_zero] at hd
    exact hd.eq_of_zero.resolve_right hne
  · exact hd.unique (standsFor_ofInt hn) (by exact_mod_cast hzero)

/-- The sum of two integers is exact, and it is negative zero only if both are. -/
theorem StandsFor.add_int {x y : Double} {m n : Int} (hx : x.StandsFor m) (hy : y.StandsFor n)
    (h : |m + n| ≤ 2 ^ 53) :
    (x + y).StandsFor (m + n : Int) ∧ (x + y = negZero ↔ x = negZero ∧ y = negZero) := by
  have hboth : x = negZero ∧ y = negZero → x + y = negZero := by
    rintro ⟨rfl, rfl⟩
    decide
  by_cases hzero : m + n = 0
  · have hsum : (m : ℚ) + n = 0 := by exact_mod_cast hzero
    have hresult := hx.add_of_zero hy hsum
    rw [hzero, Int.cast_zero]
    by_cases hneg : (x.isNegative && y.isNegative) = true
    · rw [hresult, if_pos hneg]
      rw [Bool.and_eq_true] at hneg
      have hx' := hx.le_zero_of_isNegative hneg.1
      have hy' := hy.le_zero_of_isNegative hneg.2
      have hm : (m : ℚ) = 0 := by linarith
      have hn : (n : ℚ) = 0 := by linarith
      exact ⟨standsFor_negZero,
        fun _ => ⟨(hm ▸ hx).eq_negZero hneg.1, (hn ▸ hy).eq_negZero hneg.2⟩, fun _ => rfl⟩
    · have hne : zero ≠ negZero := by decide
      rw [hresult, if_neg hneg]
      refine ⟨standsFor_zero, fun heq => absurd heq hne, ?_⟩
      rintro ⟨rfl, rfl⟩
      exact absurd rfl hneg
  · have hresult : x + y = ofInt (m + n) := by
      have hsum := standsFor_ofInt h
      rw [Int.cast_add] at hsum
      exact hx.add hy hsum (by exact_mod_cast hzero)
    refine ⟨hresult ▸ standsFor_ofInt h, fun heq => ?_, hboth⟩
    exact absurd (hresult ▸ heq) (ofInt_ne_negZero h)

/-- The sum of integers from left to right, where no partial sum leaves the exact range. -/
theorem foldl_add {l : List Double} {integers : List Int}
    (hl : List.Forall₂ (fun d (n : Int) => d.StandsFor n) l integers) {start : Double} {first : Int}
    (hstart : start.StandsFor first)
    (hbound : ∀ k, |first + (integers.take k).sum| ≤ 2 ^ 53) :
    (l.foldl (· + ·) start).StandsFor (first + integers.sum : Int) ∧
      (l.foldl (· + ·) start = negZero ↔ start = negZero ∧ ∀ d ∈ l, d = negZero) := by
  induction hl generalizing start first with
  | nil => simpa using hstart
  | @cons d n l integers hd _ ih =>
    obtain ⟨hsum, hzero⟩ := hstart.add_int hd (by simpa using hbound 1)
    obtain ⟨hrest, hrestZero⟩ := ih hsum fun k => by simpa [add_assoc] using hbound (k + 1)
    rw [List.foldl_cons, List.sum_cons, ← add_assoc]
    refine ⟨hrest, ?_⟩
    rw [hrestZero, hzero, List.forall_mem_cons, and_assoc]

/-- **Sums of integers are exact** where no partial sum leaves the exact range. Only the sum of
negative zeros alone, of which there may be none, is negative zero. -/
theorem sum_of_integers {l : List Double} {integers : List Int}
    (hl : List.Forall₂ (fun d (n : Int) => d.StandsFor n) l integers)
    (hbound : ∀ k, |(integers.take k).sum| ≤ 2 ^ 53) :
    sum l = if l.all (· = negZero) then negZero else ofInt integers.sum := by
  have hstart : negZero.StandsFor (0 : Int) := by simpa using standsFor_negZero
  obtain ⟨hsum, hzero⟩ := foldl_add hl hstart (by simpa using hbound)
  rw [zero_add] at hsum
  split
  · next hall =>
    refine hzero.2 ⟨rfl, fun d hd => ?_⟩
    simpa using List.all_eq_true.1 hall d hd
  · next hsome =>
    refine hsum.eq_ofInt (by simpa using hbound integers.length) fun heq => hsome ?_
    rw [List.all_eq_true]
    exact fun d hd => decide_eq_true ((hzero.1 heq).2 d hd)

/-- Natural numbers whose sum is in the exact range, as doubles to be summed up. -/
theorem forall₂_ofNat {l : List Nat} (h : l.sum ≤ 2 ^ 53) :
    List.Forall₂ (fun d (n : Int) => d.StandsFor n) (l.map ofNat) (l.map Nat.cast) ∧
      ∀ k, |((l.map (Nat.cast : Nat → Int)).take k).sum| ≤ 2 ^ 53 := by
  constructor
  · rw [List.forall₂_map_left_iff, List.forall₂_map_right_iff, List.forall₂_same]
    intro n hn
    rw [Int.cast_natCast]
    exact standsFor_ofNat ((List.le_sum_of_mem hn).trans h)
  · intro k
    have hle : (l.take k).sum ≤ l.sum :=
      (List.take_sublist k l).sum_le_sum fun _ _ => Nat.zero_le _
    rw [← List.map_take, ← Nat.cast_list_sum, Nat.abs_cast]
    exact_mod_cast hle.trans h

theorem ofNat_ne_negZero {n : Nat} (h : n ≤ 2 ^ 53) : ofNat n ≠ negZero := by
  refine ofInt_ne_negZero (n := n) ?_
  rw [Nat.abs_cast]
  exact_mod_cast h

/-- Unequal natural numbers are subtracted exactly. -/
theorem ofNat_sub_ofNat {m n : Nat} (hn : n ≤ 2 ^ 53) (h : m < n) :
    ofNat n - ofNat m = ofNat (n - m) := by
  have hdifference : ((n - m : Nat) : ℚ) = n + -m := by
    rw [Nat.cast_sub h.le, sub_eq_add_neg]
  have hresult := standsFor_ofNat ((n.sub_le m).trans hn)
  rw [hdifference] at hresult
  refine (standsFor_ofNat hn).add (standsFor_ofNat (h.le.trans hn)).neg hresult ?_
  rw [← hdifference]
  exact_mod_cast (Nat.sub_pos_of_lt h).ne'

/-- Natural numbers that are not both zero are added exactly. -/
theorem ofNat_add_ofNat {m n : Nat} (h : m + n ≤ 2 ^ 53) (hpos : 0 < m + n) :
    ofNat m + ofNat n = ofNat (m + n) := by
  have hresult := standsFor_ofNat h
  rw [Nat.cast_add] at hresult
  refine (standsFor_ofNat (le_of_add_le_left h)).add (standsFor_ofNat (le_of_add_le_right h))
    hresult ?_
  exact_mod_cast hpos.ne'

theorem standsFor_half {m : Nat} (h : m < 2 ^ 53) : (ofRatio m 2).StandsFor (m / 2) := by
  have hhalf : (m : ℚ) / 2 = m * 2 ^ (-1 : Int) := by
    rw [zpow_neg_one, div_eq_mul_inv]
  obtain ⟨o, ho, hmagnitude⟩ := Format.exists_magnitude_eq_scaled h
    (by norm_num : -1022 ≤ (-1 : Int)) (by norm_num)
  rw [← hhalf] at hmagnitude
  have hratio : ratio (m : Int).natAbs 2 0 = Format.binary64.magnitude o := by
    rw [hmagnitude, ratio, Int.natAbs_natCast, zpow_zero, mul_one, Nat.cast_ofNat]
  have hround : ofRatio m 2 = finite false ⟨o, ho⟩ := by
    rw [ofRatio, decide_eq_false (Int.not_lt.2 (Int.natCast_nonneg m))]
    exact round_of_ratio_eq Nat.two_pos hratio false
  exact ⟨false, ⟨o, ho⟩, hround, hmagnitude⟩

end Double

end TierCheck
