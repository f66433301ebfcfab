import TierCheck.Proofs.Number.Scaling

/-!
# Rounding keeps the order

A greater number is not rounded to a lesser magnitude, and equal numbers are rounded to the same
one. So a sum and its terms in the other order have the same magnitude, a product grows with its
factors, and comparing two rounded results never turns the order of the exact ones around. The
difference of two doubles is zero only if they are equal: it is a multiple of the least magnitude,
so it is not rounded to zero.

* `Format.RoundsTo.mono`: rounding is monotone.
* `Double.IsNearest`: the double that a number is rounded to. `Double.IsNearest.le`,
  `Double.IsNearest.unique`: such doubles are in the order of the numbers.
* `Double.StandsFor.isNearest_abs_sub`, `Double.StandsFor.isNearest_mul`: differences and products.
* `Double.StandsFor.abs_sub_le_zero_iff`: differences that are zero.
-/
namespace TierCheck

/-! ## Magnitudes -/

namespace Format

variable {f : Format} {o p : Nat} {x y : ℚ}

theorem exists_ratio_eq (hx : 0 ≤ x) : ∃ num den, 0 < den ∧ ratio num den 0 = x := by
  refine ⟨x.num.toNat, x.den, x.den_pos, ?_⟩
  have hnum : ((x.num.toNat : Int) : ℚ) = x.num := by
    rw [Int.toNat_of_nonneg (Rat.num_nonneg.2 hx)]
  rw [Int.cast_natCast] at hnum
  rw [ratio, hnum, zpow_zero, mul_one, Rat.num_div_den]

theorem RoundsTo.unique_of_pos (ho : 0 < o) (hp : 0 < p) (h : f.RoundsTo o x)
    (h' : f.RoundsTo p x) : o = p := by
  have hx : 0 ≤ x := le_trans (by positivity) (h.half_le ho)
  obtain ⟨num, den, hden, rfl⟩ := exists_ratio_eq hx
  exact (nearest_eq hden ho h).symm.trans (nearest_eq hden hp h')

/-- What is rounded to zero is at most half of the least magnitude. -/
theorem RoundsTo.le_half (h : f.RoundsTo 0 x) : x ≤ 1 / 2 * 2 ^ f.leastExponent := by
  have hsignificand : f.significand 0 = 0 := by simp [significand]
  have hexponent : f.exponent 0 = f.leastExponent := by simp [exponent]
  have hhigh := h.high
  rwa [hsignificand, hexponent, div_le_iff₀ (by positivity), Nat.cast_zero, zero_add] at hhigh

/-- Everything else is greater, as the half itself is rounded to zero. -/
theorem RoundsTo.half_lt (ho : 0 < o) (h : f.RoundsTo o x) :
    1 / 2 * 2 ^ f.leastExponent < x := by
  have hunit : (2 : ℚ) ^ f.leastExponent ≤ 2 ^ f.exponent o :=
    zpow_le_zpow_right₀ (by norm_num) (f.leastExponent_le o)
  have hpos : (0 : ℚ) < 2 ^ f.exponent o := by positivity
  have hsignificand := f.significand_pos ho
  have hbelow := f.halfBelow_le o
  have hlt : 1 / 2 < x / 2 ^ f.exponent o := by
    rcases Nat.mod_two_eq_zero_or_one (f.significand o) with heven | hodd
    · have htwo : (2 : ℚ) ≤ f.significand o := by exact_mod_cast (by omega : 2 ≤ f.significand o)
      linarith [h.low]
    · have hone : (1 : ℚ) ≤ f.significand o := by exact_mod_cast hsignificand
      linarith [(h.ties hodd).1]
  rw [lt_div_iff₀ hpos] at hlt
  linarith

/-- A greater number is not rounded to a lesser magnitude. -/
theorem RoundsTo.mono (hx : f.RoundsTo o x) (hy : f.RoundsTo p y) (h : x ≤ y) : o ≤ p := by
  by_contra hlt
  have hlt := Nat.lt_of_not_le hlt
  have ho := Nat.zero_lt_of_lt hlt
  rcases Nat.eq_zero_or_pos p with rfl | hp
  · exact absurd ((hx.half_lt ho).trans_le (h.trans hy.le_half)) (lt_irrefl _)
  · rcases le_or_gt (f.magnitude o) y with hle | hgt
    · exact absurd (hy.le_of_ge hp hle) (Nat.not_le_of_lt hlt)
    · -- the greater number lies between the lesser one and the magnitude that this is rounded to
      have hsame := (hx.between (f.roundsTo_magnitude o) h hgt.le).unique_of_pos ho hp hy
      exact absurd hsame (Nat.ne_of_gt hlt)

/-- A magnitude is a multiple of the least one. -/
theorem exists_magnitude_eq_multiple (f : Format) (o : Nat) :
    ∃ n : Nat, f.magnitude o = n * 2 ^ f.leastExponent := by
  obtain ⟨runs, hruns⟩ : ∃ runs : Nat, f.exponent o = f.leastExponent + runs :=
    ⟨(f.exponent o - f.leastExponent).toNat, by have := f.leastExponent_le o; omega⟩
  refine ⟨f.significand o * 2 ^ runs, ?_⟩
  rw [magnitude, hruns, zpow_add₀ (by norm_num), zpow_natCast]
  push_cast
  ring

end Format

/-! ## Doubles -/

namespace Double

theorem rank?_ofOrdinal (o : Nat) :
    (ofOrdinal false o).rank? = some ((min o Format.binary64.overflow : Nat) : Int) := by
  unfold ofOrdinal
  split
  · next h => rw [min_eq_left h.le]; rfl
  · next h => rw [min_eq_right (Nat.le_of_not_lt h)]; rfl

theorem ofOrdinal_le_ofOrdinal {o p : Nat} (h : o ≤ p) : ofOrdinal false o ≤ ofOrdinal false p := by
  show compareRanks _ _ _ = true
  have hmin : min o Format.binary64.overflow ≤ min p Format.binary64.overflow :=
    min_le_min_right _ h
  rw [compareRanks, rank?_ofOrdinal, rank?_ofOrdinal]
  exact decide_eq_true (Int.ofNat_le.2 hmin)

/-- The double is what the number, which is not negative, is rounded to. -/
def IsNearest (d : Double) (x : ℚ) : Prop :=
  ∃ o, d = ofOrdinal false o ∧ Format.binary64.RoundsTo o x

variable {d e : Double} {x y : ℚ}

theorem IsNearest.le (hd : d.IsNearest x) (he : e.IsNearest y) (h : x ≤ y) : d ≤ e := by
  obtain ⟨o, rfl, ho⟩ := hd
  obtain ⟨p, rfl, hp⟩ := he
  exact ofOrdinal_le_ofOrdinal (ho.mono hp h)

theorem IsNearest.unique (hd : d.IsNearest x) (he : e.IsNearest x) : d = e := by
  obtain ⟨o, rfl, ho⟩ := hd
  obtain ⟨p, rfl, hp⟩ := he
  rw [Nat.le_antisymm (ho.mono hp le_rfl) (hp.mono ho le_rfl)]

theorem isNearest_round (num : Nat) {den : Nat} (hden : 0 < den) (shift : Int) :
    (round false num den shift).IsNearest (ratio num den shift) := by
  refine ⟨_, rfl, ?_⟩
  by_cases hnum : num = 0
  · have hzero : ratio 0 den shift = Format.binary64.magnitude 0 := by simp [ratio]
    rw [hnum, Format.nearest_zero, hzero]
    exact Format.binary64.roundsTo_magnitude 0
  · exact Format.roundsTo_nearest (by decide) hnum hden

theorem isNearest_zero : zero.IsNearest 0 := by
  refine ⟨0, rfl, ?_⟩
  have hzero := Format.binary64.roundsTo_magnitude 0
  rwa [Format.magnitude_zero] at hzero

theorem abs_ofOrdinal (negative : Bool) (o : Nat) :
    (ofOrdinal negative o).abs = ofOrdinal false o := by
  unfold ofOrdinal
  split <;> rfl

theorem abs_round (negative : Bool) (num den : Nat) (shift : Int) :
    (round negative num den shift).abs = round false num den shift :=
  abs_ofOrdinal negative _

/-- The magnitude of a sum is rounded once. -/
theorem StandsFor.isNearest_abs_add (hd : d.StandsFor x) (he : e.StandsFor y) :
    (d + e).abs.IsNearest |x + y| := by
  obtain ⟨s, o, rfl, rfl⟩ := hd
  obtain ⟨t, p, rfl, rfl⟩ := he
  obtain ⟨total, low, htotal, hsum⟩ := exists_total s t o p
  have hlow : (0 : ℚ) < 2 ^ low := by positivity
  have habs : (finite s o + finite t p).abs = round false total.natAbs 1 low := by
    rw [hsum]
    split
    · next hzero =>
      rw [abs_ofOrdinal, hzero, round, Int.natAbs_zero, Format.nearest_zero]
    · exact abs_round _ _ _ _
  have hratio : |signedMagnitude s o.val + signedMagnitude t p.val| = ratio total.natAbs 1 low := by
    rw [← htotal, abs_mul, abs_of_pos hlow, ratio, Nat.cast_natAbs]
    simp
  rw [habs, hratio]
  exact isNearest_round _ Nat.one_pos _

theorem StandsFor.isNearest_abs_sub (hd : d.StandsFor x) (he : e.StandsFor y) :
    (d - e).abs.IsNearest |x - y| := by
  rw [sub_eq_add_neg]
  exact hd.isNearest_abs_add he.neg

/-- A product of numbers that are not negative is rounded once. -/
theorem StandsFor.isNearest_mul (hd : d.StandsFor x) (he : e.StandsFor y)
    (hdSign : d.isNegative = false) (heSign : e.isNegative = false) :
    (d * e).IsNearest (x * y) := by
  obtain ⟨s, o, rfl, rfl⟩ := hd
  obtain ⟨t, p, rfl, rfl⟩ := he
  obtain rfl : s = false := hdSign
  obtain rfl : t = false := heSign
  have hratio : Format.binary64.magnitude o.val * Format.binary64.magnitude p.val =
      ratio (Format.binary64.significand o.val * Format.binary64.significand p.val) 1
        (Format.binary64.exponent o.val + Format.binary64.exponent p.val) := by
    rw [ratio, zpow_add₀ (by norm_num), Format.magnitude, Format.magnitude]
    push_cast
    ring
  show Double.IsNearest _ (Format.binary64.magnitude o.val * Format.binary64.magnitude p.val)
  rw [hratio]
  exact isNearest_round _ Nat.one_pos _

/-- A finite double is a multiple of the least magnitude. -/
theorem StandsFor.exists_multiple (hd : d.StandsFor x) :
    ∃ n : Int, x = n * 2 ^ Format.binary64.leastExponent := by
  obtain ⟨negative, o, rfl, rfl⟩ := hd
  obtain ⟨n, hn⟩ := Format.binary64.exists_magnitude_eq_multiple o.val
  refine ⟨signed negative n, ?_⟩
  rw [StandsFor.cast_signed, signedMagnitude, hn]
  split <;> ring

/-- Doubles are subtracted to zero only if they are equal as numbers. -/
theorem StandsFor.abs_sub_le_zero_iff (hd : d.StandsFor x) (he : e.StandsFor y) :
    (d - e).abs ≤ zero ↔ x = y := by
  constructor
  · intro h
    obtain ⟨o, hdifference, ho⟩ := hd.isNearest_abs_sub he
    have ho0 : o = 0 := by
      have hle : ofOrdinal false o ≤ finite false ⟨0, by decide⟩ := hdifference ▸ h
      rw [ofOrdinal_le_finite_iff] at hle
      exact Nat.le_zero.1 (Format.binary64.strictMono_magnitude.le_iff_le.1 hle)
    rw [ho0] at ho
    obtain ⟨m, rfl⟩ := hd.exists_multiple
    obtain ⟨n, rfl⟩ := he.exists_multiple
    have hpos : (0 : ℚ) < 2 ^ Format.binary64.leastExponent := by positivity
    have hhalf := ho.le_half
    rw [← sub_mul, abs_mul, abs_of_pos hpos, mul_le_mul_iff_left₀ hpos] at hhalf
    have hlt : |((m - n : Int) : ℚ)| < 1 := by
      push_cast
      linarith
    rw [← Int.cast_abs, ← Int.cast_one, Int.cast_lt, Int.abs_lt_one_iff, sub_eq_zero] at hlt
    rw [hlt]
  · rintro rfl
    exact (hd.isNearest_abs_sub he).le isNearest_zero (by simp)

end Double
end TierCheck
