import TierCheck.Proofs.Number.Exact

/-!
# Quotients and doubled numbers

Rounding keeps the order: what is not greater than a magnitude is not rounded past it. So a finite
double stays finite when it is divided by a positive natural number. Twice a magnitude is a
magnitude again, as far as the format goes, so doubling is exact; where it leaves the format the
result is infinite, and it compares with finite doubles as the exact number would.

* `Format.RoundsTo.le_of_le`, `Format.RoundsTo.le_of_ge`: rounding keeps the order.
* `Double.isFinite_div_ofNat`: quotients.
* `Double.StandsFor.le_iff`: doubles compare like their numbers.
* `Double.StandsFor.mul_two_le_iff`: a doubled number beside another one.
-/
namespace TierCheck

/-! ## Magnitudes -/

namespace Format

variable {f : Format}

theorem nearest_magnitude (o : Nat) : f.nearest (f.significand o) 1 (f.exponent o) = o :=
  f.nearest_of_ratio_eq Nat.one_pos (f.ratio_significand o)

/-- A magnitude is rounded to no positive ordinal but its own. -/
theorem RoundsTo.eq_of_magnitude {o p : Nat} (hp : 0 < p) (h : f.RoundsTo p (f.magnitude o)) :
    p = o := by
  rw [← f.nearest_magnitude o, nearest_eq Nat.one_pos hp (f.ratio_significand o ▸ h)]

theorem RoundsTo.le_of_le {o p : Nat} {x : ℚ} (h : f.RoundsTo p x) (hx : x ≤ f.magnitude o) :
    p ≤ o := by
  by_contra hlt
  have hlt := Nat.lt_of_not_le hlt
  have hsame := (h.between (f.roundsTo_magnitude p) hx
    (f.strictMono_magnitude hlt).le).eq_of_magnitude (Nat.zero_lt_of_lt hlt)
  exact absurd hsame (Nat.ne_of_gt hlt)

theorem RoundsTo.le_of_ge {o p : Nat} (hp : 0 < p) {x : ℚ} (h : f.RoundsTo p x)
    (hx : f.magnitude o ≤ x) : o ≤ p := by
  by_contra hlt
  have hlt := Nat.lt_of_not_le hlt
  have hsame := ((f.roundsTo_magnitude p).between h
    (f.strictMono_magnitude hlt).le hx).eq_of_magnitude hp
  exact absurd hsame (Nat.ne_of_lt hlt)

/-- Twice a magnitude of the first run is one of the first two runs, and twice any other one has
the same significand one run further. -/
theorem exists_magnitude_two_mul (f : Format) (o : Nat) :
    ∃ p, f.magnitude p = 2 * f.magnitude o := by
  have hsignificand := f.significand_lt o
  by_cases hfirst : f.significand o < 2 ^ f.fractionBits
  · have hexponent : f.exponent o = f.leastExponent :=
      (f.exponent_eq_or_le o).resolve_right (Nat.not_le_of_lt hfirst)
    obtain ⟨hdouble, hleast⟩ :
        f.significand (0 * 2 ^ f.fractionBits + 2 * f.significand o) = 2 * f.significand o ∧
          f.exponent (0 * 2 ^ f.fractionBits + 2 * f.significand o) = f.leastExponent + (0 : Nat) :=
      f.significand_of_run (.inl rfl) (by omega)
    refine ⟨0 * 2 ^ f.fractionBits + 2 * f.significand o, ?_⟩
    rw [magnitude, hdouble, hleast, magnitude, hexponent, Nat.cast_zero, add_zero]
    push_cast
    ring
  · obtain ⟨runs, hruns⟩ : ∃ runs : Nat, f.exponent o = f.leastExponent + runs :=
      ⟨(f.exponent o - f.leastExponent).toNat, by have := f.leastExponent_le o; omega⟩
    refine ⟨_, (f.magnitude_of_run (runs + 1) (Nat.le_of_not_lt hfirst) hsignificand).trans ?_⟩
    rw [magnitude, hruns, Nat.cast_add_one, ← add_assoc, zpow_add₀ (by norm_num) _ 1, zpow_one]
    ring

end Format

/-! ## Doubles -/

namespace Double

theorem isFinite_iff_standsFor {d : Double} : d.isFinite = true ↔ ∃ a, d.StandsFor a := by
  constructor
  · intro h
    cases d with
    | finite negative o => exact ⟨_, negative, o, rfl, rfl⟩
    | _ => cases h
  · rintro ⟨a, negative, o, rfl, -⟩
    rfl

theorem isFinite_ofOrdinal {negative : Bool} {o : Nat} (h : o < Format.binary64.overflow) :
    (ofOrdinal negative o).isFinite = true := by
  rw [ofOrdinal, dif_pos h]
  rfl

/-- A ratio that is not greater than a finite double is rounded to a finite one. -/
theorem isFinite_round {num den : Nat} {shift : Int} (hden : 0 < den)
    {o : Fin Format.binary64.overflow}
    (h : ratio num den shift ≤ Format.binary64.magnitude o.val) (negative : Bool) :
    (round negative num den shift).isFinite = true := by
  apply isFinite_ofOrdinal
  by_cases hnum : num = 0
  · rw [hnum, Format.nearest_zero]
    decide
  · have hrounds : Format.binary64.RoundsTo (Format.binary64.nearest num den shift)
        (ratio num den shift) := Format.binary64.roundsTo_nearest (by decide) hnum hden
    exact Nat.lt_of_le_of_lt (hrounds.le_of_le h) o.isLt

/-- A positive natural number is not rounded below one. -/
theorem one_le_magnitude_nearest {n : Nat} (hn : 0 < n) :
    1 ≤ Format.binary64.magnitude (Format.binary64.nearest n 1 0) := by
  have hrounds : Format.binary64.RoundsTo (Format.binary64.nearest n 1 0) (ratio n 1 0) :=
    Format.roundsTo_nearest (by decide) hn.ne' Nat.one_pos
  have hratio : (1 : ℚ) ≤ ratio n 1 0 := by
    simpa [ratio] using (by exact_mod_cast hn : (1 : ℚ) ≤ n)
  obtain ⟨one, -, hone⟩ := Format.exists_magnitude_eq (n := 1) (by norm_num)
  rw [Nat.cast_one] at hone
  have hpos : 0 < Format.binary64.nearest n 1 0 := by
    rw [Nat.pos_iff_ne_zero]
    intro hzero
    -- what is rounded to zero is at most half of the least unit
    have hhigh := hrounds.high
    have hunit : (2 : ℚ) ^ Format.binary64.exponent 0 ≤ 1 :=
      zpow_le_one_of_nonpos₀ (by norm_num) (by decide)
    rw [hzero, div_le_iff₀ (by positivity), show Format.binary64.significand 0 = 0 from rfl,
      Nat.cast_zero, zero_add] at hhigh
    linarith
  rw [← hone]
  exact Format.binary64.strictMono_magnitude.monotone (hrounds.le_of_ge hpos (hone ▸ hratio))

/-- A finite double divided by a positive natural number is finite. -/
theorem isFinite_div_ofNat {d : Double} (hd : d.isFinite = true) {n : Nat} (hn : 0 < n) :
    (d / ofNat n).isFinite = true := by
  obtain ⟨a, s, o, rfl, -⟩ := isFinite_iff_standsFor.1 hd
  have hone := one_le_magnitude_nearest hn
  unfold ofNat round ofOrdinal
  generalize Format.binary64.nearest n 1 0 = divisor at hone ⊢
  split
  · next hlt =>
    have hzero : divisor ≠ 0 := by
      rintro rfl
      norm_num at hone
    have hsignificand : 0 < Format.binary64.significand divisor :=
      Format.binary64.significand_pos (Nat.pos_of_ne_zero hzero)
    have hratio : ratio (Format.binary64.significand o) (Format.binary64.significand divisor)
        (Format.binary64.exponent o - Format.binary64.exponent divisor) =
          Format.binary64.magnitude o / Format.binary64.magnitude divisor := by
      rw [ratio, Format.magnitude, Format.magnitude, zpow_sub₀ (by norm_num), div_mul_div_comm]
    have hquotient : finite s o / finite false ⟨divisor, hlt⟩ =
        round (s != false) (Format.binary64.significand o) (Format.binary64.significand divisor)
          (Format.binary64.exponent o - Format.binary64.exponent divisor) := if_neg hzero
    rw [hquotient]
    have hle := div_le_self (Format.binary64.magnitude_nonneg o.val) hone
    exact isFinite_round hsignificand (hratio ▸ hle) _
  · exact isFinite_ofOrdinal (by decide : 0 < Format.binary64.overflow)

/-- A magnitude beyond the finite ones counts like infinity beside a finite double. -/
theorem ofOrdinal_le_finite_iff {s t : Bool} {p : Nat} {q : Fin Format.binary64.overflow} :
    ofOrdinal s p ≤ finite t q ↔ signedMagnitude s p ≤ signedMagnitude t q.val := by
  rw [← not_lt, StandsFor.signedMagnitude_lt_iff]
  have hq := q.isLt
  unfold ofOrdinal
  split
  · refine decide_eq_true_iff.trans ?_
    simp
  · refine decide_eq_true_iff.trans ?_
    cases s <;> cases t <;> simp <;> omega

theorem StandsFor.le_iff {x y : Double} {a b : ℚ} (hx : x.StandsFor a) (hy : y.StandsFor b) :
    x ≤ y ↔ a ≤ b := by
  obtain ⟨s, o, rfl, rfl⟩ := hx
  obtain ⟨t, p, rfl, rfl⟩ := hy
  rw [← ofOrdinal_le_finite_iff, ofOrdinal, dif_pos o.isLt]

/-- Doubling is exact beside a finite double. -/
theorem StandsFor.mul_two_le_iff {c d : Double} {a b : ℚ} (hc : c.StandsFor a)
    (hd : d.StandsFor b) : c * ofNat 2 ≤ d ↔ 2 * a ≤ b := by
  obtain ⟨s, o, rfl, rfl⟩ := hc
  obtain ⟨t, q, rfl, rfl⟩ := hd
  obtain ⟨p, hp⟩ := Format.binary64.exists_magnitude_two_mul o.val
  obtain ⟨two, htwo, hvalue⟩ : ∃ two : Fin Format.binary64.overflow,
      ofNat 2 = finite false two ∧ Format.binary64.magnitude two.val = 2 := by
    obtain ⟨two, hlt, htwo⟩ := Format.exists_magnitude_eq (n := 2) (by norm_num)
    have hratio : ratio 2 1 0 = Format.binary64.magnitude two := by simp [ratio, htwo]
    exact ⟨⟨two, hlt⟩, round_of_ratio_eq (o := ⟨two, hlt⟩) Nat.one_pos hratio false, htwo⟩
  have hratio : ratio (Format.binary64.significand o.val * Format.binary64.significand two.val) 1
      (Format.binary64.exponent o.val + Format.binary64.exponent two.val) =
        Format.binary64.magnitude p := by
    rw [hp, ← hvalue, ratio, Format.magnitude, Format.magnitude, zpow_add₀ (by norm_num)]
    push_cast
    ring
  have hproduct : finite s o * ofNat 2 = ofOrdinal s p := by
    have hround : finite s o * finite false two =
        round (s != false) (Format.binary64.significand o.val * Format.binary64.significand two.val)
          1 (Format.binary64.exponent o.val + Format.binary64.exponent two.val) := rfl
    rw [htwo, hround, round, Format.binary64.nearest_of_ratio_eq Nat.one_pos hratio, Bool.bne_false]
  have hsigned : signedMagnitude s p = 2 * signedMagnitude s o.val := by
    unfold signedMagnitude
    rw [hp]
    split <;> ring
  rw [hproduct, ofOrdinal_le_finite_iff, hsigned]

end Double
end TierCheck
