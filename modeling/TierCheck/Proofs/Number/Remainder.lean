import Mathlib.Algebra.Order.Floor.Semifield
import Mathlib.Data.Rat.Floor
import TierCheck.Number.Double
import TierCheck.Proofs.Number.Exact

/-!
# Integer parts and remainders

The integer part of a double is a double: below `2 ^ 53` every integer is one, and from there on
every double is an integer. A remainder is a multiple of the lesser of the two units, and it is not
greater than the number with that unit, so it needs no more bits than that one has.

* `Format.exists_magnitude_eq_mul`: what the format has room for.
* `Double.StandsFor.truncate`, `Double.StandsFor.floor`: integer parts.
* `Double.StandsFor.mod`: remainders of integers.
* `Double.StandsFor.div_exact`: quotients.
-/
namespace TierCheck

/-- The number cut toward zero. -/
def towardZero (q : ℚ) : ℤ := if 0 ≤ q then ⌊q⌋ else ⌈q⌉

theorem towardZero_of_int (n : ℤ) : towardZero n = n := by simp [towardZero]

namespace Format

/-- A multiple of a unit is a magnitude if it is small enough. -/
theorem exists_magnitude_eq_mul (f : Format) {n : Nat} (hn : n < 2 * 2 ^ f.fractionBits)
    {shift : Int} (hshift : f.leastExponent ≤ shift) : ∃ o, f.magnitude o = n * 2 ^ shift := by
  obtain ⟨runs, rfl⟩ : ∃ runs : Nat, shift = f.leastExponent + runs :=
    ⟨(shift - f.leastExponent).toNat, by omega⟩
  clear hshift
  -- a small significand is doubled as long as there is a lesser unit
  induction runs generalizing n with
  | zero =>
    obtain ⟨hsignificand, hexponent⟩ := f.significand_of_run (.inl rfl) hn
    exact ⟨0 * 2 ^ f.fractionBits + n, by rw [magnitude, hsignificand, hexponent]⟩
  | succ runs ih =>
    by_cases hfull : 2 ^ f.fractionBits ≤ n
    · exact ⟨_, f.magnitude_of_run (runs + 1) hfull hn⟩
    · obtain ⟨o, ho⟩ := ih (n := 2 * n) (by omega)
      refine ⟨o, ho.trans ?_⟩
      rw [Nat.cast_add_one, ← add_assoc, zpow_add₀ (by norm_num) _ 1, zpow_one]
      push_cast
      ring

theorem exists_finite_magnitude {n : Nat} (hn : n < 2 ^ 53) {shift : Int} (hshift : -1074 ≤ shift)
    {o : Fin binary64.overflow} (hle : (n : ℚ) * 2 ^ shift ≤ binary64.magnitude o.val) :
    ∃ p : Fin binary64.overflow, binary64.magnitude p.val = n * 2 ^ shift := by
  obtain ⟨p, hp⟩ := binary64.exists_magnitude_eq_mul hn hshift
  rw [← hp, binary64.strictMono_magnitude.le_iff_le] at hle
  exact ⟨⟨p, hle.trans_lt o.isLt⟩, hp⟩

/-- A magnitude is an integer, or it is below `2 ^ 53`. -/
theorem exists_eq_natCast_or_lt (o : Nat) :
    (∃ n : Nat, binary64.magnitude o = n) ∨ binary64.magnitude o < 2 ^ 53 := by
  have hlt : (binary64.significand o : ℚ) < 2 ^ 53 := by exact_mod_cast binary64.significand_lt o
  rcases le_or_gt 0 (binary64.exponent o) with hexponent | hexponent
  · obtain ⟨k, hk⟩ := Int.eq_ofNat_of_zero_le hexponent
    refine .inl ⟨binary64.significand o * 2 ^ k, ?_⟩
    rw [magnitude, hk, zpow_natCast]
    push_cast
    rfl
  · refine .inr (lt_of_le_of_lt ?_ hlt)
    exact mul_le_of_le_one_right (Nat.cast_nonneg _)
      (zpow_le_one_of_nonpos₀ (by norm_num) hexponent.le)

/-- The integer part of a finite magnitude is one. -/
theorem exists_magnitude_eq_floor (o : Fin binary64.overflow) :
    ∃ p : Fin binary64.overflow, binary64.magnitude p.val = ⌊binary64.magnitude o.val⌋₊ := by
  rcases exists_eq_natCast_or_lt o.val with ⟨n, hn⟩ | hlt
  · exact ⟨o, by rw [hn, Nat.floor_natCast]⟩
  · have hfloor : ⌊binary64.magnitude o.val⌋₊ < 2 ^ 53 :=
      (Nat.floor_lt (binary64.magnitude_nonneg _)).2 (by exact_mod_cast hlt)
    have hle : (⌊binary64.magnitude o.val⌋₊ : ℚ) * 2 ^ (0 : Int) ≤ binary64.magnitude o.val := by
      simpa using Nat.floor_le (binary64.magnitude_nonneg o.val)
    obtain ⟨p, hp⟩ := exists_finite_magnitude hfloor (by norm_num) hle
    exact ⟨p, by simpa using hp⟩

end Format

namespace Double

variable {d e z : Double} {q a b : ℚ}

/-! ## Integer parts -/

theorem truncate_finite (negative : Bool) (o : Fin Format.binary64.overflow) :
    ∃ p : Fin Format.binary64.overflow, (finite negative o).truncate = finite negative p ∧
      Format.binary64.magnitude p.val = ⌊Format.binary64.magnitude o.val⌋₊ := by
  obtain ⟨hvalue, -⟩ := scaleRatio_spec (Format.binary64.significand o.val) Nat.one_pos
    (Format.binary64.exponent o.val)
  obtain ⟨p, hp⟩ := Format.exists_magnitude_eq_floor o
  refine ⟨p, round_of_ratio_eq Nat.one_pos ?_ negative, hp⟩
  rw [hp, ← Format.ratio_significand, ← hvalue, Nat.floor_div_eq_div, ratio, Nat.cast_one, div_one,
    zpow_zero, mul_one]

theorem StandsFor.truncate (hd : d.StandsFor q) : d.truncate.StandsFor (towardZero q) := by
  obtain ⟨s, o, rfl, rfl⟩ := hd
  obtain ⟨p, htruncate, hp⟩ := truncate_finite s o
  refine ⟨s, p, htruncate, ?_⟩
  have hnonneg := Format.binary64.magnitude_nonneg o.val
  have hfloor : ((⌊Format.binary64.magnitude o.val⌋₊ : Int) : ℚ) =
      (⌊Format.binary64.magnitude o.val⌋ : Int) := by
    rw [Int.natCast_floor_eq_floor hnonneg]
  rw [Int.cast_natCast] at hfloor
  unfold towardZero signedMagnitude
  rw [hp, hfloor]
  cases s with
  | false => simp [hnonneg]
  | true =>
    simp only [if_true, Left.nonneg_neg_iff]
    split
    · next hnonpos => simp [le_antisymm hnonpos hnonneg]
    · rw [Int.ceil_neg, Int.cast_neg]

/-- A finite double that is not an integer is small. -/
theorem StandsFor.abs_lt_of_ne (hd : d.StandsFor q) (h : q ≠ towardZero q) : |q| < 2 ^ 53 := by
  obtain ⟨s, o, rfl, rfl⟩ := hd
  rw [abs_signedMagnitude]
  refine (Format.exists_eq_natCast_or_lt o.val).resolve_left ?_
  rintro ⟨n, hn⟩
  have hinteger : signedMagnitude s o.val = ((signed s n : ℤ) : ℚ) := by
    rw [StandsFor.cast_signed, signedMagnitude, hn]
  rw [hinteger, towardZero_of_int] at h
  exact h rfl

/-- The greatest integer below a double is a double. -/
theorem StandsFor.floor (hd : d.StandsFor q) : d.floor.StandsFor ⌊q⌋ := by
  have htruncate := hd.truncate
  unfold Double.floor
  split
  · next hlt =>
    rw [hd.lt_iff htruncate] at hlt
    have hsmall := abs_lt.1 (hd.abs_lt_of_ne hlt.ne)
    have hnegative : ¬0 ≤ q := by
      intro hq
      rw [towardZero, if_pos hq] at hlt
      exact absurd (Int.floor_le q) (not_le.2 hlt)
    rw [towardZero, if_neg hnegative] at htruncate hlt
    have hfloor : ⌊q⌋ = ⌈q⌉ - 1 := by
      rw [Int.floor_eq_iff]
      push_cast
      constructor
      · linarith [Int.ceil_lt_add_one q]
      · linarith
    have hbound : |⌈q⌉ + -1| ≤ 2 ^ 53 := by
      have hlow : -2 ^ 53 < ⌈q⌉ := by
        rw [Int.lt_ceil]
        push_cast
        exact hsmall.1
      have hhigh : ⌈q⌉ ≤ 0 := Int.ceil_le.2 (by simpa using (not_le.1 hnegative).le)
      rw [abs_le]
      omega
    have hone : (-one).StandsFor ((-1 : ℤ) : ℚ) := by
      rw [Int.cast_neg, Int.cast_one]
      exact standsFor_one.neg
    rw [hfloor]
    exact (htruncate.add_int hone hbound).1
  · next hge =>
    rw [hd.lt_iff htruncate, not_lt] at hge
    have hfloor : ⌊q⌋ = towardZero q := by
      unfold towardZero at hge ⊢
      by_cases hq : 0 ≤ q
      · rw [if_pos hq]
      · rw [if_neg hq] at hge ⊢
        exact Int.floor_eq_iff.2 ⟨hge, (Int.le_ceil q).trans_lt (lt_add_one _)⟩
    rwa [hfloor]

theorem isNegative_truncate (d : Double) : d.truncate.isNegative = d.isNegative := by
  cases d with
  | finite s o =>
    obtain ⟨p, htruncate, -⟩ := truncate_finite s o
    rw [htruncate]
    rfl
  | _ => rfl

/-- The integer below a positive number is not negative zero. -/
theorem StandsFor.isNegative_floor (hd : d.StandsFor q) (hq : 0 < q) :
    d.floor.isNegative = false := by
  have hge : ¬d < d.truncate := by
    rw [hd.lt_iff hd.truncate, not_lt, towardZero, if_pos hq.le]
    exact Int.floor_le q
  rw [Double.floor, if_neg hge, isNegative_truncate, Bool.eq_false_iff]
  exact fun hnegative => absurd (hd.le_zero_of_isNegative hnegative) hq.not_ge

/-- What a positive double is past an integer is a double. -/
theorem StandsFor.exists_fract (hd : d.StandsFor q) (hq : 0 ≤ q) :
    ∃ z : Double, z.StandsFor (Int.fract q) := by
  obtain ⟨s, o, rfl, hs⟩ := hd
  have hmagnitude : Format.binary64.magnitude o.val = q := by
    rw [← abs_signedMagnitude s, hs, abs_of_nonneg hq]
  have hsignificand : Format.binary64.significand o.val < 2 ^ 53 :=
    Format.binary64.significand_lt o.val
  rcases le_or_gt 0 (Format.binary64.exponent o.val) with hexponent | hexponent
  · obtain ⟨k, hk⟩ := Int.eq_ofNat_of_zero_le hexponent
    have hinteger : q = (Format.binary64.significand o.val * 2 ^ k : Nat) := by
      rw [← hmagnitude, Format.magnitude, hk, zpow_natCast]
      push_cast
      rfl
    rw [hinteger, Int.fract_natCast]
    exact ⟨zero, standsFor_zero⟩
  · obtain ⟨k, hk⟩ : ∃ k : Nat, Format.binary64.exponent o.val = -(k : Int) :=
      ⟨(-Format.binary64.exponent o.val).toNat, by omega⟩
    have hfract : Int.fract q = (Format.binary64.significand o.val % 2 ^ k : Nat) *
        (2 : ℚ) ^ Format.binary64.exponent o.val := by
      have hdiv : q = (Format.binary64.significand o.val : ℚ) / (2 ^ k : Nat) := by
        rw [← hmagnitude, Format.magnitude, hk, zpow_neg, zpow_natCast, div_eq_mul_inv]
        push_cast
        rfl
      rw [hdiv, Int.fract_div_natCast_eq_div_natCast_mod, hk, zpow_neg, zpow_natCast,
        div_eq_mul_inv]
      push_cast
      rfl
    obtain ⟨p, hp⟩ := Format.exists_finite_magnitude
      ((Nat.mod_le _ (2 ^ k)).trans_lt hsignificand) (Format.binary64.leastExponent_le o.val)
      (o := o) (by
        rw [← hfract, hmagnitude, Int.fract]
        exact sub_le_self _ (by exact_mod_cast Int.floor_nonneg.2 hq))
    exact ⟨finite false p, false, p, rfl, hp.trans hfract.symm⟩

/-! ## Remainders -/

/-- Numbers that are multiples of one unit have a remainder that is one. -/
theorem natCast_mod_mul {x y m n : Nat} {unit : ℚ} (hunit : 0 < unit) (hy : 0 < y)
    (hm : (x : ℚ) * unit = m) (hn : (y : ℚ) * unit = n) :
    ((x % y : Nat) : ℚ) * unit = (m % n : Nat) := by
  have hsplit : ((x % y : Nat) : ℚ) * unit = m - n * (x / y : Nat) := by
    rw [← hm, ← hn]
    have hx : (x : ℚ) = y * (x / y : Nat) + (x % y : Nat) := by
      exact_mod_cast (Nat.div_add_mod x y).symm
    calc ((x % y : Nat) : ℚ) * unit
        = (y * (x / y : Nat) + (x % y : Nat)) * unit - y * unit * (x / y : Nat) := by ring
      _ = x * unit - y * unit * (x / y : Nat) := by rw [← hx]
  have hle : n * (x / y) ≤ m := by
    have hnonneg : (0 : ℚ) ≤ m - n * (x / y : Nat) := by
      rw [← hsplit]
      positivity
    have hle : (n : ℚ) * (x / y : Nat) ≤ m := by linarith
    exact_mod_cast hle
  have hlt : m - n * (x / y) < n := by
    have hmod : ((x % y : Nat) : ℚ) * unit < y * unit :=
      mul_lt_mul_of_pos_right (by exact_mod_cast Nat.mod_lt x hy) hunit
    rw [hsplit, hn] at hmod
    have hcast : ((m - n * (x / y) : Nat) : ℚ) < n := by
      rw [Nat.cast_sub hle]
      push_cast
      exact hmod
    exact_mod_cast hcast
  have hmod : m % n = m - n * (x / y) := by
    conv_lhs => rw [← Nat.sub_add_cancel hle]
    rw [Nat.add_mul_mod_self_left, Nat.mod_eq_of_lt hlt]
  rw [hsplit, hmod, Nat.cast_sub hle]
  push_cast
  rfl

/-- A significand that is brought to a lesser exponent. -/
theorem significand_shiftLeft_mul (o : Nat) {low : Int} (h : low ≤ Format.binary64.exponent o) :
    ((Format.binary64.significand o <<< (Format.binary64.exponent o - low).toNat : Nat) : ℚ) *
      2 ^ low = Format.binary64.magnitude o := by
  have hshift := StandsFor.signed_shiftLeft false o h
  rwa [StandsFor.cast_signed, signedMagnitude, if_neg Bool.false_ne_true,
    if_neg Bool.false_ne_true] at hshift

/-- Of two significands that are brought to one exponent, the one that had it is not shifted. -/
theorem significand_shiftLeft_lt (o p : Nat) :
    Format.binary64.significand o <<< (Format.binary64.exponent o -
        min (Format.binary64.exponent o) (Format.binary64.exponent p)).toNat < 2 ^ 53 ∨
      Format.binary64.significand p <<< (Format.binary64.exponent p -
        min (Format.binary64.exponent o) (Format.binary64.exponent p)).toNat < 2 ^ 53 := by
  rcases min_choice (Format.binary64.exponent o) (Format.binary64.exponent p) with hmin | hmin
  · left
    rw [hmin, sub_self, Int.toNat_zero, Nat.shiftLeft_zero]
    exact Format.binary64.significand_lt o
  · right
    rw [hmin, sub_self, Int.toNat_zero, Nat.shiftLeft_zero]
    exact Format.binary64.significand_lt p

/-- The remainder of two magnitudes that are integers. -/
theorem exists_magnitude_eq_mod (x y : Fin Format.binary64.overflow) {m n : Nat} (hn : n ≠ 0)
    (hx : Format.binary64.magnitude x.val = m) (hy : Format.binary64.magnitude y.val = n)
    (s t : Bool) :
    ∃ p : Fin Format.binary64.overflow, finite s x % finite t y = finite s p ∧
      Format.binary64.magnitude p.val = (m % n : Nat) := by
  have hyVal : y.val ≠ 0 := by
    intro hzero
    rw [hzero, Format.magnitude_zero] at hy
    exact hn (by exact_mod_cast hy.symm)
  have hremainder : finite s x % finite t y = _ := if_neg hyVal
  rw [hremainder]
  obtain ⟨low, hlow⟩ : ∃ low, low = min (Format.binary64.exponent x.val)
    (Format.binary64.exponent y.val) := ⟨_, rfl⟩
  rw [← hlow]
  have hpos : (0 : ℚ) < 2 ^ low := by positivity
  have hleast : -1074 ≤ low := by
    rw [hlow]
    exact le_min (Format.binary64.leastExponent_le _) (Format.binary64.leastExponent_le _)
  have hxLow := significand_shiftLeft_mul x.val (hlow.le.trans (min_le_left _ _))
  have hyLow := significand_shiftLeft_mul y.val (hlow.le.trans (min_le_right _ _))
  have hsmall := significand_shiftLeft_lt x.val y.val
  rw [← hlow] at hsmall
  generalize Format.binary64.significand x.val <<< _ = left at hxLow hsmall
  generalize Format.binary64.significand y.val <<< _ = right at hyLow hsmall
  rw [hx] at hxLow
  rw [hy] at hyLow
  have hright : 0 < right := by
    refine Nat.pos_of_ne_zero ?_
    rintro rfl
    rw [Nat.cast_zero, zero_mul] at hyLow
    exact hn (by exact_mod_cast hyLow.symm)
  have hmod := natCast_mod_mul hpos hright hxLow hyLow
  have hlt : left % right < 2 ^ 53 :=
    hsmall.elim (Nat.mod_le _ _).trans_lt (Nat.mod_lt _ hright).trans
  obtain ⟨p, hp⟩ := Format.exists_finite_magnitude hlt hleast (o := x) (by
    rw [hmod, hx]
    exact_mod_cast Nat.mod_le m n)
  refine ⟨p, round_of_ratio_eq Nat.one_pos ?_ s, hp.trans hmod⟩
  rw [hp, ratio, Nat.cast_one, div_one]

/-- The remainder of two integers is exact and has the sign of the first one. -/
theorem StandsFor.mod {m n : ℤ} (hd : d.StandsFor m) (he : e.StandsFor n) (hn : n ≠ 0) :
    (d % e).StandsFor (m.tmod n : ℤ) := by
  obtain ⟨s, x, rfl, hx⟩ := hd
  obtain ⟨t, y, rfl, hy⟩ := he
  have hm : Format.binary64.magnitude x.val = m.natAbs := by
    rw [← abs_signedMagnitude s, hx, Nat.cast_natAbs, Int.cast_abs]
  have hn' : Format.binary64.magnitude y.val = n.natAbs := by
    rw [← abs_signedMagnitude t, hy, Nat.cast_natAbs, Int.cast_abs]
  obtain ⟨p, hmod, hp⟩ := exists_magnitude_eq_mod x y (Int.natAbs_ne_zero.2 hn) hm hn' s t
  refine ⟨s, p, hmod, ?_⟩
  have hsigned : m = signed s m.natAbs := by
    have hcast : (m : ℚ) = (signed s m.natAbs : ℤ) := by
      rw [cast_signed, ← hm]
      exact hx.symm
    exact_mod_cast hcast
  have hpositive : ∀ k : Nat, (k : ℤ).tmod n = (k % n.natAbs : Nat) := by
    cases n <;> exact fun _ => rfl
  have htmod : m.tmod n = signed s (m.natAbs % n.natAbs) := by
    conv_lhs => rw [hsigned]
    unfold signed
    split
    · rw [Int.neg_tmod, hpositive]
    · exact hpositive _
  rw [htmod, cast_signed, signedMagnitude, hp]

/-- A quotient is exact where it is a double. -/
theorem StandsFor.div_exact (hd : d.StandsFor a) (he : e.StandsFor b) (hb : b ≠ 0)
    (hz : z.StandsFor (a / b)) : (d / e).StandsFor (a / b) := by
  obtain ⟨s, x, rfl, rfl⟩ := hd
  obtain ⟨t, y, rfl, rfl⟩ := he
  obtain ⟨u, p, rfl, hp⟩ := hz
  have hy : y.val ≠ 0 := by
    intro hzero
    apply hb
    simp [signedMagnitude, hzero]
  have hmagnitude : Format.binary64.magnitude p.val =
      Format.binary64.magnitude x.val / Format.binary64.magnitude y.val := by
    rw [← abs_signedMagnitude u, hp, abs_div, abs_signedMagnitude, abs_signedMagnitude]
  have hratio : ratio (Format.binary64.significand x.val) (Format.binary64.significand y.val)
      (Format.binary64.exponent x.val - Format.binary64.exponent y.val) =
        Format.binary64.magnitude p.val := by
    rw [hmagnitude, ratio, Format.magnitude, Format.magnitude, zpow_sub₀ (by norm_num),
      div_mul_div_comm]
  have hquotient : finite s x / finite t y =
      round (s != t) (Format.binary64.significand x.val) (Format.binary64.significand y.val)
        (Format.binary64.exponent x.val - Format.binary64.exponent y.val) := if_neg hy
  have hpositive := Format.binary64.significand_pos (Nat.pos_of_ne_zero hy)
  refine ⟨s != t, p, hquotient.trans (round_of_ratio_eq hpositive hratio _), ?_⟩
  unfold signedMagnitude
  rw [hmagnitude]
  cases s <;> cases t <;> simp [neg_div, div_neg]

end Double
end TierCheck
