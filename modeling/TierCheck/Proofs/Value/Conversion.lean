import Mathlib.Data.Int.ModEq
import TierCheck.Proofs.Number.Remainder
import TierCheck.Proofs.Number.Scaling
import TierCheck.Value.Element

/-!
# Numbers as integers of a width

An integer type keeps a number modulo its width. The conversion takes a remainder, adds the modulus
if that is negative and takes it away again if it is past the greatest integer of the type. None of
these steps rounds, so the result is the exact residue, however great the number is. The clamped
type takes the nearest integer, and there the fraction that decides is exact as well.

* `IsResidue`: the integer of a range that is congruent to another one.
* `Element.wrap_spec`: what is kept of a number by the types that wrap around.
* `IsNearestInteger`: the nearest integer, and the even one of two.
* `Element.clampToByte_spec`: what is kept of a number by the clamped type.
-/
namespace TierCheck

/-! ## Residues -/

/-- The integer is congruent to `n`, and it is in the range of the residues: from zero on, or around
zero if it has a sign. -/
structure IsResidue (modulus : ℤ) (signed : Bool) (n k : ℤ) : Prop where
  congruent : k ≡ n [ZMOD modulus]
  range : if signed then -modulus ≤ 2 * k ∧ 2 * k < modulus else 0 ≤ k ∧ k < modulus

theorem IsResidue.unique {modulus n j k : ℤ} {signed : Bool} (hj : IsResidue modulus signed n j)
    (hk : IsResidue modulus signed n k) : j = k := by
  have hdvd := (hk.congruent.trans hj.congruent.symm).dvd
  have hj := hj.range
  have hk := hk.range
  have hlt : |j - k| < modulus := by
    rw [abs_lt]
    cases signed <;> simp only [if_true, Bool.false_eq_true, if_false] at hj hk <;> omega
  exact sub_eq_zero.1 (Int.eq_zero_of_abs_lt_dvd hdvd hlt)

namespace Element

variable {rest modulus half : Double} {r m : ℤ}

/-- A negative remainder becomes one that is not, modulo the modulus. -/
theorem exists_lifted (hrest : rest.StandsFor r) (hmodulus : modulus.StandsFor m)
    (hlow : -m < r) (hhigh : r < m) (hm : m ≤ 2 ^ 53) :
    ∃ k : ℤ, (if rest < Double.zero then rest + modulus else rest).StandsFor k ∧
      k ≡ r [ZMOD m] ∧ 0 ≤ k ∧ k < m := by
  have hnegative : rest < Double.zero ↔ r < 0 := by
    rw [hrest.lt_iff Double.standsFor_zero, Int.cast_lt_zero]
  by_cases hr : r < 0
  · rw [if_pos (hnegative.2 hr)]
    refine ⟨r + m, (hrest.add_int hmodulus (abs_le.2 ⟨by omega, by omega⟩)).1, ?_, by omega,
      by omega⟩
    exact Int.add_modEq_right
  · rw [if_neg (mt hnegative.1 hr)]
    exact ⟨r, hrest, Int.ModEq.rfl, by omega, hhigh⟩

/-- A residue from the upper half becomes negative if the type has a sign. -/
theorem exists_centred (hrest : rest.StandsFor r) (hmodulus : modulus.StandsFor m)
    (hhalf : half.StandsFor (m / 2)) (hlow : 0 ≤ r) (hhigh : r < m) (hm : m ≤ 2 ^ 53)
    (signed : Bool) :
    ∃ k : ℤ, (if signed && half ≤ rest then rest - modulus else rest).StandsFor k ∧
      IsResidue m signed r k ∧ |k| ≤ 2 ^ 53 := by
  have hupper : half ≤ rest ↔ m ≤ 2 * r := by
    rw [hhalf.le_iff hrest, div_le_iff₀ two_pos, mul_comm]
    exact_mod_cast Iff.rfl
  by_cases h : signed = true ∧ m ≤ 2 * r
  · rw [if_pos (by simpa [hupper] using h)]
    have hminus : (-modulus).StandsFor ((-m : ℤ) : ℚ) := by
      rw [Int.cast_neg]
      exact hmodulus.neg
    have hbound : |r + -m| ≤ 2 ^ 53 := abs_le.2 ⟨by omega, by omega⟩
    refine ⟨r + -m, (hrest.add_int hminus hbound).1, ⟨?_, ?_⟩, hbound⟩
    · exact Int.modEq_iff_dvd.2 ⟨1, by ring⟩
    · rw [if_pos h.1]
      omega
  · rw [if_neg (by simpa [hupper] using h)]
    refine ⟨r, hrest, ⟨Int.ModEq.rfl, ?_⟩, abs_le.2 ⟨by omega, by omega⟩⟩
    cases signed with
    | true =>
      rw [if_pos rfl]
      have hnot : ¬m ≤ 2 * r := fun hle => h ⟨rfl, hle⟩
      omega
    | false => exact ⟨hlow, hhigh⟩

/-- Half of a width is exact. -/
theorem standsFor_half_modulus {bits : Nat} (hpos : 0 < bits) (hbits : bits ≤ 53) :
    (Double.ofNat (wordLimit bits) / Double.ofNat 2).StandsFor ((wordLimit bits : ℤ) / 2) := by
  obtain ⟨k, rfl⟩ := Nat.exists_eq_add_of_lt hpos
  rw [Nat.zero_add] at hbits ⊢
  have hlimit : wordLimit (k + 1) = 2 * wordLimit k := by
    unfold wordLimit
    rw [Nat.pow_eq, Nat.pow_eq, pow_succ, Nat.mul_comm]
  have hbound : wordLimit (k + 1) ≤ 2 ^ 53 := Nat.pow_le_pow_right Nat.two_pos hbits
  have hhalf : ((wordLimit (k + 1) : ℤ) : ℚ) / 2 = wordLimit k := by
    rw [hlimit]
    push_cast
    ring
  have htwo : (Double.ofNat 2).StandsFor 2 := by
    have := Double.standsFor_ofNat (n := 2) (by norm_num)
    rwa [Nat.cast_two] at this
  have hwhole : (Double.ofNat (wordLimit (k + 1))).StandsFor (wordLimit (k + 1) : ℤ) := by
    rw [Int.cast_natCast]
    exact Double.standsFor_ofNat hbound
  refine hwhole.div_exact htwo (by norm_num) (z := Double.ofNat (wordLimit k)) ?_
  rw [hhalf]
  exact Double.standsFor_ofNat (by omega)

/-- What the types that wrap around keep of a number is the residue of its integer part. -/
theorem wrap_spec {bits : Nat} (hpos : 0 < bits) (hbits : bits ≤ 53) (signed : Bool) {v : Double}
    {q : ℚ} (hv : v.StandsFor q) :
    ∃ k : ℤ, wrap bits signed v = Double.ofInt k ∧ |k| ≤ 2 ^ 53 ∧
      IsResidue (wordLimit bits) signed (towardZero q) k := by
  have hlimit : 0 < wordLimit bits ∧ wordLimit bits ≤ 2 ^ 53 :=
    ⟨Nat.pow_pos Nat.two_pos, Nat.pow_le_pow_right Nat.two_pos hbits⟩
  have hmodulus : (Double.ofNat (wordLimit bits)).StandsFor (wordLimit bits : ℤ) := by
    rw [Int.cast_natCast]
    exact Double.standsFor_ofNat hlimit.2
  have hmodulusPos : (0 : ℤ) < wordLimit bits := Int.natCast_pos.2 hlimit.1
  have hmodulusLe : (wordLimit bits : ℤ) ≤ 2 ^ 53 := by exact_mod_cast hlimit.2
  have hrest := hv.truncate.mod hmodulus hmodulusPos.ne'
  obtain ⟨r, hlifted, hcongruent, hlow, hhigh⟩ := exists_lifted hrest hmodulus
    (Int.lt_tmod_of_pos _ hmodulusPos) (Int.tmod_lt_of_pos _ hmodulusPos) hmodulusLe
  obtain ⟨k, hcentred, hresidue, hbound⟩ := exists_centred hlifted hmodulus
    (standsFor_half_modulus hpos hbits) hlow hhigh hmodulusLe signed
  have hzero : Double.zero.StandsFor ((0 : ℤ) : ℚ) := by
    rw [Int.cast_zero]
    exact Double.standsFor_zero
  obtain ⟨hresult, hnegZero⟩ := hcentred.add_int hzero (by simpa using hbound)
  refine ⟨k, ?_, hbound, ?_, hresidue.range⟩
  · rw [add_zero] at hresult
    rw [wrap, if_pos (Double.isFinite_iff_standsFor.2 ⟨q, hv⟩)]
    refine hresult.eq_ofInt hbound fun heq => ?_
    exact absurd (hnegZero.1 heq).2 (by decide)
  · have htmod : (towardZero q).tmod (wordLimit bits) ≡ towardZero q [ZMOD wordLimit bits] :=
      Int.modEq_iff_dvd.2 Int.dvd_self_sub_tmod
    exact hresidue.congruent.trans (hcongruent.trans htmod)

end Element

/-! ## Nearest integers -/

/-- The integer is nearest to the number, and it is the even one if there are two. -/
@[mk_iff]
structure IsNearestInteger (n : ℤ) (q : ℚ) : Prop where
  near : |q - n| ≤ 1 / 2
  even : |q - n| = 1 / 2 → Even n

theorem IsNearestInteger.unique {m n : ℤ} {q : ℚ} (hm : IsNearestInteger m q)
    (hn : IsNearestInteger n q) : m = n := by
  by_contra hne
  have hstep : (1 : ℚ) ≤ |(m : ℚ) - n| := by
    exact_mod_cast Int.one_le_abs (sub_ne_zero.2 hne)
  have hapart : |(m : ℚ) - n| ≤ |q - m| + |q - n| := by
    rw [abs_sub_comm q]
    exact abs_sub_le _ _ _
  have hmNear := hm.near
  have hnNear := hn.near
  -- both are half a step away, so both are even
  obtain ⟨j, rfl⟩ := hm.even (by linarith)
  obtain ⟨k, rfl⟩ := hn.even (by linarith)
  have hone : |(j + j) - (k + k)| ≤ 1 := by
    have hle : |((j + j : ℤ) : ℚ) - (k + k : ℤ)| ≤ 1 := by linarith
    exact_mod_cast hle
  rw [abs_le] at hone
  omega

theorem isNearestInteger_floor {q : ℚ} (h : Int.fract q < 1 / 2 ∨ Int.fract q = 1 / 2 ∧ Even ⌊q⌋) :
    IsNearestInteger ⌊q⌋ q := by
  have habs : |q - ⌊q⌋| = Int.fract q := abs_of_nonneg (Int.fract_nonneg q)
  rw [isNearestInteger_iff, habs]
  rcases h with hlt | ⟨heq, heven⟩
  · exact ⟨hlt.le, fun heq => absurd heq hlt.ne⟩
  · exact ⟨heq.le, fun _ => heven⟩

theorem isNearestInteger_floor_add_one {q : ℚ}
    (h : 1 / 2 < Int.fract q ∨ Int.fract q = 1 / 2 ∧ ¬Even ⌊q⌋) :
    IsNearestInteger (⌊q⌋ + 1) q := by
  have hlt := Int.fract_lt_one q
  have habs : |q - (⌊q⌋ + 1 : ℤ)| = 1 - Int.fract q := by
    rw [Int.fract] at hlt ⊢
    push_cast
    rw [abs_of_nonpos (by linarith)]
    ring
  rw [isNearestInteger_iff, habs]
  rcases h with hgt | ⟨heq, hodd⟩
  · exact ⟨by linarith, fun heq => by linarith⟩
  · exact ⟨by linarith, fun _ => Int.even_add_one.2 hodd⟩

namespace Element

variable {v : Double} {q : ℚ}

theorem not_isNaN_or_le_zero (hv : v.StandsFor q) (hpos : 0 < q) :
    ¬(v.isNaN = true ∨ v ≤ Double.zero) := by
  rw [not_or, hv.le_iff Double.standsFor_zero, not_le]
  exact ⟨hv.not_isNaN, hpos⟩

theorem ofNat_255_le_iff (hv : v.StandsFor q) : Double.ofNat 255 ≤ v ↔ 255 ≤ q := by
  have htop := Double.standsFor_ofNat (n := 255) (by norm_num)
  rw [htop.le_iff hv, Nat.cast_ofNat]

theorem standsFor_sub_floor (hv : v.StandsFor q) (hpos : 0 < q) :
    (v - v.floor).StandsFor (Int.fract q) := by
  obtain ⟨z, hz⟩ := hv.exists_fract hpos.le
  rw [Int.fract, sub_eq_add_neg] at hz ⊢
  exact hv.add_exact hv.floor.neg hz

theorem isZero_floor_mod_two_iff (hv : v.StandsFor q) (hpos : 0 < q) :
    (v.floor % Double.ofNat 2).isZero = true ↔ Even ⌊q⌋ := by
  have htwo : (Double.ofNat 2).StandsFor ((2 : ℤ) : ℚ) := by
    have htwo := Double.standsFor_ofNat (n := 2) (by norm_num)
    exact_mod_cast htwo
  rw [Double.isZero, (hv.floor.mod htwo (by norm_num)).eqv_iff Double.standsFor_zero,
    Int.cast_eq_zero, Int.tmod_eq_emod_of_nonneg (Int.floor_nonneg.2 hpos.le), Int.even_iff]

theorem floor_bounds (hpos : 0 < q) (hlt : q < 255) : 0 ≤ ⌊q⌋ ∧ ⌊q⌋ < 255 := by
  refine ⟨Int.floor_nonneg.2 hpos.le, Int.floor_lt.2 ?_⟩
  exact_mod_cast hlt

theorem floor_eq_ofInt (hv : v.StandsFor q) (hpos : 0 < q) (hlt : q < 255) :
    v.floor = Double.ofInt ⌊q⌋ := by
  have hbounds := floor_bounds hpos hlt
  refine hv.floor.eq_ofInt (abs_le.2 ⟨by omega, by omega⟩) fun heq => ?_
  have hsign := hv.isNegative_floor hpos
  rw [heq] at hsign
  exact absurd hsign (by decide)

theorem floor_add_one_eq_ofInt (hv : v.StandsFor q) (hpos : 0 < q) (hlt : q < 255) :
    v.floor + Double.one = Double.ofInt (⌊q⌋ + 1) := by
  have hbounds := floor_bounds hpos hlt
  have hone : Double.one.StandsFor ((1 : ℤ) : ℚ) := by
    rw [Int.cast_one]
    exact Double.standsFor_one
  have hbound : |⌊q⌋ + 1| ≤ 2 ^ 53 := abs_le.2 ⟨by omega, by omega⟩
  obtain ⟨hsum, hnegZero⟩ := hv.floor.add_int hone hbound
  exact hsum.eq_ofInt hbound fun heq => absurd (hnegZero.1 heq).2 (by decide)

/-- Between the ends of the range the clamped type rounds to the nearest integer. -/
theorem clampToByte_between (hv : v.StandsFor q) (hpos : 0 < q) (hlt : q < 255) :
    ∃ k : ℤ, clampToByte v = Double.ofInt k ∧ 0 ≤ k ∧ k ≤ 255 ∧ IsNearestInteger k q := by
  have hfraction := standsFor_sub_floor hv hpos
  have hhalf : (Double.ofRatio 1 2).StandsFor (1 / 2) := by
    simpa using Double.standsFor_half (m := 1) (by norm_num)
  have hbounds := floor_bounds hpos hlt
  have hdown := floor_eq_ofInt hv hpos hlt
  have hup := floor_add_one_eq_ofInt hv hpos hlt
  unfold clampToByte
  rw [if_neg (not_isNaN_or_le_zero hv hpos), if_neg (mt (ofNat_255_le_iff hv).1 hlt.not_ge)]
  simp only [hhalf.lt_iff hfraction, hfraction.lt_iff hhalf, isZero_floor_mod_two_iff hv hpos]
  split
  · next hgt =>
    exact ⟨_, hup, by omega, by omega, isNearestInteger_floor_add_one (.inl hgt)⟩
  · next hle =>
    split
    · next hless => exact ⟨_, hdown, hbounds.1, by omega, isNearestInteger_floor (.inl hless)⟩
    · next hge =>
      have htie : Int.fract q = 1 / 2 := le_antisymm (not_lt.1 hle) (not_lt.1 hge)
      split
      · next heven =>
        exact ⟨_, hdown, hbounds.1, by omega, isNearestInteger_floor (.inr ⟨htie, heven⟩)⟩
      · next hodd =>
        exact ⟨_, hup, by omega, by omega, isNearestInteger_floor_add_one (.inr ⟨htie, hodd⟩)⟩

theorem isNearestInteger_self (n : ℤ) : IsNearestInteger n n := by
  rw [isNearestInteger_iff, sub_self, abs_zero]
  exact ⟨by norm_num, fun h => by norm_num at h⟩

/-- What the clamped type keeps of a number is the nearest integer of its range. -/
theorem clampToByte_spec (hv : v.StandsFor q) :
    ∃ k : ℤ, clampToByte v = Double.ofInt k ∧ 0 ≤ k ∧ k ≤ 255 ∧
      IsNearestInteger k (max 0 (min 255 q)) := by
  rcases le_or_gt q 0 with hneg | hpos
  · have hzero : clampToByte v = Double.zero :=
      if_pos (.inr ((hv.le_iff Double.standsFor_zero).2 hneg))
    refine ⟨0, hzero, le_rfl, by norm_num, ?_⟩
    rw [max_eq_left ((min_le_right _ _).trans hneg)]
    exact_mod_cast isNearestInteger_self 0
  · rcases le_or_gt 255 q with hge | hlt
    · have htop : clampToByte v = Double.ofNat 255 :=
        (if_neg (not_isNaN_or_le_zero hv hpos)).trans (if_pos ((ofNat_255_le_iff hv).2 hge))
      refine ⟨255, htop, by norm_num, le_rfl, ?_⟩
      rw [min_eq_left hge, max_eq_right (by norm_num)]
      exact_mod_cast isNearestInteger_self 255
    · rw [min_eq_right hlt.le, max_eq_right hpos.le]
      exact clampToByte_between hv hpos hlt

end Element
end TierCheck
