import TierCheck.Proofs.Value.Conversion

/-!
# Stored numbers

An element of an array keeps the numbers of its type as they are. So a number that has been stored
once is stored again without a change, which is why an array can be copied element by element.

* `Element.coerce_coerce`: storing twice is storing once.
* `Element.Holds`: the integer that an element should hold for a number.
* `Element.coerce_exact`: the result.
-/
namespace TierCheck

/-! ## The 32-bit format within the 64-bit one -/

theorem Format.exists_magnitude_eq_single {r : Nat} (h : r < binary32.overflow) :
    ∃ o < binary64.overflow, binary64.magnitude o = binary32.magnitude r := by
  have hsignificand : binary32.significand r < 2 ^ 53 :=
    (binary32.significand_lt r).trans (by decide)
  have hoverflow : binary32.overflow = 255 * 2 ^ 23 := rfl
  have hexponent : binary32.exponent r = -149 + ((r / 2 ^ 23 - 1 : Nat) : Int) := rfl
  exact exists_magnitude_eq_scaled hsignificand (by omega) (by omega)

/-- A number of the 32-bit format stays what it is when it is rounded to that format. -/
theorem Double.toSingle_toSingle (v : Double) : v.toSingle.toSingle = v.toSingle := by
  cases v with
  | nan => rfl
  | infinite negative => rfl
  | finite negative ordinal =>
    simp only [toSingle]
    generalize Format.binary32.nearest _ 1 _ = rounded
    by_cases hfinite : rounded < Format.binary32.overflow
    · obtain ⟨o, ho, hsame⟩ := Format.exists_magnitude_eq_single hfinite
      have hwide : round negative (Format.binary32.significand rounded) 1
          (Format.binary32.exponent rounded) = finite negative ⟨o, ho⟩ :=
        round_of_ratio_eq Nat.one_pos ((Format.ratio_significand _ _).trans hsame.symm) negative
      have hback : Format.binary32.nearest (Format.binary64.significand o) 1
          (Format.binary64.exponent o) = rounded :=
        Format.nearest_of_ratio_eq _ Nat.one_pos ((Format.ratio_significand _ _).trans hsame)
      simp only [if_pos hfinite, hwide, hback]
    · simp only [if_neg hfinite]

/-! ## Storing -/

namespace Element

theorem wrap_of_not_isFinite (bits : Nat) (signed : Bool) {v : Double} (h : v.isFinite ≠ true) :
    wrap bits signed v = Double.zero := if_neg h

/-- A residue is stored as it is. -/
theorem wrap_wrap {bits : Nat} (hpos : 0 < bits) (hbits : bits ≤ 53) (signed : Bool) (v : Double) :
    wrap bits signed (wrap bits signed v) = wrap bits signed v := by
  have hkept : ∀ k : ℤ, |k| ≤ 2 ^ 53 → IsResidue (wordLimit bits) signed k k →
      wrap bits signed (Double.ofInt k) = Double.ofInt k := by
    intro k hbound hresidue
    obtain ⟨j, hj, -, hagain⟩ := wrap_spec hpos hbits signed (Double.standsFor_ofInt hbound)
    rw [towardZero_of_int] at hagain
    rw [hj, hagain.unique hresidue]
  by_cases hfinite : v.isFinite = true
  · obtain ⟨q, hv⟩ := Double.isFinite_iff_standsFor.1 hfinite
    obtain ⟨k, hk, hbound, hresidue⟩ := wrap_spec hpos hbits signed hv
    rw [hk, hkept k hbound ⟨Int.ModEq.rfl, hresidue.range⟩]
  · rw [wrap_of_not_isFinite bits signed hfinite]
    refine hkept 0 (by norm_num) ⟨Int.ModEq.rfl, ?_⟩
    have hlimit : 0 < wordLimit bits := Nat.pow_pos Nat.two_pos
    split <;> omega

theorem clampToByte_ofNat : ∀ n ≤ 255, clampToByte (Double.ofNat n) = Double.ofNat n := by
  decide +kernel

theorem clampToByte_of_not_isFinite {v : Double} (h : v.isFinite ≠ true) :
    clampToByte v = if v = .infinite false then Double.ofNat 255 else Double.zero := by
  cases v with
  | nan => rfl
  | infinite negative => cases negative <;> decide +kernel
  | finite s o => exact absurd rfl h

theorem clampToByte_clampToByte (v : Double) : clampToByte (clampToByte v) = clampToByte v := by
  obtain ⟨n, hn, h⟩ : ∃ n ≤ 255, clampToByte v = Double.ofNat n := by
    by_cases hfinite : v.isFinite = true
    · obtain ⟨q, hv⟩ := Double.isFinite_iff_standsFor.1 hfinite
      obtain ⟨k, hk, hlow, hhigh, -⟩ := clampToByte_spec hv
      obtain ⟨n, rfl⟩ := Int.eq_ofNat_of_zero_le hlow
      exact ⟨n, by omega, hk⟩
    · rw [clampToByte_of_not_isFinite hfinite]
      split
      · exact ⟨255, le_rfl, rfl⟩
      · exact ⟨0, by decide, rfl⟩
  rw [h, clampToByte_ofNat n hn]

/-- **Storing twice is storing once.** -/
theorem coerce_coerce (e : Element) (v : Double) : e.coerce (e.coerce v) = e.coerce v := by
  cases e with
  | int8 => exact wrap_wrap (by decide) (by decide) true v
  | uint8 => exact wrap_wrap (by decide) (by decide) false v
  | uint8Clamped => exact clampToByte_clampToByte v
  | int16 => exact wrap_wrap (by decide) (by decide) true v
  | uint16 => exact wrap_wrap (by decide) (by decide) false v
  | int32 => exact wrap_wrap (by decide) (by decide) true v
  | uint32 => exact wrap_wrap (by decide) (by decide) false v
  | float32 => exact v.toSingle_toSingle
  | float64 => rfl

/-! ## What is stored -/

def isSigned : Element → Bool
  | int8 | int16 | int32 => true
  | _ => false

/-- The integer that an element of an integer type should hold for a number: the residue of the
integer part modulo the width, or the nearest integer of a byte. -/
def Holds (e : Element) (q : ℚ) (n : ℤ) : Prop :=
  if e = uint8Clamped then 0 ≤ n ∧ n ≤ 255 ∧ IsNearestInteger n (max 0 (min 255 q))
  else IsResidue (2 ^ (8 * e.size)) e.isSigned (towardZero q) n

theorem Holds.unique {e : Element} {q : ℚ} {m n : ℤ} (hm : e.Holds q m) (hn : e.Holds q n) :
    m = n := by
  unfold Holds at hm hn
  split at hm
  · next h =>
    rw [if_pos h] at hn
    exact hm.2.2.unique hn.2.2
  · next h =>
    rw [if_neg h] at hn
    exact hm.unique hn

theorem coerce_eq_wrap {e : Element} (hfloat : e.isFloat = false) (hclamped : e ≠ uint8Clamped)
    (v : Double) : e.coerce v = wrap (8 * e.size) e.isSigned v := by
  cases e <;> first | rfl | exact absurd rfl hclamped | cases hfloat

theorem exists_holds {e : Element} (hfloat : e.isFloat = false) {v : Double} {q : ℚ}
    (hv : v.StandsFor q) : ∃ n : ℤ, e.Holds q n ∧ |n| ≤ 2 ^ 53 ∧ e.coerce v = Double.ofInt n := by
  by_cases hclamped : e = uint8Clamped
  · obtain ⟨n, hn, hlow, hhigh, hnearest⟩ := clampToByte_spec hv
    subst hclamped
    exact ⟨n, ⟨hlow, hhigh, hnearest⟩, abs_le.2 ⟨by omega, by omega⟩, hn⟩
  · have hsize : 0 < 8 * e.size ∧ 8 * e.size ≤ 53 := by
      cases e <;> first | decide | cases hfloat
    obtain ⟨n, hn, hbound, hresidue⟩ := wrap_spec hsize.1 hsize.2 e.isSigned hv
    rw [coerce_eq_wrap hfloat hclamped]
    refine ⟨n, ?_, hbound, hn⟩
    rw [Holds, if_neg hclamped]
    exact_mod_cast hresidue

theorem coerce_of_not_isFinite {e : Element} (hfloat : e.isFloat = false) {v : Double}
    (hv : v.isFinite ≠ true) :
    e.coerce v =
      if e = uint8Clamped ∧ v = .infinite false then Double.ofNat 255 else Double.zero := by
  by_cases hclamped : e = uint8Clamped
  · subst hclamped
    rw [show uint8Clamped.coerce v = clampToByte v from rfl, clampToByte_of_not_isFinite hv]
    simp
  · rw [coerce_eq_wrap hfloat hclamped, wrap_of_not_isFinite _ _ hv, if_neg (by simp [hclamped])]

/-- **Storing into an integer type is the exact conversion**, for every double: of a finite one the
element holds the one integer that it should, and zero without a sign, or the greatest byte, of the
others. In all types, what was stored once is stored again as it is. -/
theorem coerce_exact :
    (∀ e : Element, e.isFloat = false → ∀ (v : Double) (q : ℚ), v.StandsFor q →
      ∃ n : ℤ, e.Holds q n ∧ (∀ m, e.Holds q m → m = n) ∧ (e.coerce v).StandsFor n ∧
        e.coerce v ≠ Double.negZero) ∧
    (∀ e : Element, e.isFloat = false →
      e.coerce .nan = Double.zero ∧ e.coerce (.infinite true) = Double.zero ∧
        e.coerce (.infinite false) =
          if e = uint8Clamped then Double.ofNat 255 else Double.zero) ∧
    ∀ (e : Element) (v : Double), e.coerce (e.coerce v) = e.coerce v := by
  refine ⟨fun e hfloat v q hv => ?_, fun e hfloat => ?_, coerce_coerce⟩
  · obtain ⟨n, hn, hbound, hstored⟩ := exists_holds hfloat hv
    refine ⟨n, hn, fun m hm => hm.unique hn, ?_, ?_⟩
    · rw [hstored]
      exact Double.standsFor_ofInt hbound
    · rw [hstored]
      exact Double.ofInt_ne_negZero hbound
  · have hstored {v : Double} (hv : v.isFinite ≠ true) := coerce_of_not_isFinite hfloat hv
    rw [hstored (v := .nan) (by decide), hstored (v := .infinite true) (by decide),
      hstored (v := .infinite false) (by decide)]
    simp

/-- A number below the range of its type, a negative multiple of the width, which would leave a
negative zero, and a half between two bytes. -/
theorem coerce_exact_values :
    (Double.ofRatio 259 2).neg.StandsFor (-(259 / 2)) ∧
      (int8.coerce (Double.ofRatio 259 2).neg).StandsFor (127 : ℤ) ∧
      (uint16.coerce (Double.ofInt (-65536))).StandsFor (0 : ℤ) ∧
      uint16.coerce (Double.ofInt (-65536)) ≠ Double.negZero ∧
      (uint8Clamped.coerce (Double.ofRatio 5 2)).StandsFor (2 : ℤ) := by
  have hbelow : (Double.ofRatio 259 2).neg.StandsFor (-(259 / 2)) := by
    simpa using (Double.standsFor_half (m := 259) (by norm_num)).neg
  have hmultiple : (Double.ofInt (-65536)).StandsFor (-65536 : ℤ) :=
    Double.standsFor_ofInt (by norm_num)
  have htie : (Double.ofRatio 5 2).StandsFor (5 / 2) := by
    simpa using Double.standsFor_half (m := 5) (by norm_num)
  obtain ⟨m, -, hm, hstored, -⟩ := coerce_exact.1 int8 rfl _ _ hbelow
  obtain ⟨n, -, hn, hzero, hnegZero⟩ := coerce_exact.1 uint16 rfl _ _ hmultiple
  obtain ⟨k, -, hk, hbyte, -⟩ := coerce_exact.1 uint8Clamped rfl _ _ htie
  have hm127 : int8.Holds (-(259 / 2)) 127 := by
    have hcut : towardZero (-(259 / 2)) = -129 := by norm_num [towardZero]
    rw [Holds, if_neg (by decide), hcut]
    exact ⟨by decide, by decide⟩
  have hn0 : uint16.Holds (-65536 : ℤ) 0 := by
    rw [Holds, if_neg (by decide), towardZero_of_int]
    exact ⟨by decide, by decide⟩
  have hk2 : uint8Clamped.Holds (5 / 2) 2 := by
    rw [Holds, if_pos rfl, isNearestInteger_iff]
    norm_num
  rw [← hm 127 hm127] at hstored
  rw [← hn 0 hn0] at hzero
  rw [← hk 2 hk2] at hbyte
  exact ⟨hbelow, hstored, hzero, hnegZero, hbyte⟩

end Element

end TierCheck
