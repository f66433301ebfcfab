import TierCheck.Number.Shortest
import TierCheck.Proofs.Number.Digits
import TierCheck.Proofs.Number.Nearest

/-!
# The text of a number reads back

The numeral that `Double.shortest` picks lies in the rounding interval of its magnitude, whichever
grid the search stops at, and what lies in that interval is rounded to the magnitude. So a finite
number is read back from its text bit by bit, with its sign, also if it is zero.

* `RoundingInterval.roundsTo_of_contains`: the interval in integers is the one in rational numbers.
* `RoundingInterval.search_spec`: the search never leaves the interval.
* `Double.ofDecimal_eq`: reading a numeral rounds it to the nearest number.
* `Double.read?_text`: the result.
-/
namespace TierCheck

/-- The number that a numeral stands for. -/
def Decimal.value (d : Decimal) : ℚ := d.coefficient * 10 ^ d.exponent

namespace RoundingInterval

/-! ## The interval of a magnitude -/

/-- One unit in the last place of a magnitude, in the units of its interval. -/
def lastPlace (o : Nat) : ℚ :=
  4 * 10 ^ (ofOrdinal o).places * 2 ^ Format.binary64.exponent o

theorem lastPlace_pos (o : Nat) : 0 < lastPlace o := by
  unfold lastPlace
  positivity

theorem unit_eq (exponent : Int) :
    ((if exponent < 0 then Nat.pow 5 (-exponent).toNat else Nat.pow 2 exponent.toNat : Nat) : ℚ) =
      10 ^ (-exponent).toNat * 2 ^ exponent := by
  split
  · next h =>
    obtain ⟨k, rfl⟩ : ∃ k : Nat, exponent = -(k : Int) := ⟨(-exponent).toNat, by omega⟩
    have hk : (- -(k : Int)).toNat = k := by omega
    have hten : (10 : ℚ) ^ k = 5 ^ k * 2 ^ k := by rw [← mul_pow]; norm_num
    rw [hk, Nat.pow_eq, zpow_neg, zpow_natCast, hten]
    push_cast
    field_simp
  · next h =>
    obtain ⟨k, rfl⟩ : ∃ k : Nat, exponent = (k : Int) := ⟨exponent.toNat, by omega⟩
    have hk : (-(k : Int)).toNat = 0 := by omega
    rw [hk, Nat.pow_eq, Int.toNat_natCast, zpow_natCast]
    push_cast
    ring

theorem low_eq {o : Nat} (ho : 0 < o) :
    ((ofOrdinal o).low : ℚ) =
      (Format.binary64.significand o - Format.binary64.halfBelow o) * lastPlace o := by
  have hsignificand := Format.binary64.significand_pos ho
  simp only [ofOrdinal, lastPlace, Format.halfBelow]
  rw [Nat.cast_mul, unit_eq, Nat.pow_eq, Nat.cast_sub (by split <;> omega)]
  split
  · push_cast; ring
  · push_cast; ring

theorem value_eq (o : Nat) :
    ((ofOrdinal o).value : ℚ) = Format.binary64.significand o * lastPlace o := by
  simp only [ofOrdinal, lastPlace]
  rw [Nat.cast_mul, unit_eq]
  push_cast
  ring

theorem high_eq (o : Nat) :
    ((ofOrdinal o).high : ℚ) = (Format.binary64.significand o + 1 / 2) * lastPlace o := by
  simp only [ofOrdinal, lastPlace]
  rw [Nat.cast_mul, unit_eq]
  push_cast
  ring

theorem closed_iff (o : Nat) :
    (ofOrdinal o).closed = true ↔ Format.binary64.significand o % 2 = 0 :=
  decide_eq_true_iff

/-- The ends belong to an interval only if it is closed. -/
theorem contains_iff {i : RoundingInterval} {n : Nat} :
    i.contains n = true ↔
      i.low ≤ n ∧ n ≤ i.high ∧ (¬i.closed = true → i.low < n ∧ n < i.high) := by
  unfold contains
  split
  · next h => simp [h]
  · next h =>
    rw [decide_eq_true_iff]
    exact ⟨fun hlt => ⟨hlt.1.le, hlt.2.le, fun _ => hlt⟩, fun hle => hle.2.2 h⟩

/-- A number on the grid of the interval, in units in the last place. -/
theorem div_lastPlace (o n : Nat) :
    (n : ℚ) / (4 * 10 ^ (ofOrdinal o).places) / 2 ^ Format.binary64.exponent o =
      n / lastPlace o := by
  rw [div_div, lastPlace]

/-- What the interval contains is rounded to the magnitude. -/
theorem roundsTo_of_contains {o n : Nat} (ho : 0 < o) (h : (ofOrdinal o).contains n = true) :
    Format.binary64.RoundsTo o (n / (4 * 10 ^ (ofOrdinal o).places)) := by
  obtain ⟨hlow, hhigh, hties⟩ := contains_iff.1 h
  have hlow' : ((ofOrdinal o).low : ℚ) ≤ n := by exact_mod_cast hlow
  have hhigh' : (n : ℚ) ≤ (ofOrdinal o).high := by exact_mod_cast hhigh
  rw [low_eq ho] at hlow'
  rw [high_eq] at hhigh'
  refine ⟨?_, ?_, fun hodd => ?_⟩
  · rw [div_lastPlace, le_div_iff₀ (lastPlace_pos o)]
    exact hlow'
  · rw [div_lastPlace, div_le_iff₀ (lastPlace_pos o)]
    exact hhigh'
  · have hopen : ¬(ofOrdinal o).closed = true := by
      rw [closed_iff]
      omega
    obtain ⟨hlow, hhigh⟩ := hties hopen
    have hlow' : ((ofOrdinal o).low : ℚ) < n := by exact_mod_cast hlow
    have hhigh' : (n : ℚ) < (ofOrdinal o).high := by exact_mod_cast hhigh
    rw [low_eq ho] at hlow'
    rw [high_eq] at hhigh'
    rw [div_lastPlace, lt_div_iff₀ (lastPlace_pos o), div_lt_iff₀ (lastPlace_pos o)]
    exact ⟨hlow', hhigh'⟩

/-- A number on the grid of the interval that is rounded to the magnitude is in the interval. -/
theorem contains_of_roundsTo (ho : 0 < o) {n : Nat}
    (h : Format.binary64.RoundsTo o (n / (4 * 10 ^ (ofOrdinal o).places))) :
    (ofOrdinal o).contains n = true := by
  have hpos := lastPlace_pos o
  obtain ⟨hlow, hhigh, hties⟩ := h
  rw [div_lastPlace, le_div_iff₀ hpos, ← low_eq ho] at hlow
  rw [div_lastPlace, div_le_iff₀ hpos, ← high_eq] at hhigh
  refine contains_iff.2 ⟨by exact_mod_cast hlow, by exact_mod_cast hhigh, fun hopen => ?_⟩
  rw [closed_iff] at hopen
  obtain ⟨hlow, hhigh⟩ := hties (by omega)
  rw [div_lastPlace, lt_div_iff₀ hpos, ← low_eq ho] at hlow
  rw [div_lastPlace, div_lt_iff₀ hpos, ← high_eq] at hhigh
  exact ⟨by exact_mod_cast hlow, by exact_mod_cast hhigh⟩

/-! ## The search -/

theorem contains_value {o : Nat} (ho : 0 < o) :
    (ofOrdinal o).contains (ofOrdinal o).value = true := by
  have hscale := lastPlace_pos o
  have hlow : (ofOrdinal o).low < (ofOrdinal o).value := by
    have hcast : ((ofOrdinal o).low : ℚ) < (ofOrdinal o).value := by
      rw [low_eq ho, value_eq]
      have hbelow := Format.binary64.le_halfBelow o
      nlinarith
    exact_mod_cast hcast
  have hhigh : (ofOrdinal o).value < (ofOrdinal o).high := by
    have hcast : ((ofOrdinal o).value : ℚ) < (ofOrdinal o).high := by
      rw [high_eq, value_eq]
      nlinarith
    exact_mod_cast hcast
  exact contains_iff.2 ⟨hlow.le, hhigh.le, fun _ => ⟨hlow, hhigh⟩⟩

theorem value_mod_four (o : Nat) : (ofOrdinal o).value % 4 = 0 := by
  simp only [ofOrdinal]
  rw [Nat.mul_assoc]
  exact Nat.mul_mod_right 4 _

theorem contains_of_pointOn? {i : RoundingInterval} {step point : Nat}
    (h : i.pointOn? step = some point) : i.contains (point * step) = true := by
  unfold pointOn? at h
  dsimp only at h
  split at h
  · next hlower hupper =>
    obtain rfl := Option.some.inj h
    split
    · exact hlower
    · exact hupper
  · next hlower _ =>
    obtain rfl := Option.some.inj h
    exact hlower
  · next _ hupper =>
    obtain rfl := Option.some.inj h
    exact hupper
  · cases h

/-- The search ends at a point of the interval. -/
theorem search_spec {i : RoundingInterval} (hvalue : i.contains i.value = true)
    (hfour : i.value % 4 = 0) (n : Nat) :
    ∃ m, i.contains m = true ∧ (i.search n).value = m / (4 * 10 ^ i.places) := by
  induction n with
  | zero =>
    obtain ⟨k, hk⟩ : ∃ k, i.value = 4 * k := ⟨i.value / 4, by omega⟩
    refine ⟨i.value, hvalue, ?_⟩
    simp only [search, Decimal.value, hk, zpow_neg, zpow_natCast]
    rw [Nat.mul_div_cancel_left k (by norm_num)]
    push_cast
    field_simp
  | succ n ih =>
    rw [search]
    split
    · next point hpoint =>
      refine ⟨_, contains_of_pointOn? hpoint, ?_⟩
      simp only [Decimal.value, Nat.pow_eq]
      rw [zpow_sub₀ (by norm_num), zpow_natCast, zpow_natCast]
      push_cast
      field_simp
    · exact ih

/-- The shortest numeral is rounded to the magnitude. -/
theorem roundsTo_shortest {o : Nat} (ho : 0 < o) :
    Format.binary64.RoundsTo o (ofOrdinal o).shortest.value := by
  obtain ⟨m, hm, hvalue⟩ := search_spec (contains_value ho) (value_mod_four o)
    ((ofOrdinal o).value.log2 / 3 + 1)
  rw [shortest, hvalue]
  exact roundsTo_of_contains ho hm

end RoundingInterval

/-! ## Reading a numeral -/

namespace Decimal

/-- Three binary digits make less than a decimal digit, so powers of ten are bounded by powers of
two. -/
theorem two_zpow_le_ten_zpow {k : Int} (h : 0 ≤ k) : (2 : ℚ) ^ (3 * k) ≤ 10 ^ k := by
  rw [zpow_mul]
  exact zpow_le_zpow_left₀ h (by norm_num) (by norm_num)

theorem ten_zpow_le_two_zpow {k : Int} (h : k ≤ 0) : (10 : ℚ) ^ k ≤ 2 ^ (3 * k) := by
  have hneg := two_zpow_le_ten_zpow (Int.neg_nonneg_of_nonpos h)
  have hinv := inv_anti₀ (by positivity) hneg
  rwa [← zpow_neg, ← zpow_neg, neg_neg, show -(3 * -k) = 3 * k by ring] at hinv

/-- A numeral that is not zero and has many zeros behind its digits is large. -/
theorem le_value {d : Decimal} (hne : d.coefficient ≠ 0) {bound : Int} (hbound : 0 ≤ bound)
    (h : bound ≤ d.exponent) : (2 : ℚ) ^ (3 * bound) ≤ d.value := by
  have hone : (1 : ℚ) ≤ d.coefficient := by exact_mod_cast Nat.pos_of_ne_zero hne
  calc (2 : ℚ) ^ (3 * bound) ≤ 2 ^ (3 * d.exponent) :=
        zpow_le_zpow_right₀ (by norm_num) (by omega)
    _ ≤ 10 ^ d.exponent := two_zpow_le_ten_zpow (by omega)
    _ ≤ d.value := le_mul_of_one_le_left (by positivity) hone

/-- A numeral with many zeros in front of its digits is small. -/
theorem value_lt {d : Decimal} (hne : d.coefficient ≠ 0) {bound : Int} (hbound : 0 ≤ bound)
    (h : d.exponent ≤ -bound - d.coefficient.log2) : d.value < 2 ^ (1 - 3 * bound) := by
  have hcoefficient := (Format.log2_bounds hne).2
  have hten : (10 : ℚ) ^ d.exponent ≤ 2 ^ (3 * d.exponent) := ten_zpow_le_two_zpow (by omega)
  calc d.value ≤ d.coefficient * 2 ^ (3 * d.exponent) :=
        mul_le_mul_of_nonneg_left hten (by positivity)
    _ < 2 ^ ((d.coefficient.log2 : Int) + 1) * 2 ^ (3 * d.exponent) :=
        mul_lt_mul_of_pos_right hcoefficient (by positivity)
    _ = 2 ^ ((d.coefficient.log2 : Int) + 1 + 3 * d.exponent) := by
        rw [← zpow_add₀ (by norm_num)]
    _ ≤ 2 ^ (1 - 3 * bound) := zpow_le_zpow_right₀ (by norm_num) (by omega)

/-- The text of a numeral is read as a numeral of the same value. -/
theorem read?_positional (d : Decimal) :
    ∃ d', read? d.positional.toList = some d' ∧ d'.value = d.value := by
  cases h : d.exponent with
  | ofNat zeros =>
    refine ⟨_, read?_positional_of_ofNat h, ?_⟩
    simp only [value, h, Nat.pow_eq, Int.ofNat_eq_natCast, zpow_natCast, zpow_zero]
    push_cast
    ring
  | negSucc k => exact ⟨d, read?_positional_of_negSucc h, rfl⟩

end Decimal

/-- A numeral that is rounded to a positive magnitude is not zero. -/
theorem Format.RoundsTo.coefficient_ne_zero {o : Nat} {d : Decimal}
    (h : Format.binary64.RoundsTo o d.value) (ho : 0 < o) : d.coefficient ≠ 0 := by
  intro hzero
  have hlow := h.half_le ho
  have hpos : (0 : ℚ) < 1 / 2 * 2 ^ Format.binary64.exponent o := by positivity
  rw [Decimal.value, hzero, Nat.cast_zero, zero_mul] at hlow
  linarith

namespace Double

theorem exponent_le {o : Nat} (ho : o < Format.binary64.overflow) :
    Format.binary64.exponent o ≤ 971 := by
  simp only [Format.binary64, Nat.pow_eq] at ho
  simp only [Format.exponent, Format.binary64, Nat.pow_eq]
  omega

/-- The limits beyond which no power of ten is computed are far from all finite magnitudes. -/
theorem exponent_bounds {o : Nat} (hpos : 0 < o) (ho : o < Format.binary64.overflow) {d : Decimal}
    (h : Format.binary64.RoundsTo o d.value) :
    d.coefficient ≠ 0 ∧ d.exponent ≤ 400 ∧ -400 - (d.coefficient.log2 : Int) ≤ d.exponent := by
  have hexponent := exponent_le ho
  have hleast : -1074 ≤ Format.binary64.exponent o := Format.binary64.leastExponent_le o
  have hlow := h.half_le hpos
  have hhigh := h.lt
  have hne := h.coefficient_ne_zero hpos
  refine ⟨hne, ?_, ?_⟩
  · by_contra hlarge
    have hle := Decimal.le_value hne (by norm_num) (show 401 ≤ d.exponent by omega)
    have hlt := hle.trans_lt hhigh
    rw [zpow_lt_zpow_iff_right₀ (by norm_num)] at hlt
    have hbits : (Format.binary64.fractionBits : Int) = 52 := rfl
    omega
  · by_contra hsmall
    have hlt := Decimal.value_lt hne (by norm_num)
      (show d.exponent ≤ -401 - (d.coefficient.log2 : Int) by omega)
    have hhalf : (2 : ℚ) ^ (Format.binary64.exponent o - 1) ≤ d.value := by
      rw [zpow_sub₀ (by norm_num), zpow_one]
      linarith
    have hlt' := hhalf.trans_lt hlt
    rw [zpow_lt_zpow_iff_right₀ (by norm_num)] at hlt'
    omega

/-- A numeral that is not zero and within the limits is rounded as a ratio of integers. -/
theorem ofDecimal_eq_round {d : Decimal} (hne : d.coefficient ≠ 0) (hlarge : d.exponent ≤ 400)
    (hsmall : -400 - (d.coefficient.log2 : Int) ≤ d.exponent) (negative : Bool) :
    ∃ num den, num ≠ 0 ∧ 0 < den ∧ ratio num den 0 = d.value ∧
      ofDecimal negative d = round negative num den 0 := by
  unfold ofDecimal
  rw [if_neg hne, if_neg (by omega), if_neg (by omega)]
  split
  · next e he =>
    refine ⟨_, _, ?_, Nat.one_pos, ?_, rfl⟩
    · rw [Nat.pow_eq]
      positivity
    · simp only [ratio, Decimal.value, he, Nat.pow_eq, Int.ofNat_eq_natCast, zpow_natCast,
        zpow_zero]
      push_cast
      ring
  · next e he =>
    refine ⟨_, _, hne, ?_, ?_, rfl⟩
    · rw [Nat.pow_eq]
      positivity
    · simp only [ratio, Decimal.value, he, Nat.pow_eq, zpow_negSucc, zpow_zero, mul_one]
      push_cast
      rw [div_eq_mul_inv]

/-- A numeral is read as the magnitude that it is rounded to. -/
theorem ofDecimal_eq {o : Nat} (hpos : 0 < o) (ho : o < Format.binary64.overflow) {d : Decimal}
    (h : Format.binary64.RoundsTo o d.value) (negative : Bool) :
    ofDecimal negative d = finite negative ⟨o, ho⟩ := by
  obtain ⟨hne, hlarge, hsmall⟩ := exponent_bounds hpos ho h
  obtain ⟨num, den, -, hden, hvalue, hround⟩ := ofDecimal_eq_round hne hlarge hsmall negative
  rw [hround, round, Format.nearest_eq hden hpos (hvalue ▸ h), ofOrdinal, dif_pos ho]

/-! ## Reading a text -/

theorem toLower_of_isDigit {c : Char} (h : c.isDigit = true) : c.toLower = c := by
  simp only [Char.isDigit, Bool.and_eq_true, decide_eq_true_eq] at h
  have hdigit : c.val.toNat ≤ 57 := h.2
  unfold Char.toLower
  rw [dif_neg]
  intro hupper
  have hletter : 65 ≤ c.val.toNat := hupper.1
  omega

/-- What begins with a digit is no name of a special value. -/
theorem readUnsigned?_of_digit {s : List Char} (h : ∃ c rest, s = c :: rest ∧ c.isDigit = true)
    (negative : Bool) :
    readUnsigned? negative s = (Decimal.read? s).map (ofDecimal negative) := by
  obtain ⟨c, rest, rfl, hdigit⟩ := h
  have hletter : ∀ name : String, name.toList.head?.any Char.isDigit = false →
      String.ofList ((c :: rest).map Char.toLower) ≠ name := by
    rintro name hname rfl
    rw [String.toList_ofList, List.map_cons, toLower_of_isDigit hdigit, List.head?_cons,
      Option.any_some, hdigit] at hname
    cases hname
  unfold readUnsigned?
  dsimp only
  rw [if_neg, if_neg]
  · exact hletter "nan" rfl
  · rintro (hinf | hinf)
    · exact hletter "inf" rfl hinf
    · exact hletter "infinity" rfl hinf

/-- The shortest numeral of a magnitude is read as that magnitude. -/
theorem readUnsigned?_shortest (negative : Bool) (o : Fin Format.binary64.overflow) :
    readUnsigned? negative (shortest o.val).positional.toList = some (finite negative o) := by
  rw [readUnsigned?_of_digit (Decimal.positional_isNumeral _).1]
  obtain ⟨d, hread, hvalue⟩ := Decimal.read?_positional (shortest o.val)
  rw [hread, Option.map_some]
  by_cases hzero : o.val = 0
  · have hcoefficient : d.coefficient = 0 := by
      rw [shortest, if_pos hzero] at hvalue
      simp only [Decimal.value, Nat.cast_zero, zero_mul, mul_eq_zero, Nat.cast_eq_zero] at hvalue
      exact hvalue.resolve_right (by positivity)
    have ho : (⟨0, hzero ▸ o.isLt⟩ : Fin Format.binary64.overflow) = o := Fin.ext hzero.symm
    rw [ofDecimal, if_pos hcoefficient, ofOrdinal, dif_pos (hzero ▸ o.isLt), ho]
  · have hrounds := RoundingInterval.roundsTo_shortest (Nat.pos_of_ne_zero hzero)
    rw [shortest, if_neg hzero] at hvalue
    rw [ofDecimal_eq (Nat.pos_of_ne_zero hzero) o.isLt (hvalue ▸ hrounds)]

theorem read?_of_digit {s : List Char} (h : ∃ c rest, s = c :: rest ∧ c.isDigit = true) :
    read? s = readUnsigned? false s := by
  obtain ⟨c, rest, rfl, hdigit⟩ := h
  unfold read?
  split
  · next r heq =>
    rw [(List.cons.inj heq).1] at hdigit
    cases hdigit
  · next r heq =>
    rw [(List.cons.inj heq).1] at hdigit
    cases hdigit
  · rfl

/-- A finite number is read from its text. -/
theorem read?_text (negative : Bool) (o : Fin Format.binary64.overflow) :
    read? (finite negative o).text.toList = some (finite negative o) := by
  cases negative with
  | false =>
    have htext : (finite false o).text.toList = (shortest o.val).positional.toList := by
      simp [text]
    rw [htext, read?_of_digit (Decimal.positional_isNumeral _).1, readUnsigned?_shortest]
  | true =>
    have htext : (finite true o).text.toList = '-' :: (shortest o.val).positional.toList := by
      simp [text]
    rw [htext, read?, readUnsigned?_shortest]

end Double
end TierCheck
