import TierCheck.Proofs.Number.Length
import TierCheck.Proofs.Number.Order

/-!
# Bit patterns and their texts

A pattern of 64 bits is a sign, eleven bits for the exponent and 52 for the fraction. The texts of
two numbers differ if their patterns do, and each pattern is found again when the text is read. That
holds for the text with the fewest digits too, because a text is rounded correctly when it is read:
the fewest digits are those of a numeral that is still rounded to the number. No numeral is read as
an infinity, however large it is; that takes the name of the infinity.

* `Double.IsNaNPattern`: the patterns that stand for no number.
* `Double.toBits_ofBits`, `Double.standsFor_ofBits`: what the other patterns stand for.
* `Double.exists_ofDecimal`: numerals are rounded correctly, also beyond the range of the format.
* `RoundingInterval.digits_shortest_le`: no numeral with fewer digits is rounded to the number.
* `Double.bits_roundTrip`: the result.
-/
namespace TierCheck

namespace Double

/-! ## Patterns -/

def exponentField (bits : BitVec 64) : Nat := bits.toNat / 2 ^ 52 % 2 ^ 11

def fractionField (bits : BitVec 64) : Nat := bits.toNat % 2 ^ 52

/-- The pattern stands for no number: its exponent is the greatest one, and it has a fraction. -/
def IsNaNPattern (bits : BitVec 64) : Prop := exponentField bits = 2047 ∧ fractionField bits ≠ 0

instance (bits : BitVec 64) : Decidable (IsNaNPattern bits) :=
  inferInstanceAs (Decidable (_ ∧ _))

/-- The two fields together are the ordinal. -/
theorem fields_eq_ordinal (bits : BitVec 64) :
    exponentField bits * 2 ^ 52 + fractionField bits = bits.toNat % 2 ^ 63 := by
  unfold exponentField fractionField
  omega

theorem fractionField_lt (bits : BitVec 64) : fractionField bits < 2 ^ 52 :=
  Nat.mod_lt _ (by norm_num)

/-- Past the infinity there are only patterns that stand for no number. -/
theorem isNaNPattern_iff (bits : BitVec 64) :
    IsNaNPattern bits ↔ Format.binary64.overflow < bits.toNat % 2 ^ 63 := by
  have hoverflow : Format.binary64.overflow = 2047 * 2 ^ 52 := rfl
  have hfields := fields_eq_ordinal bits
  have hfraction := fractionField_lt bits
  have hexponent : exponentField bits < 2 ^ 11 := Nat.mod_lt _ (by norm_num)
  rw [IsNaNPattern, hoverflow]
  omega

theorem ofBits_of_isNaNPattern {bits : BitVec 64} (h : IsNaNPattern bits) :
    ofBits bits.toNat = nan :=
  if_pos ((isNaNPattern_iff bits).1 h)

theorem ofBits_of_not_isNaNPattern {bits : BitVec 64} (h : ¬IsNaNPattern bits) :
    ofBits bits.toNat = ofOrdinal (decide (2 ^ 63 ≤ bits.toNat)) (bits.toNat % 2 ^ 63) := by
  have hword : bits.toNat % wordLimit 64 = bits.toNat := Nat.mod_eq_of_lt bits.isLt
  rw [ofBits, hword]
  exact if_neg (mt (isNaNPattern_iff bits).2 h)

theorem toBits_ofOrdinal (negative : Bool) {o : Nat} (h : o ≤ Format.binary64.overflow) :
    (ofOrdinal negative o).toBits = negative.toNat * 2 ^ 63 + o := by
  unfold ofOrdinal
  split
  · rfl
  · next hlarge =>
    obtain rfl : o = Format.binary64.overflow := Nat.le_antisymm h (Nat.le_of_not_lt hlarge)
    rfl

/-- A pattern that stands for a number is the pattern of that number. -/
theorem toBits_ofBits {bits : BitVec 64} (h : ¬IsNaNPattern bits) :
    (ofBits bits.toNat).toBits = bits.toNat := by
  have hordinal : bits.toNat % 2 ^ 63 ≤ Format.binary64.overflow :=
    Nat.le_of_not_lt (mt (isNaNPattern_iff bits).2 h)
  have hlt := bits.isLt
  rw [ofBits_of_not_isNaNPattern h, toBits_ofOrdinal _ hordinal]
  by_cases hsign : 2 ^ 63 ≤ bits.toNat
  · rw [decide_eq_true hsign, Bool.toNat_true]
    omega
  · rw [decide_eq_false hsign, Bool.toNat_false]
    omega

/-- The number of a pattern: without the exponent of the least numbers, the fraction has a one in
front. -/
theorem standsFor_ofBits {bits : BitVec 64} (h : exponentField bits ≠ 2047) :
    (ofBits bits.toNat).StandsFor
      ((if 2 ^ 63 ≤ bits.toNat then -1 else 1) *
        ((if exponentField bits = 0 then 0 else 2 ^ 52) + fractionField bits) *
        2 ^ ((max (exponentField bits) 1 : Nat) - 1075 : Int)) := by
  have hfields := fields_eq_ordinal bits
  have hfraction := fractionField_lt bits
  have hexponent : exponentField bits < 2 ^ 11 := Nat.mod_lt _ (by norm_num)
  have hordinal : bits.toNat % 2 ^ 63 < Format.binary64.overflow := by
    have hoverflow : Format.binary64.overflow = 2047 * 2 ^ 52 := rfl
    omega
  have hrun : bits.toNat % 2 ^ 63 / 2 ^ 52 = exponentField bits := by omega
  have hplace : bits.toNat % 2 ^ 63 % 2 ^ 52 = fractionField bits := by omega
  have hmagnitude : Format.binary64.magnitude (bits.toNat % 2 ^ 63) =
      ((if exponentField bits = 0 then 0 else 2 ^ 52) + fractionField bits) *
        2 ^ ((max (exponentField bits) 1 : Nat) - 1075 : Int) := by
    have hsignificand : Format.binary64.significand (bits.toNat % 2 ^ 63) =
        (if exponentField bits = 0 then 0 else 2 ^ 52) + fractionField bits := by
      simp only [Format.significand, Format.binary64, Nat.pow_eq, hplace]
      split <;> split <;> omega
    have hunit : Format.binary64.exponent (bits.toNat % 2 ^ 63) =
        (max (exponentField bits) 1 : Nat) - 1075 := by
      simp only [Format.exponent, Format.binary64, Nat.pow_eq, hrun]
      omega
    rw [Format.magnitude, hsignificand, hunit]
    push_cast
    rfl
  rw [ofBits_of_not_isNaNPattern fun hnan => h hnan.1, ofOrdinal, dif_pos hordinal]
  refine ⟨_, _, rfl, ?_⟩
  rw [mul_assoc, ← hmagnitude, signedMagnitude]
  by_cases hsign : 2 ^ 63 ≤ bits.toNat
  · rw [decide_eq_true hsign, if_pos rfl, if_pos hsign, neg_one_mul]
  · rw [decide_eq_false hsign, if_neg (by decide), if_neg hsign, one_mul]

/-! ## Rounding a numeral -/

/-- What is at most half of the least magnitude is rounded to zero. -/
theorem roundsTo_zero {x : ℚ} (hnonneg : 0 ≤ x)
    (h : x ≤ 1 / 2 * 2 ^ Format.binary64.leastExponent) : Format.binary64.RoundsTo 0 x := by
  have hsignificand : Format.binary64.significand 0 = 0 := rfl
  have hexponent : Format.binary64.exponent 0 = Format.binary64.leastExponent := rfl
  have hbelow := Format.binary64.le_halfBelow 0
  have hquotient : 0 ≤ x / 2 ^ Format.binary64.exponent 0 := by positivity
  refine ⟨?_, ?_, fun hodd => ?_⟩
  · rw [hsignificand, Nat.cast_zero]
    linarith
  · rw [hsignificand, hexponent, div_le_iff₀ (by positivity), Nat.cast_zero, zero_add]
    exact h
  · rw [hsignificand] at hodd
    cases hodd

/-- What is rounded to a finite magnitude is less than `2 ^ 1024`. -/
theorem overflow_le_of_roundsTo {x : ℚ} {o : Nat} (h : Format.binary64.RoundsTo o x)
    (hx : 2 ^ (1024 : Int) ≤ x) : Format.binary64.overflow ≤ o := by
  by_contra hfinite
  have hexponent := exponent_le (Nat.lt_of_not_le hfinite)
  have hbits : (Format.binary64.fractionBits : Int) = 52 := rfl
  have hlt := hx.trans_lt h.lt
  rw [zpow_lt_zpow_iff_right₀ (by norm_num)] at hlt
  omega

/-- **A numeral is rounded correctly**, and its sign is kept. It is infinite if the magnitude that
it is rounded to is past the finite ones. -/
theorem exists_ofDecimal (negative : Bool) (d : Decimal) :
    ∃ o, ofDecimal negative d = ofOrdinal negative o ∧ Format.binary64.RoundsTo o d.value := by
  have hnonneg : 0 ≤ d.value := by
    unfold Decimal.value
    positivity
  by_cases hne : d.coefficient = 0
  · have hvalue : d.value = Format.binary64.magnitude 0 := by simp [Decimal.value, hne]
    exact ⟨0, if_pos hne, hvalue ▸ Format.binary64.roundsTo_magnitude 0⟩
  by_cases hlarge : 400 < d.exponent
  · have hbound : 2 ^ (3 * 401 : Int) ≤ d.value := Decimal.le_value hne (by norm_num) (by omega)
    have hvalue : 2 ^ (1024 : Int) ≤ d.value :=
      (zpow_le_zpow_right₀ (by norm_num) (by norm_num)).trans hbound
    obtain ⟨num, den, hden, hratio⟩ := Format.exists_ratio_eq hnonneg
    have hnum : num ≠ 0 := by
      rintro rfl
      have hpos := (zpow_pos (show (0 : ℚ) < 2 by norm_num) 1024).trans_le hvalue
      simp [← hratio, ratio] at hpos
    have hrounds : Format.binary64.RoundsTo (Format.binary64.nearest num den 0) d.value :=
      hratio ▸ Format.roundsTo_nearest (by decide) hnum hden
    refine ⟨_, ?_, hrounds⟩
    rw [ofDecimal, if_neg hne, if_pos hlarge, ofOrdinal,
      dif_neg (Nat.not_lt.2 (overflow_le_of_roundsTo hrounds hvalue))]
  by_cases hsmall : d.exponent < -400 - (d.coefficient.log2 : Int)
  · refine ⟨0, ?_, roundsTo_zero hnonneg ?_⟩
    · rw [ofDecimal, if_neg hne, if_neg hlarge, if_pos hsmall]
    · have hvalue : d.value < 2 ^ (1 - 3 * 401 : Int) :=
        Decimal.value_lt hne (by norm_num) (by omega)
      calc d.value ≤ 2 ^ (1 - 3 * 401 : Int) := hvalue.le
        _ ≤ 2 ^ (-1 + -1074 : Int) := zpow_le_zpow_right₀ (by norm_num) (by norm_num)
        _ = 1 / 2 * 2 ^ (-1074 : Int) := by rw [zpow_add₀ (by norm_num)]; norm_num
  · obtain ⟨num, den, hnum, hden, hvalue, hround⟩ :=
      ofDecimal_eq_round hne (by omega) (by omega) negative
    exact ⟨_, hround, hvalue ▸ Format.roundsTo_nearest (by decide) hnum hden⟩

end Double

/-! ## The fewest digits -/

/-- The digits of a numeral, without those zeros that its exponent stands for. -/
def Decimal.digits (d : Decimal) : List Char := Nat.toDigits 10 d.coefficient

/-- The numeral is read as the number, and no numeral with fewer digits is. -/
structure Decimal.IsShortest (d : Decimal) (x : Double) : Prop where
  reads : Double.ofDecimal x.isNegative d = x
  fewest : ∀ e : Decimal, Double.ofDecimal x.isNegative e = x → d.digits.length ≤ e.digits.length

namespace RoundingInterval

/-- No numeral with fewer digits is rounded to the magnitude. -/
theorem digits_shortest_le {o : Nat} (ho : 0 < o) {d : Decimal}
    (h : Format.binary64.RoundsTo o d.value) :
    (ofOrdinal o).shortest.digits.length ≤ d.digits.length := by
  have hshortest := roundsTo_shortest ho
  have hexponent : d.exponent ≤ (ofOrdinal o).shortest.exponent := le_exponent_of_roundsTo ho h
  have hdigits : 0 < d.digits.length := List.length_pos_iff.2 Nat.toDigits_ne_nil
  by_contra hfewer
  rw [not_le] at hfewer
  set places := d.digits.length
  have hcoefficient : d.coefficient < 10 ^ places :=
    (Nat.length_toDigits_le_iff (by norm_num) hdigits).1 le_rfl
  have hpower : 10 ^ places ≤ (ofOrdinal o).shortest.coefficient := by
    rw [← not_lt]
    exact mt (Nat.length_toDigits_le_iff (by norm_num) hdigits).2 (Nat.not_le_of_lt hfewer)
  -- between the two numerals there is a power of ten, which has only one digit
  have hlow : d.value ≤ (1 : Nat) * 10 ^ (places + (ofOrdinal o).shortest.exponent) := by
    have hcast : (d.coefficient : ℚ) ≤ 10 ^ places := by exact_mod_cast hcoefficient.le
    rw [Decimal.value, zpow_add₀ (by norm_num), zpow_natCast, Nat.cast_one, one_mul]
    gcongr
    norm_num
  have hhigh : (1 : Nat) * 10 ^ (places + (ofOrdinal o).shortest.exponent) ≤
      (ofOrdinal o).shortest.value := by
    have hcast : (10 : ℚ) ^ places ≤ (ofOrdinal o).shortest.coefficient := by exact_mod_cast hpower
    rw [Decimal.value, zpow_add₀ (by norm_num), zpow_natCast, Nat.cast_one, one_mul]
    gcongr
  have hle := le_exponent_of_roundsTo ho (h.between hshortest hlow hhigh)
  omega

end RoundingInterval

namespace Double

theorem isShortest_shortest (negative : Bool) (o : Fin Format.binary64.overflow) :
    (shortest o.val).IsShortest (finite negative o) := by
  rcases Nat.eq_zero_or_pos o.val with hzero | hpos
  · have ho : o = ⟨0, by decide⟩ := Fin.ext hzero
    subst ho
    exact ⟨rfl, fun e _ => List.length_pos_iff.2 Nat.toDigits_ne_nil⟩
  · rw [shortest, if_neg hpos.ne']
    refine ⟨ofDecimal_eq hpos o.isLt (RoundingInterval.roundsTo_shortest hpos) negative, ?_⟩
    exact fun e he => RoundingInterval.digits_shortest_le hpos ((roundsTo_of_ofDecimal he).2 hpos)

/-! ## Names of special values -/

/-- Only its name is read as a value that is not finite. -/
theorem trim_eq_of_readNumber? {text : String} {d : Double} (h : readNumber? text = some d)
    (hd : d.isFinite = false) : trim text = d.text := by
  unfold readNumber? at h
  dsimp only at h
  split at h
  · next hname =>
    obtain rfl := Option.some.inj h
    exact hname
  · split at h
    · next hname =>
      obtain rfl := Option.some.inj h
      exact hname
    · split at h
      · next hname =>
        obtain rfl := Option.some.inj h
        exact hname
      · obtain ⟨-, hfinite⟩ := Option.filter_eq_some_iff.1 h
        rw [hd] at hfinite
        cases hfinite

/-! ## The result -/

/-- **Every number is found again in its text, bit by bit.** A pattern that stands for a number is
recovered from the text, also that of negative zero or of an infinity; the others have the text
`NaN`, which is read as the value that is not a number. So two patterns that stand for numbers have
different texts. Whatever the text, the values that are not finite are read from their names alone.
The text of a finite number is its shortest numeral with all digits written out, and a numeral is
rounded correctly when it is read. -/
theorem bits_roundTrip :
    (∀ bits, ¬IsNaNPattern bits → ∃ d,
      Value.read "number" (ofBits bits.toNat).text = .ok (.number d) ∧ d.toBits = bits.toNat) ∧
    (∀ bits, IsNaNPattern bits → (ofBits bits.toNat).text = "NaN" ∧
      Value.read "number" (ofBits bits.toNat).text = .ok (.number .nan)) ∧
    (∀ a b, ¬IsNaNPattern a → ¬IsNaNPattern b → a ≠ b →
      (ofBits a.toNat).text ≠ (ofBits b.toNat).text) ∧
    (∀ kind text d, Value.read kind text = .ok (.number d) → d.isFinite = false →
      d = .nan ∧ trim text = "NaN" ∨ d = .infinite false ∧ trim text = "Infinity" ∨
        d = .infinite true ∧ trim text = "-Infinity") ∧
    (∀ negative o, ∃ d : Decimal, d.IsShortest (finite negative o) ∧
      (finite negative o).text = (if negative then "-" else "") ++ d.positional) ∧
    ∀ negative d, ∃ o, ofDecimal negative d = ofOrdinal negative o ∧
      Format.binary64.RoundsTo o d.value := by
  have hread (d : Double) : Value.read "number" d.text = .ok (.number d) :=
    Value.read_text (v := .number d) trivial
  refine ⟨fun bits h => ⟨_, hread _, toBits_ofBits h⟩, fun bits h => ?_,
    fun a b ha hb hne htext => ?_, fun kind text d h hd => ?_, fun negative o => ?_,
    exists_ofDecimal⟩
  · rw [ofBits_of_isNaNPattern h]
    exact ⟨rfl, hread _⟩
  · have hbits := congrArg toBits (text_inj htext)
    rw [toBits_ofBits ha, toBits_ofBits hb] at hbits
    exact hne (BitVec.eq_of_toNat_eq hbits)
  · obtain rfl : "number" = kind := Value.kindName_of_read h
    obtain ⟨_, hvalue, hnumber⟩ := Value.read_number_eq_ok_iff.1 h
    cases hvalue
    have hname := trim_eq_of_readNumber? hnumber hd
    cases d with
    | nan => exact .inl ⟨rfl, hname⟩
    | infinite negative =>
      cases negative
      · exact .inr (.inl ⟨rfl, hname⟩)
      · exact .inr (.inr ⟨rfl, hname⟩)
    | finite negative o => cases hd
  · exact ⟨shortest o.val, isShortest_shortest negative o, rfl⟩

/-- The least pattern with a fraction, whose number is `2 ^ (-1074)`, the pattern of negative zero
beside that of zero, a pattern that stands for no number, and a name between blanks. -/
theorem bits_roundTrip_extremes :
    let least : BitVec 64 := 1
    let zeros : BitVec 64 × BitVec 64 := (0, 0x8000000000000000)
    let nonsense : BitVec 64 := 0x7FF0000000000001
    (ofBits least.toNat).StandsFor (2 ^ (-1074 : Int)) ∧
      (∃ d, Value.read "number" (ofBits least.toNat).text = .ok (.number d) ∧
        d.toBits = least.toNat) ∧
      (ofBits zeros.1.toNat).text ≠ (ofBits zeros.2.toNat).text ∧
      (IsNaNPattern nonsense ∧ (ofBits nonsense.toNat).text = "NaN") ∧
      Value.read "number" " -Infinity\n" = .ok (.number (.infinite true)) ∧
      trim " -Infinity\n" = "-Infinity" := by
  intro least zeros nonsense
  obtain ⟨hrecovered, hnonsense, hdistinct, hnames, -⟩ := bits_roundTrip
  have hleast : (ofBits least.toNat).StandsFor (2 ^ (-1074 : Int)) := by
    have hfields : exponentField least = 0 ∧ fractionField least = 1 ∧ ¬2 ^ 63 ≤ least.toNat := by
      decide
    have h := standsFor_ofBits (show exponentField least ≠ 2047 by decide)
    rw [hfields.1, hfields.2.1, if_neg hfields.2.2] at h
    norm_num at h ⊢
    exact h
  have hblanks : Value.read "number" " -Infinity\n" = .ok (.number (.infinite true)) := by
    decide +kernel
  have hname : trim " -Infinity\n" = "-Infinity" := by
    rcases hnames _ _ _ hblanks rfl with h | h | h
    · cases h.1
    · cases h.1
    · exact h.2
  exact ⟨hleast, hrecovered least (by decide), hdistinct _ _ (by decide) (by decide) (by decide),
    ⟨by decide, (hnonsense nonsense (by decide)).1⟩, hblanks, hname⟩

end Double

end TierCheck
