import TierCheck.Proofs.Event.RoundTrip
import TierCheck.Proofs.Number.Exact

/-!
# The text of a number

A number is told by its text, because it is read back from it. The numeral in the text has as few
decimal places as a numeral can have that is rounded to the number, so an integer that is exact is
written with its digits.

* `Double.text_inj`: different numbers have different texts.
* `RoundingInterval.le_exponent_shortest`: no numeral on a coarser grid is rounded to the number.
* `Double.text_ofInt`: the text of an integer.
-/
namespace TierCheck

/-- The text of an integer: its digits, behind a minus sign if it is negative. -/
def integerText (n : Int) : String := (if n < 0 then "-" else "") ++ naturalText n.natAbs

theorem Double.text_inj {a b : Double} (h : a.text = b.text) : a = b := by
  have hread := readNumber?_text a
  rw [h, readNumber?_text b] at hread
  exact (Option.some.inj hread).symm

/-- Zeros behind the digits of a number. -/
theorem toDigits_mul_pow {n : Nat} (h : 0 < n) (zeros : Nat) :
    Nat.toDigits 10 (n * 10 ^ zeros) = Nat.toDigits 10 n ++ List.replicate zeros '0' := by
  induction zeros with
  | zero => simp
  | succ zeros ih =>
    have hpos : 0 < n * 10 ^ zeros := by positivity
    have hsplit : n * 10 ^ (zeros + 1) = 10 * (n * 10 ^ zeros) + 0 := by ring
    rw [hsplit, ← Nat.toDigits_append_toDigits (by norm_num) hpos (by norm_num), ih,
      List.replicate_succ', List.append_assoc]
    rfl

namespace RoundingInterval

/-! ## The coarsest grid -/

/-- What lies between two numbers of an interval is in the interval. -/
theorem contains_of_between {i : RoundingInterval} {a b n : Nat} (ha : i.contains a = true)
    (hb : i.contains b = true) (hle : a ≤ n) (hge : n ≤ b) : i.contains n = true := by
  rw [contains_iff] at ha hb ⊢
  refine ⟨by omega, by omega, fun hopen => ?_⟩
  have ha' := ha.2.2 hopen
  have hb' := hb.2.2 hopen
  omega

/-- If a point of a grid is in the interval, then one next to the number is. -/
theorem pointOn?_ne_none {i : RoundingInterval} (hvalue : i.contains i.value = true)
    {point step : Nat} (hstep : 0 < step) (h : i.contains (point * step) = true) :
    i.pointOn? step ≠ none := by
  have hlower : i.value / step * step ≤ i.value := Nat.div_mul_le_self _ _
  have hupper : i.value ≤ (i.value / step + 1) * step :=
    (Nat.lt_mul_of_div_lt (Nat.lt_succ_self _) hstep).le
  have hneighbour : i.contains (i.value / step * step) = true ∨
      i.contains ((i.value / step + 1) * step) = true := by
    rcases Nat.lt_or_ge (i.value / step) point with hlt | hge
    · exact .inr (contains_of_between hvalue h hupper (Nat.mul_le_mul_right _ hlt))
    · exact .inl (contains_of_between h hvalue (Nat.mul_le_mul_right _ hge) hlower)
  unfold pointOn?
  dsimp only
  split <;> simp_all

/-- The search stops at a grid with a point in the interval, or before it. -/
theorem le_exponent_search {i : RoundingInterval} (hvalue : i.contains i.value = true)
    {point k : Nat} (h : i.contains (point * (4 * 10 ^ k)) = true) {grids : Nat} (hk : k ≤ grids) :
    (k : Int) - i.places ≤ (i.search grids).exponent := by
  induction grids with
  | zero =>
    obtain rfl := Nat.le_zero.1 hk
    simp [search]
  | succ grids ih =>
    rw [search]
    split
    · dsimp only
      omega
    · next hnone =>
      refine ih (Nat.le_of_lt_succ (Nat.lt_of_le_of_ne hk ?_))
      rintro rfl
      exact pointOn?_ne_none hvalue (by positivity) h hnone

variable {o : Nat}

theorem low_pos (ho : 0 < o) : 0 < (ofOrdinal o).low := by
  have hpos : (0 : ℚ) < (ofOrdinal o).low := by
    have hsignificand : (1 : ℚ) ≤ Format.binary64.significand o := by
      exact_mod_cast Format.binary64.significand_pos ho
    have hbelow := Format.binary64.halfBelow_le o
    rw [low_eq ho]
    exact mul_pos (by linarith) (lastPlace_pos o)
  exact_mod_cast hpos

theorem high_le (ho : 0 < o) : (ofOrdinal o).high ≤ 2 * (ofOrdinal o).value := by
  have hle : ((ofOrdinal o).high : ℚ) ≤ 2 * (ofOrdinal o).value := by
    have hsignificand : (1 : ℚ) ≤ Format.binary64.significand o := by
      exact_mod_cast Format.binary64.significand_pos ho
    rw [high_eq, value_eq, ← mul_assoc]
    exact mul_le_mul_of_nonneg_right (by linarith) (lastPlace_pos o).le
  exact_mod_cast hle

/-- Three binary digits make less than a decimal digit, so no grid that has a point in the interval
is coarser than the first one of the search. -/
theorem le_grids (ho : 0 < o) {point k : Nat}
    (h : (ofOrdinal o).contains (point * (4 * 10 ^ k)) = true) :
    k ≤ (ofOrdinal o).value.log2 / 3 + 1 := by
  obtain ⟨hlow, hhigh, -⟩ := contains_iff.1 h
  have hpoint : 0 < point := by
    have hpos := (low_pos ho).trans_le hlow
    exact Nat.pos_of_mul_pos_right hpos
  have hstep : 4 * 10 ^ k ≤ 2 * (ofOrdinal o).value :=
    (Nat.le_mul_of_pos_left _ hpoint).trans (hhigh.trans (high_le ho))
  have hbinary : 2 ^ (3 * k) ≤ (ofOrdinal o).value := by
    calc 2 ^ (3 * k) = 8 ^ k := by rw [pow_mul]; norm_num
      _ ≤ 10 ^ k := Nat.pow_le_pow_left (by norm_num) k
      _ ≤ (ofOrdinal o).value := by omega
  have hne : (ofOrdinal o).value ≠ 0 := by
    have : 0 < 2 ^ (3 * k) := by positivity
    omega
  have hlog := (Nat.le_log2 hne).2 hbinary
  omega

/-- No numeral on a coarser grid than the shortest one's is rounded to the magnitude. -/
theorem le_exponent_shortest (ho : 0 < o) {point k : Nat}
    (h : (ofOrdinal o).contains (point * (4 * 10 ^ k)) = true) :
    (k : Int) - (ofOrdinal o).places ≤ (ofOrdinal o).shortest.exponent :=
  le_exponent_search (contains_value ho) h (le_grids ho h)

theorem neg_places_le_exponent_shortest (ho : 0 < o) :
    -((ofOrdinal o).places : Int) ≤ (ofOrdinal o).shortest.exponent := by
  obtain ⟨point, hpoint⟩ : ∃ point, (ofOrdinal o).value = point * (4 * 10 ^ 0) :=
    ⟨(ofOrdinal o).value / 4, by have := value_mod_four o; omega⟩
  have hle := le_exponent_shortest ho (hpoint ▸ contains_value ho)
  omega

/-- If a multiple of a power of ten is rounded to the magnitude, then the shortest numeral has no
digits below that power. -/
theorem le_exponent_of_roundsTo (ho : 0 < o) {n : Nat} {e : Int}
    (h : Format.binary64.RoundsTo o (n * 10 ^ e)) : e ≤ (ofOrdinal o).shortest.exponent := by
  have hleast := neg_places_le_exponent_shortest ho
  by_cases hcoarse : e < -((ofOrdinal o).places : Int)
  · omega
  · obtain ⟨k, hk⟩ : ∃ k : Nat, e = k - (ofOrdinal o).places :=
      ⟨(e + (ofOrdinal o).places).toNat, by omega⟩
    have hvalue : (n : ℚ) * 10 ^ e =
        (n * (4 * 10 ^ k) : Nat) / (4 * 10 ^ (ofOrdinal o).places) := by
      rw [hk, zpow_sub₀ (by norm_num), zpow_natCast, zpow_natCast]
      push_cast
      field_simp
    rw [hvalue] at h
    have hle := le_exponent_shortest ho (contains_of_roundsTo ho h)
    omega

/-- The number of an interval, in its units. -/
theorem value_eq_magnitude (o : Nat) :
    ((ofOrdinal o).value : ℚ) =
      Format.binary64.magnitude o * (4 * 10 ^ (ofOrdinal o).places) := by
  rw [value_eq, lastPlace, Format.magnitude]
  ring

/-- Below `2 ^ 53`, the unit in the last place of an integer is at most one. -/
theorem exponent_nonpos {o n : Nat} (hn : n < 2 ^ 53) (h : Format.binary64.magnitude o = n) :
    Format.binary64.exponent o ≤ 0 := by
  by_contra hlarge
  have hleast : Format.binary64.leastExponent = -1074 := rfl
  have hsignificand := (Format.binary64.exponent_eq_or_le o).resolve_left (by omega)
  have hfirst : (2 : ℚ) ^ 52 ≤ Format.binary64.significand o := by exact_mod_cast hsignificand
  have hunit : (2 : ℚ) ≤ 2 ^ Format.binary64.exponent o := by
    calc (2 : ℚ) = 2 ^ (1 : Int) := (zpow_one 2).symm
      _ ≤ 2 ^ Format.binary64.exponent o := zpow_le_zpow_right₀ (by norm_num) (by omega)
  have hle : (2 : ℚ) ^ 52 * 2 ≤ n := by
    rw [← h, Format.magnitude]
    gcongr
  have hlt : (n : ℚ) < 2 ^ 53 := by exact_mod_cast hn
  linarith

/-- The shortest numeral of an integer has no decimal places, and the integer is the only one that
is closer than a half. -/
theorem shortest_of_integer {o n : Nat} (ho : 0 < o) (hn : n < 2 ^ 53)
    (h : Format.binary64.magnitude o = n) :
    ∃ zeros : Nat, (ofOrdinal o).shortest.exponent = .ofNat zeros ∧
      (ofOrdinal o).shortest.coefficient * 10 ^ zeros = n := by
  have hvalue : (ofOrdinal o).value = n * (4 * 10 ^ (ofOrdinal o).places) := by
    have hcast := value_eq_magnitude o
    rw [h] at hcast
    exact_mod_cast hcast
  have hexponent := le_exponent_shortest ho (hvalue ▸ contains_value ho)
  rw [sub_self] at hexponent
  obtain ⟨zeros, hzeros⟩ := Int.eq_ofNat_of_zero_le hexponent
  refine ⟨zeros, hzeros, ?_⟩
  have hdecimal : (ofOrdinal o).shortest.value =
      ((ofOrdinal o).shortest.coefficient * 10 ^ zeros : Nat) := by
    rw [Decimal.value, hzeros, zpow_natCast]
    push_cast
    rfl
  -- both are within half a unit in the last place of the number
  obtain ⟨hlow, hhigh, -⟩ := roundsTo_shortest ho
  have hbelow := Format.binary64.halfBelow_le o
  have hpos : (0 : ℚ) < 2 ^ Format.binary64.exponent o := by positivity
  have hunit : (2 : ℚ) ^ Format.binary64.exponent o ≤ 1 :=
    zpow_le_one_of_nonpos₀ (by norm_num) (exponent_nonpos hn h)
  rw [le_div_iff₀ hpos, hdecimal, sub_mul] at hlow
  rw [div_le_iff₀ hpos, hdecimal, add_mul] at hhigh
  have hhalf : Format.binary64.halfBelow o * 2 ^ Format.binary64.exponent o ≤ 1 / 2 := by
    calc Format.binary64.halfBelow o * 2 ^ Format.binary64.exponent o ≤ 1 / 2 * 1 := by gcongr
      _ = 1 / 2 := mul_one _
  rw [Format.magnitude] at h
  rw [h] at hlow hhigh
  have hle : (n : ℚ) < ((ofOrdinal o).shortest.coefficient * 10 ^ zeros : Nat) + 1 := by linarith
  have hge : (((ofOrdinal o).shortest.coefficient * 10 ^ zeros : Nat) : ℚ) < n + 1 := by linarith
  have hle' : n < (ofOrdinal o).shortest.coefficient * 10 ^ zeros + 1 := by exact_mod_cast hle
  have hge' : (ofOrdinal o).shortest.coefficient * 10 ^ zeros < n + 1 := by exact_mod_cast hge
  omega

end RoundingInterval

/-! ## Integers -/

namespace Double

theorem positional_shortest_of_integer {o n : Nat} (hn : n < 2 ^ 53)
    (h : Format.binary64.magnitude o = n) : (shortest o).positional = naturalText n := by
  rcases Nat.eq_zero_or_pos o with rfl | ho
  · obtain rfl : 0 = n := by
      rw [Format.magnitude_zero] at h
      exact_mod_cast h
    decide
  · obtain ⟨zeros, hexponent, rfl⟩ := RoundingInterval.shortest_of_integer ho hn h
    have hpos : 0 < (RoundingInterval.ofOrdinal o).shortest.coefficient := by
      refine Nat.pos_of_ne_zero fun hzero => ?_
      have hmagnitude := Format.binary64.magnitude_pos ho
      rw [h, hzero] at hmagnitude
      simp at hmagnitude
    rw [← String.toList_inj, shortest, if_neg ho.ne', Decimal.positional_of_ofNat hexponent,
      naturalText, String.toList_ofList, toDigits_mul_pow hpos]

/-- **The text of an exact integer is its digits.** -/
theorem text_ofInt {n : Int} (h : |n| ≤ 2 ^ 53) : (ofInt n).text = integerText n := by
  have hends : (ofInt (2 ^ 53)).text = integerText (2 ^ 53) ∧
      (ofInt (-2 ^ 53)).text = integerText (-2 ^ 53) := by
    decide +kernel
  obtain ⟨hlow, hhigh⟩ := abs_le.1 h
  rcases eq_or_lt_of_le hlow with rfl | hlow
  · exact hends.2
  rcases eq_or_lt_of_le hhigh with rfl | hhigh
  · exact hends.1
  obtain ⟨negative, o, hfinite, hvalue⟩ := standsFor_ofInt h
  have hmagnitude : Format.binary64.magnitude o.val = (n.natAbs : Nat) := by
    rw [← abs_signedMagnitude negative, hvalue, Nat.cast_natAbs, Int.cast_abs]
  have hnatural : n.natAbs < 2 ^ 53 := by omega
  have hsign : negative = decide (n < 0) := by
    rw [← isNegative_ofInt n, hfinite, isNegative]
  rw [hfinite, text, positional_shortest_of_integer hnatural hmagnitude, integerText, hsign]
  simp

theorem text_ofNat {n : Nat} (h : n ≤ 2 ^ 53) : (ofNat n).text = naturalText n := by
  have hinteger : |(n : Int)| ≤ 2 ^ 53 := by
    rw [Nat.abs_cast]
    exact_mod_cast h
  have htext : (ofNat n).text = integerText n := text_ofInt hinteger
  rw [htext, integerText, if_neg (Int.natCast_nonneg n).not_gt, Int.natAbs_natCast]
  exact String.empty_append

end Double

end TierCheck
