import Mathlib.Data.Rat.Floor
import TierCheck.Proofs.Number.Text

/-!
# The length of a number's text

A number may be spelled in many ways, but it has one text. The text is found by rounding the
spelling to a number and looking for the shortest numeral of that number, so it has no digits below
the last one of the spelling, and it exceeds no power of ten that the spelling does not exceed. What
it can have more are the zeros that an exponent stands for, a zero in front of the point, or a digit
that is carried.

* `RoundingInterval.shortest_le`: the shortest numeral stays below a power of ten.
* `Double.length_text_le`: no text is longer than 327 characters.
* `length_text_of_readNumber?`: how long the text of a spelled number is.
-/
namespace TierCheck

/-! ## Rows of digits -/

theorem digit?_lt {c : Char} {v : Nat} (h : digit? c = some v) : v < 10 := by
  unfold digit? at h
  split at h
  · next hrange =>
    have hhigh : c.toNat ≤ '9'.toNat := hrange.2
    have hnine : '9'.toNat = 57 := rfl
    have hzero : '0'.toNat = 48 := rfl
    obtain rfl := Option.some.inj h
    omega
  · cases h

/-- Each digit that is read behind others makes room for ten times as many numbers. -/
theorem lt_of_foldlM_digit? {s : List Char} {start n : Nat}
    (h : s.foldlM (fun value c => (digit? c).map (10 * value + ·)) start = some n) :
    n < (start + 1) * 10 ^ s.length := by
  induction s generalizing start with
  | nil =>
    obtain rfl := Option.some.inj h
    simp
  | cons c rest ih =>
    rw [List.foldlM_cons, Option.bind_eq_bind, Option.bind_eq_some_iff] at h
    obtain ⟨next, hnext, hrest⟩ := h
    obtain ⟨v, hv, rfl⟩ := Option.map_eq_some_iff.1 hnext
    have hdigit := digit?_lt hv
    calc n < (10 * start + v + 1) * 10 ^ rest.length := ih hrest
      _ ≤ (10 * (start + 1)) * 10 ^ rest.length := Nat.mul_le_mul_right _ (by omega)
      _ = (start + 1) * 10 ^ (c :: rest).length := by rw [List.length_cons, pow_succ]; ring

/-- A row of digits stands for less than the power of ten with as many zeros. -/
theorem lt_of_readDigits? {s : List Char} {n : Nat} (h : readDigits? s = some n) :
    n < 10 ^ s.length := by
  have hlt := lt_of_foldlM_digit? h
  rwa [zero_add, one_mul] at hlt

theorem length_toDigits_le {n k : Nat} (hk : 0 < k) (h : n < 10 ^ k) :
    (Nat.toDigits 10 n).length ≤ k := (Nat.length_toDigits_le_iff (by norm_num) hk).2 h

/-! ## The shortest numeral -/

/-- A multiple of a power of ten that exceeds the power is at least twice as large. -/
theorem Decimal.two_mul_le_value {d : Decimal} {w : Nat} (h : (w : Int) ≤ d.exponent)
    (hlt : 10 ^ w < d.value) : 2 * 10 ^ w ≤ d.value := by
  obtain ⟨k, hk⟩ : ∃ k : Nat, d.exponent = (w + k : Nat) := ⟨(d.exponent - w).toNat, by omega⟩
  have hvalue : d.value = (d.coefficient * 10 ^ k : Nat) * 10 ^ w := by
    rw [value, hk, zpow_natCast, pow_add]
    push_cast
    ring
  rw [hvalue] at hlt ⊢
  have hone : 1 < d.coefficient * 10 ^ k := by
    have hcast := (lt_mul_iff_one_lt_left (by positivity)).1 hlt
    exact_mod_cast hcast
  gcongr
  exact_mod_cast hone

namespace Format

variable {o : Nat} {x y : ℚ}

/-- A number from one on exceeds the unit in the last place of its magnitude. -/
theorem RoundsTo.unit_lt (h : binary64.RoundsTo o x) (hx : 1 ≤ x) :
    2 ^ binary64.exponent o < x := by
  rcases binary64.exponent_eq_or_le o with hleast | hsignificand
  · refine lt_of_lt_of_le ?_ hx
    rw [hleast]
    exact zpow_lt_one_of_neg₀ (by norm_num) (by decide)
  · have hpos : (0 : ℚ) < 2 ^ binary64.exponent o := by positivity
    have hfirst : (2 : ℚ) ^ 52 ≤ binary64.significand o := by exact_mod_cast hsignificand
    have hbelow := binary64.halfBelow_le o
    have hlow := h.low
    rw [le_div_iff₀ hpos] at hlow
    refine lt_of_lt_of_le ?_ hlow
    exact (lt_mul_iff_one_lt_left hpos).2 (by linarith)

/-- No two numbers of which one is twice the other are rounded to the same magnitude, but for tiny
ones. -/
theorem RoundsTo.lt_two_mul (hx : binary64.RoundsTo o x) (hy : binary64.RoundsTo o y)
    (hone : 1 ≤ x) : y < 2 * x := by
  have hunit := hx.unit_lt hone
  have hlength := hx.sub_le hy
  linarith

end Format

namespace RoundingInterval

variable {o : Nat}

theorem le_exponent_of_power (ho : 0 < o) {w : Nat} (h : Format.binary64.RoundsTo o (10 ^ w)) :
    (w : Int) ≤ (ofOrdinal o).shortest.exponent := by
  refine le_exponent_of_roundsTo (n := 1) ho ?_
  rwa [Nat.cast_one, one_mul, zpow_natCast]

/-- A number below a power of ten is rounded to a magnitude whose shortest numeral is at most
that power. -/
theorem shortest_le (ho : 0 < o) {x : ℚ} (h : Format.binary64.RoundsTo o x) {w : Nat}
    (hx : x < 10 ^ w) : (ofOrdinal o).shortest.value ≤ 10 ^ w := by
  by_contra hlarge
  rw [not_le] at hlarge
  have hshortest := roundsTo_shortest ho
  -- otherwise the power is rounded to the magnitude as well, so the numeral is a multiple of it
  have hpower := h.between hshortest hx.le hlarge.le
  have htwice := Decimal.two_mul_le_value (le_exponent_of_power ho hpower) hlarge
  have hlt := hpower.lt_two_mul hshortest (one_le_pow₀ (by norm_num))
  exact htwice.not_gt hlt

/-- The length of the text that the shortest numeral gives, by its least digit and its value. -/
theorem length_positional_shortest_le (ho : 0 < o) {places whole : Nat} (hwhole : 0 < whole)
    (hplaces : -(places : Int) ≤ (ofOrdinal o).shortest.exponent)
    (hvalue : (ofOrdinal o).shortest.value ≤ 10 ^ whole) :
    (ofOrdinal o).shortest.positional.length ≤ whole + places + 1 := by
  have hne := (roundsTo_shortest ho).coefficient_ne_zero ho
  rw [Decimal.value] at hvalue
  cases hcase : (ofOrdinal o).shortest.exponent with
  | ofNat zeros =>
    rw [hcase, Int.ofNat_eq_natCast, zpow_natCast] at hvalue
    have hle : (ofOrdinal o).shortest.coefficient * 10 ^ zeros ≤ 10 ^ whole := by
      exact_mod_cast hvalue
    have hlength := length_toDigits_le (Nat.succ_pos whole)
      (hle.trans_lt (Nat.pow_lt_pow_right (by norm_num) (Nat.lt_succ_self _)))
    rw [toDigits_mul_pow (Nat.pos_of_ne_zero hne), List.length_append,
      List.length_replicate] at hlength
    rw [Decimal.length_positional_of_ofNat hcase]
    omega
  | negSucc k =>
    -- the numeral has a digit behind the point, so it is not the power of ten
    have hpower : (ofOrdinal o).shortest.value ≠ 10 ^ whole := by
      intro heq
      have hle := le_exponent_of_power ho (heq ▸ roundsTo_shortest ho)
      rw [hcase] at hle
      omega
    rw [Decimal.value] at hpower
    have hlt := lt_of_le_of_ne hvalue hpower
    rw [hcase, zpow_negSucc, ← div_eq_mul_inv, div_lt_iff₀ (by positivity), ← pow_add] at hlt
    have hlength := length_toDigits_le (by omega)
      (show (ofOrdinal o).shortest.coefficient < 10 ^ (whole + (k + 1)) by exact_mod_cast hlt)
    rw [hcase] at hplaces
    rw [Decimal.length_positional_of_negSucc hcase]
    omega

/-- On a grid that is at least four times as fine as the unit in the last place, the point below the
magnitude is rounded to it. -/
theorem neg_le_exponent_shortest (ho : 0 < o) {places : Nat}
    (hgrid : (1 : ℚ) / 10 ^ places ≤ 1 / 4 * 2 ^ Format.binary64.exponent o) :
    -(places : Int) ≤ (ofOrdinal o).shortest.exponent := by
  have hpos : (0 : ℚ) < 2 ^ Format.binary64.exponent o := by positivity
  have hten : (0 : ℚ) < 10 ^ places := by positivity
  obtain ⟨n, hlow, hhigh⟩ : ∃ n : Nat, (n : ℚ) ≤ Format.binary64.magnitude o * 10 ^ places ∧
      Format.binary64.magnitude o * 10 ^ places < n + 1 :=
    ⟨⌊Format.binary64.magnitude o * 10 ^ places⌋₊,
      Nat.floor_le (mul_nonneg (Format.binary64.magnitude_nonneg o) hten.le),
      Nat.lt_floor_add_one _⟩
  rw [← div_le_iff₀ hten] at hlow
  rw [← lt_div_iff₀ hten, add_div] at hhigh
  have hbelow := Format.binary64.le_halfBelow o
  have hclose : (Format.binary64.significand o - 1 / 4 : ℚ) <
      n / 10 ^ places / 2 ^ Format.binary64.exponent o := by
    rw [lt_div_iff₀ hpos, sub_mul, ← Format.magnitude]
    linarith
  have hbound : (n : ℚ) / 10 ^ places / 2 ^ Format.binary64.exponent o ≤
      Format.binary64.significand o := (div_le_iff₀ hpos).2 hlow
  refine le_exponent_of_roundsTo (n := n) ho ?_
  rw [zpow_neg, zpow_natCast, ← div_eq_mul_inv]
  exact ⟨by linarith, by linarith, fun _ => ⟨by linarith, by linarith⟩⟩

/-- No number needs more than 324 places behind the point. -/
theorem neg_324_le_exponent_shortest (ho : 0 < o) :
    -((324 : Nat) : Int) ≤ (ofOrdinal o).shortest.exponent := by
  have hfine : 4 * 2 ^ 1074 < 10 ^ 324 := by decide +kernel
  have hfine' : (4 * 2 ^ 1074 : ℚ) < 10 ^ 324 := by exact_mod_cast hfine
  have hleast : (2 : ℚ) ^ (-((1074 : Nat) : Int)) ≤ 2 ^ Format.binary64.exponent o :=
    zpow_le_zpow_right₀ (by norm_num) (Format.binary64.leastExponent_le o)
  refine neg_le_exponent_shortest ho ?_
  calc (1 : ℚ) / 10 ^ 324 ≤ 1 / (4 * 2 ^ 1074) :=
        one_div_le_one_div_of_le (by positivity) hfine'.le
    _ = 1 / 4 * 2 ^ (-((1074 : Nat) : Int)) := by
        rw [zpow_neg, zpow_natCast, one_div, mul_inv, one_div]
    _ ≤ 1 / 4 * 2 ^ Format.binary64.exponent o := by gcongr

end RoundingInterval

namespace Double

/-- A number below one is written with a zero in front of the point, and all the places that its
least digit needs behind it. -/
theorem length_shortest_of_lt_one {o : Nat} (ho : 0 < o) (h : Format.binary64.magnitude o < 1) :
    (RoundingInterval.ofOrdinal o).shortest.positional.length ≤ 326 := by
  have hvalue := RoundingInterval.shortest_le (w := 0) ho (Format.binary64.roundsTo_magnitude o)
    (by rwa [pow_zero])
  rw [pow_zero] at hvalue
  exact RoundingInterval.length_positional_shortest_le ho Nat.one_pos
    (RoundingInterval.neg_324_le_exponent_shortest ho) (hvalue.trans (by norm_num))

/-- A number from one on has at most 52 places behind the point, and if it has any, it is small. -/
theorem length_shortest_of_one_le {o : Nat} (ho : 0 < o) (hfinite : o < Format.binary64.overflow)
    (h : 1 ≤ Format.binary64.magnitude o) :
    (RoundingInterval.ofOrdinal o).shortest.positional.length ≤ 310 := by
  have hrounds := Format.binary64.roundsTo_magnitude o
  have hlt : Format.binary64.magnitude o < 2 ^ (Format.binary64.exponent o + 53) := by
    have hbits : ((Format.binary64.fractionBits : Nat) : Int) + 1 = 53 := rfl
    rw [← hbits, ← add_assoc]
    exact hrounds.lt
  have hplaces := RoundingInterval.neg_places_le_exponent_shortest ho
  have hcount : (RoundingInterval.ofOrdinal o).places = (-Format.binary64.exponent o).toNat := rfl
  rcases lt_or_ge (Format.binary64.exponent o) 0 with hfraction | hinteger
  · have hexponent : 0 < Format.binary64.exponent o + 53 := by
      have hone := h.trans_lt hlt
      rwa [one_lt_zpow_iff_right₀ (by norm_num)] at hone
    have hsmall : Format.binary64.magnitude o < 10 ^ 16 := by
      calc Format.binary64.magnitude o < 2 ^ (Format.binary64.exponent o + 53) := hlt
        _ ≤ 2 ^ (53 : Int) := zpow_le_zpow_right₀ (by norm_num) (by omega)
        _ ≤ 10 ^ 16 := by norm_num
    have hlength := RoundingInterval.length_positional_shortest_le ho (by norm_num) hplaces
      (RoundingInterval.shortest_le ho hrounds hsmall)
    omega
  · have hpower : 2 ^ 1024 < 10 ^ 309 := by decide +kernel
    have hpower' : (2 ^ 1024 : ℚ) < 10 ^ 309 := by exact_mod_cast hpower
    have hexponent := exponent_le hfinite
    have hlarge : Format.binary64.magnitude o < 10 ^ 309 := by
      calc Format.binary64.magnitude o < 2 ^ (Format.binary64.exponent o + 53) := hlt
        _ ≤ 2 ^ ((1024 : Nat) : Int) := zpow_le_zpow_right₀ (by norm_num) (by omega)
        _ = 2 ^ 1024 := zpow_natCast 2 1024
        _ < 10 ^ 309 := hpower'
    have hlength := RoundingInterval.length_positional_shortest_le ho (by norm_num) hplaces
      (RoundingInterval.shortest_le ho hrounds hlarge)
    omega

theorem length_text_of_finite (negative : Bool) (o : Fin Format.binary64.overflow) :
    (finite negative o).text.length = negative.toNat + (shortest o.val).positional.length := by
  rw [← String.length_toList, text_of_finite, List.length_append, String.length_toList]
  cases negative <;> rfl

/-- **No text of a number has more than 327 characters.** -/
theorem length_text_le (d : Double) : d.text.length ≤ 327 := by
  cases d with
  | nan => decide
  | infinite negative => cases negative <;> decide
  | finite negative o =>
    have hsign : negative.toNat ≤ 1 := Bool.toNat_le negative
    have hnumeral : (shortest o.val).positional.length ≤ 326 := by
      rcases Nat.eq_zero_or_pos o.val with hzero | ho
      · rw [hzero]
        decide
      · rw [shortest, if_neg ho.ne']
        rcases lt_or_ge (Format.binary64.magnitude o.val) 1 with hlt | hge
        · exact length_shortest_of_lt_one ho hlt
        · exact (length_shortest_of_one_le ho o.isLt hge).trans (by norm_num)
    rw [length_text_of_finite]
    omega

end Double

/-! ## Spellings -/

namespace Decimal

/-- What stands in front of the exponent. -/
def mantissa (s : List Char) : List Char := s.takeWhile fun c => !isExponentMark c

/-- The exponent as it is written, zero if there is none. -/
def writtenExponent (s : List Char) : Int :=
  (readExponent? ((s.dropWhile fun c => !isExponentMark c).drop 1)).getD 0

theorem mantissa_eq_self {s : List Char} (h : ∀ c ∈ s, isExponentMark c = false) :
    mantissa s = s :=
  List.takeWhile_eq_self_iff.2 fun c hc => by rw [h c hc]; rfl

theorem writtenExponent_eq_zero {s : List Char} (h : ∀ c ∈ s, isExponentMark c = false) :
    writtenExponent s = 0 := by
  have hdrop : s.dropWhile (fun c => !isExponentMark c) = [] :=
    List.dropWhile_eq_nil_iff.2 fun c hc => by rw [h c hc]; rfl
  rw [writtenExponent, hdrop]
  rfl

theorem mantissa_cons {c : Char} (h : isExponentMark c = false) (s : List Char) :
    mantissa (c :: s) = c :: mantissa s :=
  List.takeWhile_cons_of_pos (by rw [h]; rfl)

theorem writtenExponent_cons {c : Char} (h : isExponentMark c = false) (s : List Char) :
    writtenExponent (c :: s) = writtenExponent s := by
  rw [writtenExponent, List.dropWhile_cons_of_pos (by rw [h]; rfl), writtenExponent]

/-- A significand has no more digits than characters, not counting a point; and if it has no digit
in front of the point, the point makes up for one. -/
theorem readSignificand?_bounds {s : List Char} {d : Decimal} (h : readSignificand? s = some d) :
    ∃ whole places : Nat, 0 < whole ∧ whole + places ≤ s.length ∧ d.exponent = -(places : Int) ∧
      d.coefficient < 10 ^ (whole + places) := by
  unfold readSignificand? at h
  dsimp only at h
  have hlength := congrArg List.length (List.takeWhile_append_dropWhile (p := (· != '.')) (l := s))
  rw [List.length_append] at hlength
  split at h
  · cases h
  · next hne =>
    obtain ⟨n, hn, rfl⟩ := Option.map_eq_some_iff.1 h
    have hlt := lt_of_readDigits? hn
    rw [List.length_append] at hlt
    have hdrop := List.length_drop (i := 1) (l := s.dropWhile (· != '.'))
    generalize s.takeWhile (· != '.') = whole at *
    generalize (s.dropWhile (· != '.')).drop 1 = fraction at *
    refine ⟨max 1 whole.length, fraction.length, by omega, ?_, rfl, ?_⟩
    · have hsome : 0 < whole.length + fraction.length := by
        by_contra hzero
        refine hne ⟨List.length_eq_zero_iff.1 ?_, List.length_eq_zero_iff.1 ?_⟩ <;> omega
      omega
    · exact hlt.trans_le (Nat.pow_le_pow_right (by norm_num) (by omega))

/-- What is read of a spelling, by the length of its mantissa and its exponent. -/
theorem read?_bounds {s : List Char} {d : Decimal} (h : read? s = some d) :
    ∃ whole places : Nat, 0 < whole ∧ whole + places ≤ (mantissa s).length ∧
      d.exponent = writtenExponent s - places ∧ d.coefficient < 10 ^ (whole + places) := by
  have hmantissa : s.takeWhile (fun c => !(decide (c = 'e') || decide (c = 'E'))) = mantissa s :=
    rfl
  unfold read? at h
  dsimp only at h
  rw [hmantissa] at h
  split at h
  · next hdrop =>
    have hwritten : writtenExponent s = 0 := by
      rw [writtenExponent, show s.dropWhile (fun c => !isExponentMark c) = [] from hdrop]
      rfl
    obtain ⟨whole, places, hwhole, hle, hexponent, hlt⟩ := readSignificand?_bounds h
    exact ⟨whole, places, hwhole, hle, by omega, hlt⟩
  · next mark exponent hdrop =>
    obtain ⟨significand, hsignificand, hrest⟩ := Option.bind_eq_some_iff.1 h
    obtain ⟨e, he, heq⟩ := Option.bind_eq_some_iff.1 hrest
    obtain rfl := Option.some.inj heq
    have hwritten : writtenExponent s = e := by
      rw [writtenExponent, show s.dropWhile (fun c => !isExponentMark c) = mark :: exponent from
        hdrop, List.drop_succ_cons, List.drop_zero, he]
      rfl
    obtain ⟨whole, places, hwhole, hle, hexponent, hlt⟩ := readSignificand?_bounds hsignificand
    refine ⟨whole, places, hwhole, hle, ?_, hlt⟩
    dsimp only
    omega

end Decimal

namespace Double

theorem ofOrdinal_eq_finite {negative negative' : Bool} {n : Nat}
    {o : Fin Format.binary64.overflow} (h : ofOrdinal negative n = finite negative' o) :
    negative' = negative ∧ o.val = n := by
  unfold ofOrdinal at h
  split at h
  · cases h
    exact ⟨rfl, rfl⟩
  · cases h

/-- A finite number is read from what is rounded to it, or it is zero. -/
theorem roundsTo_of_ofDecimal {d : Decimal} {negative negative' : Bool}
    {o : Fin Format.binary64.overflow} (h : ofDecimal negative d = finite negative' o) :
    negative' = negative ∧ (0 < o.val → Format.binary64.RoundsTo o.val d.value) := by
  have hzero : ofOrdinal negative 0 = finite negative' o →
      negative' = negative ∧ (0 < o.val → Format.binary64.RoundsTo o.val d.value) := by
    intro h
    obtain ⟨rfl, ho⟩ := ofOrdinal_eq_finite h
    exact ⟨rfl, fun hpos => absurd ho hpos.ne'⟩
  by_cases hne : d.coefficient = 0
  · rw [ofDecimal, if_pos hne] at h
    exact hzero h
  by_cases hlarge : 400 < d.exponent
  · rw [ofDecimal, if_neg hne, if_pos hlarge] at h
    cases h
  by_cases hsmall : d.exponent < -400 - (d.coefficient.log2 : Int)
  · rw [ofDecimal, if_neg hne, if_neg hlarge, if_pos hsmall] at h
    exact hzero h
  obtain ⟨num, den, hnum, hden, hvalue, hround⟩ :=
    ofDecimal_eq_round hne (by omega) (by omega) negative
  rw [hround, round] at h
  obtain ⟨rfl, ho⟩ := ofOrdinal_eq_finite h
  refine ⟨rfl, fun _ => ?_⟩
  rw [ho, ← hvalue]
  exact Format.roundsTo_nearest (by decide) hnum hden

/-- The numeral of a number that is read from a spelling. -/
theorem length_shortest_of_read? {s : List Char} {d : Decimal} (h : Decimal.read? s = some d)
    {negative negative' : Bool} {o : Fin Format.binary64.overflow}
    (ho : ofDecimal negative d = finite negative' o) :
    (shortest o.val).positional.length ≤
      (Decimal.mantissa s).length + (Decimal.writtenExponent s).natAbs + 1 := by
  obtain ⟨-, hrounds⟩ := roundsTo_of_ofDecimal ho
  rcases Nat.eq_zero_or_pos o.val with hzero | hpos
  · have hone : (shortest 0).positional.length = 1 := by decide
    rw [hzero, hone]
    omega
  have hrounds := hrounds hpos
  obtain ⟨whole, places, hwhole, hle, hexponent, hcoefficient⟩ := Decimal.read?_bounds h
  have hshortest := RoundingInterval.le_exponent_of_roundsTo hpos hrounds
  -- the digits in front of the point, once the exponent is taken away
  have hvalue : d.value < 10 ^ (whole + (Decimal.writtenExponent s).toNat) := by
    have hcast : (d.coefficient : ℚ) < 10 ^ (whole + places) := by exact_mod_cast hcoefficient
    calc d.value < 10 ^ (whole + places) * 10 ^ d.exponent :=
          mul_lt_mul_of_pos_right hcast (by positivity)
      _ = 10 ^ ((whole + places : Nat) + d.exponent) := by
          rw [zpow_add₀ (by norm_num), zpow_natCast]
      _ ≤ 10 ^ ((whole + (Decimal.writtenExponent s).toNat : Nat) : Int) :=
          zpow_le_zpow_right₀ (by norm_num) (by omega)
      _ = 10 ^ (whole + (Decimal.writtenExponent s).toNat) := zpow_natCast 10 _
  have hplaces : -((-d.exponent).toNat : Int) ≤
      (RoundingInterval.ofOrdinal o.val).shortest.exponent := by omega
  have hlength := RoundingInterval.length_positional_shortest_le hpos (Nat.add_pos_left hwhole _)
    hplaces (RoundingInterval.shortest_le hpos hrounds hvalue)
  rw [shortest, if_neg hpos.ne']
  omega

theorem readUnsigned?_eq_finite {s : List Char} {negative negative' : Bool}
    {o : Fin Format.binary64.overflow}
    (h : readUnsigned? negative s = some (finite negative' o)) :
    ∃ d, Decimal.read? s = some d ∧ ofDecimal negative d = finite negative' o := by
  unfold readUnsigned? at h
  dsimp only at h
  split at h
  · cases h
  · split at h
    · cases h
    · exact Option.map_eq_some_iff.1 h

/-- **The text of a finite number is hardly longer than a spelling of it**, apart from the zeros
that stand for an exponent. -/
theorem length_text_of_read? {s : List Char} {negative : Bool} {o : Fin Format.binary64.overflow}
    (h : read? s = some (finite negative o)) :
    (finite negative o).text.length ≤
      (Decimal.mantissa s).length + (Decimal.writtenExponent s).natAbs + 1 := by
  have hunsigned : ∀ {r : List Char} {sign : Bool},
      readUnsigned? sign r = some (finite negative o) →
        negative = sign ∧ (shortest o.val).positional.length ≤
          (Decimal.mantissa r).length + (Decimal.writtenExponent r).natAbs + 1 := by
    intro r sign hr
    obtain ⟨d, hd, ho⟩ := readUnsigned?_eq_finite hr
    exact ⟨(roundsTo_of_ofDecimal ho).1, length_shortest_of_read? hd ho⟩
  rw [length_text_of_finite]
  unfold read? at h
  split at h
  · next r =>
    obtain ⟨rfl, hlength⟩ := hunsigned h
    rw [Decimal.mantissa_cons (by decide), Decimal.writtenExponent_cons (by decide),
      List.length_cons, Bool.toNat_true]
    omega
  · next r =>
    obtain ⟨rfl, hlength⟩ := hunsigned h
    rw [Decimal.mantissa_cons (by decide), Decimal.writtenExponent_cons (by decide),
      List.length_cons, Bool.toNat_false]
    omega
  · obtain ⟨rfl, hlength⟩ := hunsigned h
    rw [Bool.toNat_false]
    omega

end Double

/-- The same for all numbers, with blanks around the spelling. -/
theorem length_text_of_readNumber? {text : String} {d : Double} (h : readNumber? text = some d) :
    d.text.length ≤ (Decimal.mantissa (trim text).toList).length +
      (Decimal.writtenExponent (trim text).toList).natAbs + 1 := by
  unfold readNumber? at h
  dsimp only at h
  split at h
  · next hname =>
    obtain rfl := Option.some.inj h
    rw [hname]
    decide
  · split at h
    · next hname =>
      obtain rfl := Option.some.inj h
      rw [hname]
      decide
    · split at h
      · next hname =>
        obtain rfl := Option.some.inj h
        rw [hname]
        decide
      · obtain ⟨hread, hfinite⟩ := Option.filter_eq_some_iff.1 h
        cases d with
        | finite negative o => exact Double.length_text_of_read? hread
        | nan => cases hfinite
        | infinite negative => cases hfinite

/-- Without an exponent, the text is at most one character longer than the spelling. -/
theorem length_text_of_plain {text : String} {d : Double}
    (h : ∀ c ∈ text.toList, Decimal.isExponentMark c = false) (hread : readNumber? text = some d) :
    d.text.length ≤ text.length + 1 := by
  have hplain : ∀ c ∈ (trim text).toList, Decimal.isExponentMark c = false :=
    fun c hc => h c (mem_of_mem_trim hc)
  have hle := length_text_of_readNumber? hread
  have htrim := length_trim_le text
  rw [Decimal.mantissa_eq_self hplain, Decimal.writtenExponent_eq_zero hplain,
    String.length_toList] at hle
  omega

end TierCheck
