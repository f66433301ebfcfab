import Mathlib.Data.List.TakeWhile
import TierCheck.Number.Decimal

/-!
# Digits read back

A row of decimal digits is read as the number it stands for, so a natural number and the text of
its digits say the same. A numeral that is written positionally has a digit in front, and apart
from digits it holds at most a point.

* `readDigits?_eq_some`: what a row of digits is read as.
* `readNatural?_naturalText`: a number below the limit is read from its text.
* `Decimal.positional_isNumeral`, `Decimal.length_positional_of_negSucc`: the characters of a
  numeral, and how many there are.
-/
namespace TierCheck

theorem digit?_eq_some {c : Char} (h : c.isDigit = true) :
    digit? c = some (c.toNat - '0'.toNat) := by
  have hrange : '0' ≤ c ∧ c ≤ '9' := by
    simpa [Char.isDigit, Char.le_def] using h
  rw [digit?, if_pos hrange]

/-- The digits are read from left to right, after what was read before them. -/
theorem foldlM_digit? {s : List Char} (h : ∀ c ∈ s, c.isDigit = true) (start : Nat) :
    s.foldlM (fun value c => (digit? c).map (10 * value + ·)) start =
      some (Nat.ofDigitChars 10 s start) := by
  induction s generalizing start with
  | nil => rw [Nat.ofDigitChars_nil]; rfl
  | cons c rest ih =>
    have hc := digit?_eq_some (h c List.mem_cons_self)
    rw [List.foldlM_cons, hc, Nat.ofDigitChars_cons]
    exact ih (fun c' hc' => h c' (List.mem_cons_of_mem _ hc')) _

theorem readDigits?_eq_some {s : List Char} (h : ∀ c ∈ s, c.isDigit = true) :
    readDigits? s = some (Nat.ofDigitChars 10 s 0) := foldlM_digit? h 0

theorem isDigit_of_mem_toDigits {n : Nat} {c : Char} (h : c ∈ Nat.toDigits 10 n) :
    c.isDigit = true := Nat.isDigit_of_mem_toDigits (by decide) (by decide) h

theorem readDigits?_toDigits (n : Nat) : readDigits? (Nat.toDigits 10 n) = some n := by
  rw [readDigits?_eq_some fun _ => isDigit_of_mem_toDigits, Nat.ofDigitChars_ten_toDigits]

theorem readNatural?_naturalText {n limit : Nat} (h : n < limit) :
    readNatural? limit (naturalText n).toList = some n := by
  have hplus : (Nat.toDigits 10 n).head? ≠ some '+' := by
    intro hhead
    have hdigit := isDigit_of_mem_toDigits (List.mem_of_head? hhead)
    exact absurd hdigit (by decide)
  simp only [naturalText, String.toList_ofList, readNatural?, if_neg hplus]
  rw [if_neg Nat.toDigits_ne_nil, readDigits?_toDigits]
  simp [h]

theorem lt_of_readNatural? {limit n : Nat} {s : List Char} (h : readNatural? limit s = some n) :
    n < limit := by
  unfold readNatural? at h
  generalize (if s.head? = some '+' then s.tail else s) = digits at h
  by_cases hnil : digits = []
  · rw [if_pos hnil] at h
    cases h
  · rw [if_neg hnil] at h
    exact of_decide_eq_true (Option.filter_eq_some_iff.1 h).2

/-! ## Numerals -/

/-- The text has a digit in front and holds only digits and points. -/
def IsNumeral (s : List Char) : Prop :=
  (∃ c rest, s = c :: rest ∧ c.isDigit = true) ∧ ∀ c ∈ s, c.isDigit = true ∨ c = '.'

/-- A row of digits with a point somewhere behind the first one. -/
theorem isNumeral_point {s : List Char} (h : ∀ c ∈ s, c.isDigit = true) {whole : Nat}
    (hwhole : 0 < whole) (hne : s ≠ []) : IsNumeral (s.take whole ++ '.' :: s.drop whole) := by
  obtain ⟨c, rest, rfl⟩ := List.exists_cons_of_ne_nil hne
  obtain ⟨n, rfl⟩ := Nat.exists_eq_add_of_le' hwhole
  refine ⟨⟨c, rest.take n ++ '.' :: rest.drop n, rfl, h c List.mem_cons_self⟩, fun c' hc' => ?_⟩
  rcases List.mem_append.1 hc' with hc' | hc'
  · exact .inl (h c' (List.mem_of_mem_take hc'))
  · rcases List.mem_cons.1 hc' with rfl | hc'
    · exact .inr rfl
    · exact .inl (h c' (List.mem_of_mem_drop hc'))

theorem isNumeral_digits {s : List Char} (h : ∀ c ∈ s, c.isDigit = true) (hne : s ≠ []) :
    IsNumeral s := by
  obtain ⟨c, rest, rfl⟩ := List.exists_cons_of_ne_nil hne
  exact ⟨⟨c, rest, rfl, h c List.mem_cons_self⟩, fun c' hc' => .inl (h c' hc')⟩

namespace Decimal

/-- The digits of a numeral with `places` places behind the point: zeros are put in front until
there is a digit before the point. -/
def paddedDigits (d : Decimal) (places : Nat) : List Char :=
  List.replicate (places + 1 - (Nat.toDigits 10 d.coefficient).length) '0' ++
    Nat.toDigits 10 d.coefficient

theorem isDigit_of_mem_replicate {zeros : Nat} {c : Char} (h : c ∈ List.replicate zeros '0') :
    c.isDigit = true := by
  rw [List.eq_of_mem_replicate h]; decide

theorem isDigit_of_mem_paddedDigits {d : Decimal} {places : Nat} {c : Char}
    (h : c ∈ d.paddedDigits places) : c.isDigit = true :=
  (List.mem_append.1 h).elim isDigit_of_mem_replicate isDigit_of_mem_toDigits

theorem lt_length_paddedDigits (d : Decimal) (places : Nat) :
    places < (d.paddedDigits places).length := by
  simp only [paddedDigits, List.length_append, List.length_replicate]
  omega

theorem positional_of_ofNat {d : Decimal} {zeros : Nat} (h : d.exponent = .ofNat zeros) :
    d.positional.toList = Nat.toDigits 10 d.coefficient ++ List.replicate zeros '0' := by
  simp only [positional, h, String.toList_ofList]

theorem positional_of_negSucc {d : Decimal} {k : Nat} (h : d.exponent = .negSucc k) :
    d.positional.toList =
      (d.paddedDigits (k + 1)).take ((d.paddedDigits (k + 1)).length - (k + 1)) ++
        '.' :: (d.paddedDigits (k + 1)).drop ((d.paddedDigits (k + 1)).length - (k + 1)) := by
  simp only [positional, h, String.toList_ofList]
  rfl

theorem length_positional_of_ofNat {d : Decimal} {zeros : Nat} (h : d.exponent = .ofNat zeros) :
    d.positional.length = (Nat.toDigits 10 d.coefficient).length + zeros := by
  rw [← String.length_toList, positional_of_ofNat h, List.length_append, List.length_replicate]

theorem length_positional_of_negSucc {d : Decimal} {k : Nat} (h : d.exponent = .negSucc k) :
    d.positional.length = max (k + 2) (Nat.toDigits 10 d.coefficient).length + 1 := by
  rw [← String.length_toList, positional_of_negSucc h]
  have hpadded : (d.paddedDigits (k + 1)).length =
      max (k + 2) (Nat.toDigits 10 d.coefficient).length := by
    simp only [paddedDigits, List.length_append, List.length_replicate]
    omega
  simp only [List.length_append, List.length_cons, List.length_take, List.length_drop, hpadded]
  omega

theorem positional_isNumeral (d : Decimal) : IsNumeral d.positional.toList := by
  cases h : d.exponent with
  | ofNat zeros =>
    rw [positional_of_ofNat h]
    refine isNumeral_digits (fun c hc => ?_) (by simp [Nat.toDigits_ne_nil])
    exact (List.mem_append.1 hc).elim isDigit_of_mem_toDigits isDigit_of_mem_replicate
  | negSucc k =>
    have hlength := d.lt_length_paddedDigits (k + 1)
    rw [positional_of_negSucc h]
    refine isNumeral_point (fun c => isDigit_of_mem_paddedDigits) (by omega) ?_
    intro hnil
    rw [hnil] at hlength
    cases hlength

/-! ## Reading a numeral -/

/-- Whether the character begins the exponent of a numeral. -/
def isExponentMark (c : Char) : Bool := c = 'e' || c = 'E'

theorem isExponentMark_of_isNumeral {s : List Char} (h : IsNumeral s) :
    ∀ c ∈ s, isExponentMark c = false := by
  intro c hc
  rcases h.2 c hc with hdigit | rfl
  · have hne : c ≠ 'e' ∧ c ≠ 'E' := by
      constructor <;> rintro rfl <;> cases hdigit
    simp [isExponentMark, hne]
  · decide

theorem read?_of_isNumeral {s : List Char} (h : IsNumeral s) : read? s = readSignificand? s := by
  have hmark : ∀ c ∈ s, (!(decide (c = 'e') || decide (c = 'E'))) = true := fun c hc => by
    rw [Bool.not_eq_true']
    exact isExponentMark_of_isNumeral h c hc
  simp only [read?, List.takeWhile_eq_self_iff.2 hmark, List.dropWhile_eq_nil_iff.2 hmark]

theorem ne_point_of_isDigit {s : List Char} (h : ∀ c ∈ s, c.isDigit = true) :
    ∀ c ∈ s, (c != '.') = true := by
  intro c hc
  have hdigit := h c hc
  rw [bne_iff_ne]
  rintro rfl
  cases hdigit

theorem readSignificand?_digits {s : List Char} (h : ∀ c ∈ s, c.isDigit = true) (hne : s ≠ []) :
    readSignificand? s = some ⟨Nat.ofDigitChars 10 s 0, 0⟩ := by
  have hpoint := ne_point_of_isDigit h
  have htake : s.takeWhile (· != '.') = s := List.takeWhile_eq_self_iff.2 hpoint
  have hdrop : s.dropWhile (· != '.') = [] := List.dropWhile_eq_nil_iff.2 hpoint
  simp only [readSignificand?, htake, hdrop, List.drop_nil, List.append_nil, hne, false_and,
    if_false, readDigits?_eq_some h, Option.map_some, List.length_nil]
  rfl

theorem readSignificand?_point {whole fraction : List Char}
    (h : ∀ c ∈ whole ++ fraction, c.isDigit = true) (hne : whole ≠ []) :
    readSignificand? (whole ++ '.' :: fraction) =
      some ⟨Nat.ofDigitChars 10 (whole ++ fraction) 0, -(fraction.length : Int)⟩ := by
  have hpoint := ne_point_of_isDigit fun c hc => h c (List.mem_append_left _ hc)
  have htake : (whole ++ '.' :: fraction).takeWhile (· != '.') = whole := by
    rw [List.takeWhile_append_of_pos hpoint]
    simp
  have hdrop : (whole ++ '.' :: fraction).dropWhile (· != '.') = '.' :: fraction := by
    rw [List.dropWhile_append_of_pos hpoint]
    simp
  simp only [readSignificand?, htake, hdrop, List.drop_succ_cons, List.drop_zero, hne, false_and,
    if_false, readDigits?_eq_some h, Option.map_some]

/-- The value of padded digits is that of the digits. -/
theorem ofDigitChars_paddedDigits (d : Decimal) (places : Nat) :
    Nat.ofDigitChars 10 (d.paddedDigits places) 0 = d.coefficient := by
  rw [paddedDigits, Nat.ofDigitChars_append, Nat.ofDigitChars_replicate_zero, Nat.mul_zero,
    Nat.ofDigitChars_ten_toDigits]

/-- A numeral without places behind the point is read as a natural number. -/
theorem read?_positional_of_ofNat {d : Decimal} {zeros : Nat} (h : d.exponent = .ofNat zeros) :
    read? d.positional.toList = some ⟨Nat.pow 10 zeros * d.coefficient, 0⟩ := by
  have hdigits : ∀ c ∈ Nat.toDigits 10 d.coefficient ++ List.replicate zeros '0',
      c.isDigit = true := fun c hc =>
    (List.mem_append.1 hc).elim isDigit_of_mem_toDigits isDigit_of_mem_replicate
  rw [read?_of_isNumeral d.positional_isNumeral, positional_of_ofNat h,
    readSignificand?_digits hdigits (by simp [Nat.toDigits_ne_nil]), Nat.ofDigitChars_append,
    Nat.ofDigitChars_ten_toDigits, Nat.ofDigitChars_replicate_zero]
  rfl

/-- A numeral with places behind the point is read as it was. -/
theorem read?_positional_of_negSucc {d : Decimal} {k : Nat} (h : d.exponent = .negSucc k) :
    read? d.positional.toList = some d := by
  have hlength := d.lt_length_paddedDigits (k + 1)
  rw [read?_of_isNumeral d.positional_isNumeral, positional_of_negSucc h, readSignificand?_point,
    List.take_append_drop, ofDigitChars_paddedDigits, List.length_drop]
  · have hplaces : ((d.paddedDigits (k + 1)).length -
        ((d.paddedDigits (k + 1)).length - (k + 1)) : Nat) = k + 1 := by omega
    have hexponent : -((k + 1 : Nat) : Int) = d.exponent := h.symm
    rw [hplaces, hexponent]
  · rw [List.take_append_drop]
    exact fun c => isDigit_of_mem_paddedDigits
  · intro hnil
    have hzero := congrArg List.length hnil
    rw [List.length_take, List.length_nil] at hzero
    omega

end Decimal
end TierCheck
