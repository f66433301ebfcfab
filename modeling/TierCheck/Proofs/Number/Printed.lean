import TierCheck.Proofs.Number.Text

/-!
# Numbers printed by a script

A script turns a number into a text by the rules of its language. They take the same digits as
`Double.text`, but write very large and very small numbers with an exponent, and do not show the
sign of a zero.

* `Double.printed`: the text of a number in a script.
* `Double.printed_of_integer`: it is the text of the integer where the number is one.
* `Double.readNumber?_printed`: the number is read from it, but for the sign of a zero.
-/
namespace TierCheck

/-- One digit, the others behind a point, and the power of ten. -/
def Decimal.exponential (d : Decimal) : String :=
  let digits := Nat.toDigits 10 d.coefficient
  let power : Int := digits.length - 1 + d.exponent
  String.ofList (digits.take 1 ++ (if digits.length = 1 then [] else '.' :: digits.drop 1) ++
    'e' :: (if power < 0 then '-' else '+') :: Nat.toDigits 10 power.natAbs)

namespace Double

/-- The text of a number in a script. The point stands behind as many digits of the shortest
numeral as `point` says. -/
def printed : Double → String
  | nan => "NaN"
  | infinite negative => if negative then "-Infinity" else "Infinity"
  | finite negative ordinal =>
    let d := shortest ordinal.val
    let point : Int := (Nat.toDigits 10 d.coefficient).length + d.exponent
    if ordinal.val = 0 then "0"
    else (if negative then "-" else "") ++
      if -6 < point ∧ point ≤ 21 then d.positional else d.exponential

/-- The point of a numeral that is a row of digits stands behind the last of them. -/
theorem point_of_positional {d : Decimal} {n : Nat} (h : d.positional = naturalText n) :
    (Nat.toDigits 10 d.coefficient).length + d.exponent = (Nat.toDigits 10 n).length := by
  have hlist : d.positional.toList = Nat.toDigits 10 n := by
    rw [h, naturalText, String.toList_ofList]
  cases hexponent : d.exponent with
  | ofNat zeros =>
    rw [Decimal.positional_of_ofNat hexponent] at hlist
    rw [← hlist, List.length_append, List.length_replicate]
    rfl
  | negSucc k =>
    rw [Decimal.positional_of_negSucc hexponent] at hlist
    have hmem : '.' ∈ Nat.toDigits 10 n := by
      rw [← hlist]
      exact List.mem_append_right _ List.mem_cons_self
    cases isDigit_of_mem_toDigits hmem

/-- **An exact integer is printed with its digits**, and both zeros are printed as one digit. -/
theorem printed_of_integer {d : Double} {n : Int} (hd : d.StandsFor n) (hn : |n| ≤ 2 ^ 53) :
    d.printed = integerText n := by
  by_cases hzero : n = 0
  · subst hzero
    rw [Int.cast_zero] at hd
    rcases hd.eq_of_zero with rfl | rfl
    · decide
    · decide
  have hne : d ≠ negZero := by
    rintro rfl
    exact hzero (by exact_mod_cast hd.number_unique standsFor_negZero)
  have htext := text_ofInt hn
  have hsign := isNegative_ofInt n
  rw [← hd.eq_ofInt hn hne] at htext hsign
  obtain ⟨negative, o, rfl, hvalue⟩ := hd
  have hordinal : o.val ≠ 0 := by
    intro ho
    rw [ho, signedMagnitude, Format.magnitude_zero, neg_zero, ite_self] at hvalue
    exact hzero (by exact_mod_cast hvalue.symm)
  have hpositional : (shortest o.val).positional = naturalText n.natAbs := by
    rw [text, integerText] at htext
    rw [isNegative] at hsign
    rw [hsign] at htext
    simpa [← String.toList_inj] using htext
  have hdigits : (Nat.toDigits 10 n.natAbs).length ≤ 21 := by
    obtain ⟨hlow, hhigh⟩ := abs_le.1 hn
    rw [Nat.length_toDigits_le_iff (by norm_num) (by norm_num)]
    omega
  have hpoint := point_of_positional hpositional
  have hrange : -6 < ((Nat.toDigits 10 (shortest o.val).coefficient).length : Int) +
      (shortest o.val).exponent ∧
      ((Nat.toDigits 10 (shortest o.val).coefficient).length : Int) +
        (shortest o.val).exponent ≤ 21 := by
    omega
  rw [printed, if_neg hordinal, if_pos hrange]
  exact htext

end Double

/-! ## What is printed is read back -/

namespace Decimal

theorem readExponent?_digits {s : List Char} (h : ∀ c ∈ s, c.isDigit = true) (hne : s ≠ []) :
    readExponent? ('-' :: s) = some (-(Nat.ofDigitChars 10 s 0 : Int)) ∧
      readExponent? ('+' :: s) = some (Nat.ofDigitChars 10 s 0 : Int) := by
  simp only [readExponent?, if_neg hne, readDigits?_eq_some h]
  exact ⟨rfl, rfl⟩

theorem read?_mark {significand exponent : List Char} {d : Decimal} {e : Int}
    (hnumeral : IsNumeral significand) (hd : readSignificand? significand = some d)
    (he : readExponent? exponent = some e) :
    read? (significand ++ 'e' :: exponent) = some ⟨d.coefficient, d.exponent + e⟩ := by
  have hmark : ∀ c ∈ significand, (!isExponentMark c) = true := fun c hc => by
    rw [isExponentMark_of_isNumeral hnumeral c hc]
    rfl
  have htake : (significand ++ 'e' :: exponent).takeWhile (fun c => !isExponentMark c) =
      significand := by
    rw [List.takeWhile_append_of_pos hmark, List.takeWhile_cons_of_neg (by decide),
      List.append_nil]
  have hdrop : (significand ++ 'e' :: exponent).dropWhile (fun c => !isExponentMark c) =
      'e' :: exponent := by
    rw [List.dropWhile_append_of_pos hmark, List.dropWhile_cons_of_neg (by decide)]
  unfold isExponentMark at htake hdrop
  simp only [read?, htake, hdrop, hd, he]
  rfl

/-- The digits of an exponential numeral, with the point behind the first one. -/
def exponentialDigits (d : Decimal) : List Char :=
  (Nat.toDigits 10 d.coefficient).take 1 ++
    if (Nat.toDigits 10 d.coefficient).length = 1 then []
    else '.' :: (Nat.toDigits 10 d.coefficient).drop 1

/-- The power of ten of an exponential numeral. -/
def exponentialPower (d : Decimal) : Int := (Nat.toDigits 10 d.coefficient).length - 1 + d.exponent

theorem toList_exponential (d : Decimal) : d.exponential.toList = d.exponentialDigits ++ 'e' ::
    (if d.exponentialPower < 0 then '-' else '+') ::
      Nat.toDigits 10 d.exponentialPower.natAbs := by
  rw [exponential, String.toList_ofList]
  rfl

theorem readSignificand?_exponentialDigits (d : Decimal) :
    IsNumeral d.exponentialDigits ∧ readSignificand? d.exponentialDigits =
      some ⟨d.coefficient, -((Nat.toDigits 10 d.coefficient).length - 1 : Int)⟩ := by
  have hrow : ∀ c ∈ Nat.toDigits 10 d.coefficient, c.isDigit = true := fun c =>
    isDigit_of_mem_toDigits
  have hne : Nat.toDigits 10 d.coefficient ≠ [] := Nat.toDigits_ne_nil
  have hread : Nat.ofDigitChars 10 (Nat.toDigits 10 d.coefficient) 0 = d.coefficient :=
    Nat.ofDigitChars_ten_toDigits
  unfold exponentialDigits
  generalize Nat.toDigits 10 d.coefficient = digits at *
  have hpos := List.length_pos_of_ne_nil hne
  split
  · next hone =>
    rw [List.append_nil, List.take_of_length_le hone.le]
    refine ⟨isNumeral_digits hrow hne, ?_⟩
    rw [readSignificand?_digits hrow hne, hread, hone]
    rfl
  · next hmany =>
    refine ⟨isNumeral_point hrow Nat.one_pos hne, ?_⟩
    rw [readSignificand?_point, List.take_append_drop, hread, List.length_drop]
    · congr 2
      omega
    · rwa [List.take_append_drop]
    · intro hnil
      have hlength := congrArg List.length hnil
      rw [List.length_take, List.length_nil] at hlength
      omega

theorem readExponent?_power (power : Int) :
    readExponent? ((if power < 0 then '-' else '+') :: Nat.toDigits 10 power.natAbs) =
      some power := by
  have hdigits := readExponent?_digits (s := Nat.toDigits 10 power.natAbs)
    (fun c => isDigit_of_mem_toDigits) Nat.toDigits_ne_nil
  rw [Nat.ofDigitChars_ten_toDigits] at hdigits
  split
  · rw [hdigits.1]
    congr 1
    omega
  · rw [hdigits.2]
    congr 1
    omega

/-- An exponential numeral is read as it was. -/
theorem read?_exponential (d : Decimal) : read? d.exponential.toList = some d := by
  obtain ⟨hnumeral, hsignificand⟩ := readSignificand?_exponentialDigits d
  rw [toList_exponential, read?_mark hnumeral hsignificand (readExponent?_power _),
    exponentialPower]
  dsimp only
  congr 2
  omega

theorem head_exponential (d : Decimal) :
    ∃ c rest, d.exponential.toList = c :: rest ∧ c.isDigit = true := by
  obtain ⟨⟨c, rest, hlist, hdigit⟩, -⟩ := (readSignificand?_exponentialDigits d).1
  exact ⟨c, _, by rw [toList_exponential, hlist]; rfl, hdigit⟩

theorem mem_exponential {d : Decimal} {c : Char} (h : c ∈ d.exponential.toList) :
    c.isDigit = true ∨ c ∈ ".e-+".toList := by
  rw [toList_exponential, List.mem_append, List.mem_cons, List.mem_cons] at h
  rcases h with hsignificand | rfl | rfl | hpower
  · rcases (readSignificand?_exponentialDigits d).1.2 c hsignificand with hdigit | rfl
    · exact .inl hdigit
    · exact .inr (by decide)
  · exact .inr (by decide)
  · refine .inr ?_
    split <;> decide
  · exact .inl (isDigit_of_mem_toDigits hpower)

theorem mark_mem_exponential (d : Decimal) : 'e' ∈ d.exponential.toList := by
  rw [toList_exponential]
  exact List.mem_append_right _ List.mem_cons_self

end Decimal

namespace Double

/-- A script prints the text of a number, unless it is negative zero or needs an exponent. -/
theorem printed_cases (d : Double) :
    d = negZero ∨ d ≠ negZero ∧ d.printed = d.text ∨
      ∃ negative o, d = finite negative o ∧ 0 < o.val ∧
        d.printed.toList =
          (if negative then ['-'] else []) ++ (shortest o.val).exponential.toList := by
  cases d with
  | nan => exact .inr (.inl ⟨by decide, rfl⟩)
  | infinite negative => exact .inr (.inl ⟨by decide +revert, rfl⟩)
  | finite negative o =>
    by_cases hzero : o.val = 0
    · obtain rfl : o = ⟨0, by decide⟩ := Fin.ext hzero
      cases negative
      · exact .inr (.inl ⟨by decide, by decide⟩)
      · exact .inl rfl
    · have hne : finite negative o ≠ negZero := by
        intro heq
        cases heq
        exact hzero rfl
      have hnumeral : (finite negative o).printed = (finite negative o).text ∨
          (finite negative o).printed =
            (if negative then "-" else "") ++ (shortest o.val).exponential := by
        rw [printed, if_neg hzero, text]
        split_ifs <;> simp
      rcases hnumeral with htext | hexponential
      · exact .inr (.inl ⟨hne, htext⟩)
      · refine .inr (.inr ⟨negative, o, rfl, Nat.pos_of_ne_zero hzero, ?_⟩)
        rw [hexponential]
        cases negative <;> simp

theorem readNumber?_exponential {negative : Bool} {o : Fin Format.binary64.overflow}
    (ho : 0 < o.val) {text : String} (htext : text.toList =
      (if negative then ['-'] else []) ++ (shortest o.val).exponential.toList) :
    readNumber? text = some (finite negative o) := by
  have hmem : ∀ c ∈ text.toList, c.isDigit = true ∨ c ∈ ".e-+".toList := by
    intro c hc
    rw [htext, List.mem_append] at hc
    rcases hc with hsign | hnumeral
    · split at hsign
      · rw [List.mem_singleton.1 hsign]
        decide
      · cases hsign
    · exact Decimal.mem_exponential hnumeral
  have htrim : trim text = text := trim_eq_self fun c hc => by
    rcases hmem c hc with hdigit | hother
    · exact isBlank_of_isDigit hdigit
    · exact forall_of_any_eq_false (by decide) c hother
  have hname : ∀ {name : String} {c : Char}, c ∈ name.toList →
      ¬(c.isDigit = true ∨ c ∈ ".e-+".toList) → text ≠ name := by
    rintro name c hc hother rfl
    exact hother (hmem c hc)
  have hvalue : ofDecimal negative (shortest o.val) = finite negative o := by
    rw [shortest, if_neg ho.ne']
    exact ofDecimal_eq ho o.isLt (RoundingInterval.roundsTo_shortest ho) negative
  have hread : read? text.toList = some (finite negative o) := by
    have hdigit := Decimal.head_exponential (shortest o.val)
    have hunsigned := readUnsigned?_of_digit hdigit negative
    rw [Decimal.read?_exponential, Option.map_some, hvalue] at hunsigned
    rw [htext]
    cases negative with
    | true => exact hunsigned
    | false =>
      rw [if_neg Bool.false_ne_true, List.nil_append, read?_of_digit hdigit]
      exact hunsigned
  unfold readNumber?
  dsimp only
  rw [htrim, if_neg (hname (c := 'N') (by decide) (by decide)),
    if_neg (hname (c := 'I') (by decide) (by decide)),
    if_neg (hname (c := 'I') (by decide) (by decide)), hread]
  rfl

/-- **Every number is read from what a script prints for it**, except that the sign of a zero is
lost. -/
theorem readNumber?_printed (d : Double) :
    readNumber? d.printed = some (if d = negZero then zero else d) := by
  rcases printed_cases d with rfl | ⟨hne, hprinted⟩ | ⟨negative, o, rfl, ho, hprinted⟩
  · decide +kernel
  · rw [hprinted, readNumber?_text, if_neg hne]
  · rw [readNumber?_exponential ho hprinted, if_neg]
    intro heq
    cases heq
    exact ho.ne' rfl

/-- What a script prints without an exponent is the text of the number that is read from it. -/
theorem text_of_readNumber?_printed {d read : Double} (hread : readNumber? d.printed = some read)
    (h : 'e' ∉ d.printed.toList) : read.text = d.printed := by
  rw [readNumber?_printed] at hread
  obtain rfl := Option.some.inj hread
  rcases printed_cases d with rfl | ⟨hne, hprinted⟩ | ⟨negative, o, rfl, ho, hprinted⟩
  · decide
  · rw [if_neg hne, hprinted]
  · rw [hprinted] at h
    exact absurd (List.mem_append_right _ (Decimal.mark_mem_exponential _)) h

end Double

end TierCheck
