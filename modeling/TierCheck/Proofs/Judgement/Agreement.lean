import TierCheck.Judgement
import TierCheck.Proofs.Number.Order

/-!
# Agreement as a tolerance relation

Whether two results agree does not depend on which of them was reported and which one is right, and
every value agrees with itself. A rule may be stricter than another one: it may compare exactly, ask
for the signs of zeros, or have a lesser tolerance. What agrees by the stricter rule agrees by the
other one. The distance of two numbers and the tolerance for it are both rounded, and as rounding
keeps the order, these laws hold for all doubles as they would for exact numbers.

* `Agreement.holds_self`: every value agrees with itself.
* `Agreement.exists_isClose_iff`: closeness of numbers in terms of rounded numbers.
* `Agreement.IsToleranceRelation`: the laws. `Agreement.isToleranceRelation`: the result.
-/
namespace TierCheck

/-! ## Numbers -/

namespace Double

theorem eqv_self {a : Double} (h : a.isNaN = false) : a.eqv a = true := by
  cases a with
  | nan => cases h
  | infinite negative => simp [eqv, compareRanks, rank?]
  | finite negative o => simp [eqv, compareRanks, rank?]

theorem eqv_iff_exists_rank {a b : Double} :
    a.eqv b = true ↔ ∃ n, a.rank? = some n ∧ b.rank? = some n := by
  unfold eqv compareRanks
  cases a.rank? with
  | none => simp
  | some m =>
    cases b.rank? with
    | none => simp
    | some n => simpa using eq_comm

theorem isNaN_of_rank {a : Double} {n : Int} (h : a.rank? = some n) : a.isNaN = false := by
  cases a with
  | nan => cases h
  | _ => rfl

theorem isZero_iff_rank {a : Double} : a.isZero = true ↔ a.rank? = some 0 := by
  have hzero : zero.rank? = some 0 := rfl
  rw [isZero, eqv_iff_exists_rank, hzero]
  constructor
  · rintro ⟨n, ha, hn⟩
    rw [ha, hn]
  · exact fun ha => ⟨0, ha, rfl⟩

/-- Numbers that are equal have the same sign, but for the zeros. -/
theorem isNegative_eq_of_eqv {a b : Double} (h : a.eqv b = true)
    (hzero : ¬(a.isZero = true ∧ b.isZero = true)) : a.isNegative = b.isNegative := by
  obtain ⟨n, ha, hb⟩ := eqv_iff_exists_rank.1 h
  rw [isZero_iff_rank, isZero_iff_rank, ha, hb, and_self, Option.some.injEq] at hzero
  have hsign {d : Double} (hd : d.rank? = some n) : d.isNegative = decide (n < 0) := by
    cases d with
    | nan => cases hd
    | infinite s =>
      obtain rfl := Option.some.inj hd
      cases s <;> rfl
    | finite s o =>
      obtain rfl := Option.some.inj hd
      cases s
      · exact (decide_eq_false (Int.not_lt.2 (Int.natCast_nonneg _))).symm
      · simp only [if_true] at hzero ⊢
        exact (decide_eq_true (by omega)).symm
  rw [hsign ha, hsign hb]

/-- Only an infinity is equal to an infinity. -/
theorem eq_infinite_of_eqv {s : Bool} {a : Double} (h : (infinite s).eqv a = true) :
    a = infinite s := by
  obtain ⟨n, hn, ha⟩ := eqv_iff_exists_rank.1 h
  obtain rfl := Option.some.inj hn
  cases a with
  | nan => cases ha
  | infinite t => cases s <;> cases t <;> first | rfl | exact absurd ha (by decide)
  | finite t o =>
    have hlt := o.isLt
    have hrank := Option.some.inj ha
    cases s <;> cases t <;> simp only [if_true, Bool.false_eq_true, if_false] at hrank <;> omega

theorem eqv_comm (a b : Double) : a.eqv b = b.eqv a := by
  unfold eqv compareRanks
  cases a.rank? <;> cases b.rank? <;> first | rfl | exact BEq.comm

theorem le_iff_exists_rank {a b : Double} :
    a ≤ b ↔ ∃ m n, a.rank? = some m ∧ b.rank? = some n ∧ m ≤ n := by
  show compareRanks _ a b = true ↔ _
  unfold compareRanks
  cases a.rank? <;> cases b.rank? <;> simp

theorem le_trans {a b c : Double} (hab : a ≤ b) (hbc : b ≤ c) : a ≤ c := by
  obtain ⟨m, n, hm, hn, hmn⟩ := le_iff_exists_rank.1 hab
  obtain ⟨n', k, hn', hk, hnk⟩ := le_iff_exists_rank.1 hbc
  rw [Option.some.inj (hn'.symm.trans hn)] at hnk
  exact le_iff_exists_rank.2 ⟨m, k, hm, hk, hmn.trans hnk⟩

theorem isNegative_abs (a : Double) : a.abs.isNegative = false := by
  cases a <;> rfl

theorem isNegative_greater {a b : Double} (ha : a.isNegative = false) (hb : b.isNegative = false) :
    (a.greater b).isNegative = false := by
  unfold greater
  split
  · exact hb
  · split <;> assumption

namespace StandsFor

variable {a b : Double} {x y : ℚ}

theorem abs (ha : a.StandsFor x) : a.abs.StandsFor |x| := by
  obtain ⟨s, o, rfl, rfl⟩ := ha
  exact ⟨false, o, rfl, (abs_signedMagnitude s o.val).symm⟩

theorem greater (ha : a.StandsFor x) (hb : b.StandsFor y) : (a.greater b).StandsFor (max x y) := by
  unfold Double.greater
  rw [if_neg ha.not_isNaN]
  split
  · next hlt => rwa [max_eq_right ((ha.lt_iff hb).1 hlt).le]
  · next hge => rwa [max_eq_left (not_lt.1 (mt (ha.lt_iff hb).2 hge))]

theorem not_isInfinite (ha : a.StandsFor x) : a.isInfinite = false := by
  obtain ⟨s, o, rfl, -⟩ := ha
  rfl

end StandsFor
end Double

/-! ## Closeness -/

namespace Agreement

variable (rule : Agreement)

/-- The tolerance that counts is a number that is not negative. -/
theorem exists_effectiveTolerance : ∃ u, 0 ≤ u ∧ rule.effectiveTolerance.StandsFor u ∧
    rule.effectiveTolerance.isNegative = false := by
  unfold effectiveTolerance
  split
  · next h =>
    obtain ⟨u, hu⟩ := Double.isFinite_iff_standsFor.1 h.1
    have hpos : 0 < u := (Double.standsFor_zero.lt_iff hu).1 h.2
    refine ⟨u, hpos.le, hu, Bool.eq_false_iff.2 fun hnegative => ?_⟩
    exact absurd (hu.le_zero_of_isNegative hnegative) hpos.not_ge
  · exact ⟨0, le_rfl, Double.standsFor_zero, rfl⟩

variable {a b : Double} {x y u : ℚ}

/-- Finite numbers are close if their distance is not rounded to more than the tolerance times the
greatest of their magnitudes and one is. -/
theorem exists_isClose_iff (ha : a.StandsFor x) (hb : b.StandsFor y)
    (hu : rule.effectiveTolerance.StandsFor u) :
    ∃ distance bound : Double, distance.IsNearest |x - y| ∧
      bound.IsNearest (u * max (max |x| |y|) 1) ∧ (rule.isClose a b = true ↔ distance ≤ bound) := by
  obtain ⟨-, -, -, hsign⟩ := rule.exists_effectiveTolerance
  have hscale := (ha.abs.greater hb.abs).greater Double.standsFor_one
  have hscaleSign : ((a.abs.greater b.abs).greater Double.one).isNegative = false :=
    Double.isNegative_greater (Double.isNegative_greater a.isNegative_abs b.isNegative_abs) rfl
  refine ⟨_, _, ha.isNearest_abs_sub hb, hu.isNearest_mul hscale hsign hscaleSign, ?_⟩
  simp [isClose, ha.not_isInfinite, hb.not_isInfinite]

theorem isClose_eq_false_of_not_isFinite (h : a.isFinite = false ∨ b.isFinite = false) :
    rule.isClose a b = false := by
  have hnan : ∀ c : Double, decide (Double.nan ≤ c) = false :=
    fun c => decide_eq_false Bool.false_ne_true
  unfold isClose
  rcases h with h | h
  · cases a with
    | nan => exact Bool.and_eq_false_imp.2 fun _ => hnan _
    | infinite s => rfl
    | finite s o => cases h
  · cases b with
    | nan =>
      have hdifference : (a - Double.nan).abs = Double.nan := by cases a <;> rfl
      simp only [hdifference, hnan, Bool.and_false]
    | infinite s => simp [Double.isInfinite]
    | finite s o => cases h

theorem finite_of_isClose (h : rule.isClose a b = true) :
    (∃ x, a.StandsFor x) ∧ ∃ y, b.StandsFor y := by
  rw [← Double.isFinite_iff_standsFor, ← Double.isFinite_iff_standsFor]
  by_contra hfinite
  rw [not_and_or, Bool.not_eq_true, Bool.not_eq_true] at hfinite
  rw [rule.isClose_eq_false_of_not_isFinite hfinite] at h
  cases h

theorem IsClose.symm (h : rule.isClose a b = true) : rule.isClose b a = true := by
  obtain ⟨⟨x, ha⟩, y, hb⟩ := rule.finite_of_isClose h
  obtain ⟨u, -, hu, -⟩ := rule.exists_effectiveTolerance
  obtain ⟨distance, bound, hdistance, hbound, hclose⟩ := rule.exists_isClose_iff ha hb hu
  obtain ⟨distance', bound', hdistance', hbound', hclose'⟩ := rule.exists_isClose_iff hb ha hu
  rw [abs_sub_comm] at hdistance'
  rw [max_comm |y|] at hbound'
  rw [hclose', hdistance'.unique hdistance, hbound'.unique hbound]
  exact hclose.1 h

theorem isClose_comm (a b : Double) : rule.isClose a b = rule.isClose b a :=
  Bool.eq_iff_iff.2 ⟨IsClose.symm rule, IsClose.symm rule⟩

/-- Without a tolerance only equal numbers are close. -/
theorem eqv_of_isClose (htolerance : rule.effectiveTolerance = Double.zero)
    (h : rule.isClose a b = true) : a.eqv b = true := by
  obtain ⟨⟨x, ha⟩, y, hb⟩ := rule.finite_of_isClose h
  obtain ⟨distance, bound, hdistance, hbound, hclose⟩ :=
    rule.exists_isClose_iff ha hb (htolerance ▸ Double.standsFor_zero)
  rw [zero_mul] at hbound
  have hzero := hclose.1 h
  rw [hbound.unique Double.isNearest_zero,
    hdistance.unique (ha.isNearest_abs_sub hb), ha.abs_sub_le_zero_iff hb] at hzero
  exact (ha.eqv_iff hb).2 hzero

/-- A greater tolerance counts for no less. -/
theorem effectiveTolerance_le {tolerance : Double} (hlt : rule.tolerance < tolerance)
    (hfinite : tolerance.isFinite = true) {u v : ℚ} (hu : rule.effectiveTolerance.StandsFor u)
    (hv : (effectiveTolerance { rule with tolerance }).StandsFor v) : u ≤ v := by
  by_cases hpos : rule.tolerance.isFinite ∧ Double.zero < rule.tolerance
  · obtain ⟨w, hw⟩ := Double.isFinite_iff_standsFor.1 hfinite
    rw [effectiveTolerance, if_pos hpos] at hu
    have huw := (hu.lt_iff hw).1 hlt
    have hcounts : Double.zero < tolerance := (Double.standsFor_zero.lt_iff hw).2
      (((Double.standsFor_zero.lt_iff hu).1 hpos.2).trans huw)
    rw [effectiveTolerance, if_pos ⟨hfinite, hcounts⟩] at hv
    exact hv.number_unique hw ▸ huw.le
  · rw [effectiveTolerance, if_neg hpos] at hu
    obtain ⟨w, hw, hvw, -⟩ := exists_effectiveTolerance { rule with tolerance }
    rw [hu.number_unique Double.standsFor_zero, hv.number_unique hvw]
    exact hw

theorem isClose_of_lt_tolerance {tolerance : Double} (hlt : rule.tolerance < tolerance)
    (hfinite : tolerance.isFinite = true) (h : rule.isClose a b = true) :
    isClose { rule with tolerance } a b = true := by
  obtain ⟨⟨x, ha⟩, y, hb⟩ := rule.finite_of_isClose h
  obtain ⟨u, -, hu, -⟩ := rule.exists_effectiveTolerance
  obtain ⟨v, -, hv, -⟩ := exists_effectiveTolerance { rule with tolerance }
  obtain ⟨distance, bound, hdistance, hbound, hclose⟩ := rule.exists_isClose_iff ha hb hu
  obtain ⟨distance', bound', hdistance', hbound', hclose'⟩ :=
    exists_isClose_iff { rule with tolerance } ha hb hv
  have hle : u * max (max |x| |y|) 1 ≤ v * max (max |x| |y|) 1 :=
    mul_le_mul_of_nonneg_right (rule.effectiveTolerance_le hlt hfinite hu hv) (by positivity)
  rw [hclose', hdistance'.unique hdistance]
  exact Double.le_trans (hclose.1 h) (hbound.le hbound' hle)

/-! ## Agreement of numbers -/

theorem numbersAgree_self (a : Double) : rule.numbersAgree a a = true := by
  unfold numbersAgree
  cases hnan : a.isNaN with
  | true => simp
  | false => simp [Double.eqv_self hnan]

/-- The numbers agree whatever the tolerance is: both are no number, or they are equal, with the
same sign if the signs of zeros count. -/
def agreeExactly (zeroSign : Bool) (a b : Double) : Bool :=
  a.isNaN && b.isNaN || a.eqv b && (!zeroSign || a.isNegative == b.isNegative)

/-- What more agrees within a tolerance are numbers that are close, but not the two zeros. -/
theorem numbersAgree_eq (a b : Double) :
    rule.numbersAgree a b = (agreeExactly rule.zeroSign a b ||
      rule.kind = .float && !(a.isZero && b.isZero) && rule.isClose a b) := by
  unfold numbersAgree agreeExactly
  split
  · next hnan =>
    have hclose : rule.isClose a b = false := by
      refine Bool.eq_false_iff.2 fun hclose => ?_
      obtain ⟨⟨x, ha⟩, y, hb⟩ := rule.finite_of_isClose hclose
      exact hnan.elim ha.not_isNaN hb.not_isNaN
    have heqv : a.eqv b = false := by
      refine Bool.eq_false_iff.2 fun heqv => ?_
      obtain ⟨n, ha, hb⟩ := Double.eqv_iff_exists_rank.1 heqv
      rw [Double.isNaN_of_rank ha, Double.isNaN_of_rank hb] at hnan
      simp at hnan
    simp [hclose, heqv]
  · next hnumbers =>
    rw [not_or, Bool.not_eq_true, Bool.not_eq_true] at hnumbers
    split
    · next hzero =>
      have heqv : a.eqv b = true := Double.eqv_iff_exists_rank.2
        ⟨0, Double.isZero_iff_rank.1 hzero.1, Double.isZero_iff_rank.1 hzero.2⟩
      simp [hnumbers, hzero, heqv]
    · next hzero =>
      have hpair : (a.isZero && b.isZero) = false := by
        rwa [Bool.eq_false_iff, ne_eq, Bool.and_eq_true]
      split
      · next heqv =>
        simp [heqv, Double.isNegative_eq_of_eqv heqv hzero]
      · next heqv => simp [hnumbers, hpair, heqv]

theorem numbersAgree_comm (a b : Double) : rule.numbersAgree a b = rule.numbersAgree b a := by
  rw [rule.numbersAgree_eq, rule.numbersAgree_eq, agreeExactly, agreeExactly, rule.isClose_comm a b,
    a.eqv_comm b, Bool.and_comm a.isNaN, Bool.and_comm a.isZero, BEq.comm (a := a.isNegative)]

/-- Without the sign of zeros no more is asked for. -/
theorem agreeExactly_of_zeroSign (h : agreeExactly true a b = true) :
    agreeExactly false a b = true := by
  simp only [agreeExactly, Bool.or_eq_true, Bool.and_eq_true, Bool.not_false, Bool.true_or,
    and_true] at h ⊢
  exact h.imp_right And.left

/-- What agrees exactly agrees at every tolerance. -/
theorem numbersAgree_float (hkind : rule.kind ≠ .float) (tolerance : Double)
    (h : rule.numbersAgree a b = true) :
    numbersAgree { rule with kind := .float, tolerance } a b = true := by
  rw [numbersAgree_eq, decide_eq_false hkind, Bool.false_and, Bool.false_and, Bool.or_false] at h
  rw [numbersAgree_eq, h, Bool.true_or]

/-- Without a tolerance nothing more agrees. -/
theorem numbersAgree_of_float {tolerance : Double}
    (htolerance : ¬(tolerance.isFinite = true ∧ Double.zero < tolerance))
    (h : numbersAgree { rule with kind := .float, tolerance } a b = true) :
    rule.numbersAgree a b = true := by
  rw [numbersAgree_eq, Bool.or_eq_true] at h
  rw [numbersAgree_eq, Bool.or_eq_true]
  refine .inl (h.elim id fun hclose => ?_)
  simp only [Bool.and_eq_true, Bool.not_eq_true', Bool.and_eq_false_imp] at hclose
  have heqv := eqv_of_isClose { rule with kind := .float, tolerance } (if_neg htolerance) hclose.2
  have hsign := Double.isNegative_eq_of_eqv heqv
    fun hzero => Bool.eq_false_iff.1 (hclose.1.2 hzero.1) hzero.2
  simp [agreeExactly, heqv, hsign]

/-- A greater tolerance asks for less. -/
theorem numbersAgree_of_lt_tolerance {tolerance : Double} (hlt : rule.tolerance < tolerance)
    (hfinite : tolerance.isFinite = true) (h : rule.numbersAgree a b = true) :
    numbersAgree { rule with tolerance } a b = true := by
  rw [numbersAgree_eq, Bool.or_eq_true, Bool.and_eq_true] at h
  rw [numbersAgree_eq, Bool.or_eq_true, Bool.and_eq_true]
  exact h.imp_right (And.imp_right (rule.isClose_of_lt_tolerance hlt hfinite))

theorem numbersAgree_infinite_iff (s : Bool) (b : Double) :
    rule.numbersAgree (.infinite s) b = true ↔ b = .infinite s := by
  have hclose : rule.isClose (.infinite s) b = false :=
    rule.isClose_eq_false_of_not_isFinite (.inl rfl)
  rw [numbersAgree_eq, hclose, Bool.and_false, Bool.or_false]
  constructor
  · intro h
    have heqv : (Double.infinite s).eqv b = true := by
      simp only [agreeExactly, Double.isNaN, Bool.false_and, Bool.false_or, Bool.and_eq_true] at h
      exact h.1
    exact Double.eq_infinite_of_eqv heqv
  · rintro rfl
    simp [agreeExactly, Double.eqv_self (a := .infinite s) rfl]

theorem numbersAgree_nan_iff (b : Double) : rule.numbersAgree .nan b = true ↔ b = .nan := by
  cases b <;> simp [numbersAgree, Double.isNaN]

/-! ## Agreement of values -/

/-- Every value agrees with itself. -/
theorem holds_self (v : Value) : rule.holds v v = true := by
  cases v with
  | number a => exact rule.numbersAgree_self a
  | _ => simp [holds]

/-- Only numbers agree with other values than themselves, and only with numbers. -/
theorem holds_cases (a b : Value) :
    (∃ m n, a = .number m ∧ b = .number n ∧ rule.holds a b = rule.numbersAgree m n) ∨
      rule.holds a b = decide (a = b) := by
  unfold holds
  split
  · exact .inl ⟨_, _, rfl, rfl, rfl⟩
  · exact .inr rfl

/-- What is so of numbers is so of values. -/
theorem holds_imp {rule other : Agreement}
    (h : ∀ m n, rule.numbersAgree m n = true → other.numbersAgree m n = true) (a b : Value)
    (hab : rule.holds a b = true) : other.holds a b = true := by
  rcases rule.holds_cases a b with ⟨m, n, rfl, rfl, hnumbers⟩ | hvalues
  · exact h m n (hnumbers ▸ hab)
  · rw [hvalues, decide_eq_true_eq] at hab
    exact hab ▸ other.holds_self a

theorem holds_comm (a b : Value) : rule.holds a b = rule.holds b a := by
  rcases rule.holds_cases a b with ⟨m, n, rfl, rfl, hnumbers⟩ | hvalues
  · exact rule.numbersAgree_comm m n
  · rcases rule.holds_cases b a with ⟨m, n, rfl, rfl, hnumbers⟩ | hvalues'
    · exact rule.numbersAgree_comm n m
    · rw [hvalues, hvalues']
      exact decide_eq_decide.2 eq_comm

/-- The rule is a tolerance relation, and what agrees by it agrees by the rules that are less strict
than it. -/
structure IsToleranceRelation (rule : Agreement) : Prop where
  refl : ∀ v, rule.holds v v = true
  comm : ∀ a b, rule.holds a b = rule.holds b a
  /-- What agrees exactly agrees at every tolerance. -/
  float : rule.kind ≠ .float → ∀ tolerance a b, rule.holds a b = true →
    holds { rule with kind := .float, tolerance } a b = true
  /-- A tolerance that is not positive and finite lets nothing more agree. -/
  float_eq : rule.kind ≠ .float → ∀ tolerance,
    ¬(tolerance.isFinite = true ∧ Double.zero < tolerance) →
    ∀ a b, holds { rule with kind := .float, tolerance } a b = rule.holds a b
  zeroSign : ∀ a b, holds { rule with zeroSign := true } a b = true →
    holds { rule with zeroSign := false } a b = true
  tolerance : ∀ tolerance, rule.tolerance < tolerance → tolerance.isFinite = true →
    ∀ a b, rule.holds a b = true → holds { rule with tolerance } a b = true
  infinite_iff : ∀ negative v, rule.holds (.number (.infinite negative)) v = true ↔
    v = .number (.infinite negative)
  nan_iff : ∀ v, rule.holds (.number .nan) v = true ↔ v = .number .nan
  /-- Values of different kinds never agree. -/
  ctorIdx_eq : ∀ a b, rule.holds a b = true → a.ctorIdx = b.ctorIdx
  /-- But for numbers, no two values do. -/
  eq_or_numbers : ∀ a b, rule.holds a b = true → a = b ∨ ∃ m n, a = .number m ∧ b = .number n

/-- **Agreement is a tolerance relation, ordered by strictness**, for all doubles and values,
whatever the rule is. -/
theorem isToleranceRelation (rule : Agreement) : rule.IsToleranceRelation where
  refl := rule.holds_self
  comm := rule.holds_comm
  float hkind tolerance := holds_imp fun _ _ => rule.numbersAgree_float hkind tolerance
  float_eq hkind tolerance htolerance a b := by
    rw [Bool.eq_iff_iff]
    exact ⟨holds_imp (fun _ _ => rule.numbersAgree_of_float htolerance) a b,
      holds_imp (fun _ _ => rule.numbersAgree_float hkind tolerance) a b⟩
  zeroSign := holds_imp fun m n => by
    rw [numbersAgree_eq, numbersAgree_eq, Bool.or_eq_true, Bool.or_eq_true]
    exact Or.imp_left agreeExactly_of_zeroSign
  tolerance _ hlt hfinite := holds_imp fun _ _ => rule.numbersAgree_of_lt_tolerance hlt hfinite
  infinite_iff negative v := by
    cases v with
    | number a => exact (rule.numbersAgree_infinite_iff negative a).trans (by simp)
    | _ => simp [holds]
  nan_iff v := by
    cases v with
    | number a => exact (rule.numbersAgree_nan_iff a).trans (by simp)
    | _ => simp [holds]
  ctorIdx_eq a b h := by
    rcases rule.holds_cases a b with ⟨m, n, rfl, rfl, -⟩ | hvalues
    · rfl
    · rw [hvalues, decide_eq_true_eq] at h
      rw [h]
  eq_or_numbers a b h := by
    rcases rule.holds_cases a b with ⟨m, n, rfl, rfl, -⟩ | hvalues
    · exact .inr ⟨m, n, rfl, rfl⟩
    · exact .inl (of_decide_eq_true (hvalues ▸ h))

/-- The greatest number and its negative, whose distance is rounded to infinity, and the least
positive number beside zero. -/
theorem isToleranceRelation_extremes :
    let wide : Agreement := { kind := .float, tolerance := .ofNat 4 }
    let exact : Agreement := { kind := .integer }
    let greatest := Double.ofOrdinal false (Format.binary64.overflow - 1)
    let least := Double.ofOrdinal false 1
    wide.tolerance < .ofNat 5 ∧ (Double.ofNat 5).isFinite = true ∧
      wide.holds (.number greatest) (.number greatest.neg) = true ∧
      wide.holds (.number greatest.neg) (.number greatest) = true ∧
      holds { wide with tolerance := .ofNat 5 } (.number greatest) (.number greatest.neg) = true ∧
      holds { wide with tolerance := .one } (.number greatest) (.number greatest.neg) = false ∧
      exact.kind ≠ .float ∧ ¬(Double.nan.isFinite = true ∧ Double.zero < Double.nan) ∧
      exact.holds (.number least) (.number .zero) = false ∧
      holds { exact with kind := .float, tolerance := .nan } (.number least) (.number .zero) =
        false := by
  intro wide exact greatest least
  have hlt : wide.tolerance < .ofNat 5 := by decide +kernel
  have hfinite : (Double.ofNat 5).isFinite = true := by decide +kernel
  have hwide : wide.holds (.number greatest) (.number greatest.neg) = true := by decide +kernel
  have hexact : exact.holds (.number least) (.number .zero) = false := by decide +kernel
  have hkind : exact.kind ≠ .float := by decide
  have hnan : ¬(Double.nan.isFinite = true ∧ Double.zero < Double.nan) := by decide
  refine ⟨hlt, hfinite, hwide, (wide.isToleranceRelation.comm _ _).symm.trans hwide,
    wide.isToleranceRelation.tolerance _ hlt hfinite _ _ hwide, by decide +kernel, hkind, hnan,
    hexact, ?_⟩
  rw [exact.isToleranceRelation.float_eq hkind .nan hnan, hexact]

end Agreement
end TierCheck
