import TierCheck.Proofs.Catalog.ArrayProgram
import TierCheck.Proofs.Catalog.Extremes
import TierCheck.Proofs.Run.Completeness
import TierCheck.Proofs.Value.Element

/-!
# Closed forms of array operations

The reference of an array operation does not run the function; it multiplies where the function
adds, and it knows where a search ends. Run step by step, the functions give the same results, for
arrays of every type and length. The one exception is the store in the middle of a long array: the
function finds the middle by a shift of 32 bits, and the reference by a division.

* `ArrayProgram.length_elements`: no step changes the length of the array.
* `Store.run_fill`, `Store.run_each`: what stores leave in the elements.
* `search_lt`, `search_gt`: a search among the elements finds the extreme.
* `ArrayOperation.holds_run_result`: every operation as a program, beside its closed form.
* `ArrayOperation.run_maxNaN_of_neg`, `ArrayOperation.not_holds_run_result`: longer arrays.
-/
namespace TierCheck

/-! ## Sums -/

namespace Double

/-- The multiples of a number up to the `n`-th are doubles. -/
def MultiplesExact (x : Double) (n : Nat) : Prop :=
  ∀ q : ℚ, x.StandsFor q → ∀ k ≤ n, ∃ d : Double, d.StandsFor (k * q)

theorem StandsFor.foldl_replicate {x : Double} {q : ℚ} (hx : x.StandsFor q) {n : Nat}
    (h : x.MultiplesExact n) :
    ((List.replicate n x).foldl (· + ·) zero).StandsFor (n * q) := by
  induction n with
  | zero => simpa using standsFor_zero
  | succ n ih =>
    obtain ⟨d, hd⟩ := h q hx (n + 1) le_rfl
    have hnext : ((n + 1 : Nat) : ℚ) * q = n * q + q := by
      push_cast
      ring
    rw [hnext] at hd ⊢
    rw [List.replicate_succ', List.foldl_append, List.foldl_cons, List.foldl_nil]
    exact (ih fun p hp k hk => h p hp k (hk.trans n.le_succ)).add_exact hx hd

end Double

/-- Two doubles for the same number agree unless the signs of zeros matter. -/
theorem Agreement.numbersAgree_of_standsFor {rule : Agreement} (hzero : rule.zeroSign = false)
    {x y : Double} {q : ℚ} (hx : x.StandsFor q) (hy : y.StandsFor q) :
    rule.numbersAgree x y = true := by
  rw [numbersAgree, if_neg (not_or.2 ⟨hx.not_isNaN, hy.not_isNaN⟩), hzero, Bool.not_false,
    Bool.true_or, if_pos ((hx.eqv_iff hy).2 rfl), ite_self]

/-- A sum that starts at positive zero agrees with one that starts at negative zero, if the first
term is not negative zero. -/
theorem Agreement.numbersAgree_sum {rule : Agreement} (hzero : rule.zeroSign = false)
    {f : Nat → Double} (hfirst : f 0 ≠ Double.negZero) (n : Nat) :
    rule.numbersAgree (((List.range n).map f).foldl (· + ·) Double.zero)
      (Double.sum ((List.range n).map f)) = true := by
  cases n with
  | zero => exact numbersAgree_of_standsFor hzero Double.standsFor_zero Double.standsFor_negZero
  | succ n =>
    rw [Double.sum, List.range_succ_eq_map, List.map_cons, List.foldl_cons, List.foldl_cons,
      Double.zero_add_of_ne hfirst, Double.negZero_add]
    exact rule.numbersAgree_self _

namespace Plan

/-! ## Steps -/

variable {call : ArrayCall} {elements : List Double}

theorem length_fillRange (x : Double) (start stop : Nat) (elements : List Double) :
    (fillRange x start stop elements).length = elements.length :=
  List.length_mapIdx

namespace Store

theorem length_run (call : ArrayCall) (elements : List Double) (store : Store) :
    (store.run call elements).length = elements.length := by
  cases store with
  | fill x => exact length_fillRange ..
  | fillBetween x start stop => exact length_fillRange ..
  | put place x =>
    simp only [run, storeAt]
    split
    · rfl
    · exact List.length_set
  | each x =>
    simp only [run]
    induction List.range call.length generalizing elements with
    | nil => rfl
    | cons i rest ih => rw [List.foldl_cons, ih, List.length_set]

/-- A fill without bounds stores into all elements. -/
theorem run_fill (x : Operand) : (fill x).run call elements =
    List.replicate elements.length (call.element.coerce (x.value call 0)) := by
  refine List.ext_getElem (by simp [length_run]) fun i hi _ => ?_
  rw [length_run] at hi
  simp [run, fillRange, hi]

/-- A store at the last place. -/
theorem run_put_last (x : Operand) {n : Nat} (h : call.length = n + 1) :
    (put (.fromEnd 1) x).run call elements =
      elements.set n (call.element.coerce (x.value call 0)) := by
  have hindex : Position.index call.length (.fromEnd 1) = (n : Int) := by
    rw [Position.index, h]
    push_cast
    ring
  rw [run, hindex, storeAt, if_neg (Int.not_lt.2 (Int.natCast_nonneg n)), Int.toNat_natCast]

theorem foldl_set_range (f : Nat → Double) {n : Nat} {l : List Double} (h : n ≤ l.length) :
    (List.range n).foldl (fun stored i => stored.set i (f i)) l =
      (List.range n).map f ++ l.drop n := by
  induction n with
  | zero => rfl
  | succ n ih =>
    rw [List.range_succ, List.foldl_append, ih (n.le_succ.trans h), List.foldl_cons,
      List.foldl_nil, List.set_append_right _ _ (by simp), List.drop_eq_getElem_cons h,
      List.length_map, List.length_range, Nat.sub_self, List.set_cons_zero, List.map_append,
      List.append_assoc]
    rfl

/-- A loop over all places stores into all elements. -/
theorem run_each (x : Quantity) (h : elements.length = call.length) : (each x).run call elements =
    (List.range call.length).map fun i => call.element.coerce (x.value call i) := by
  rw [run, foldl_set_range _ h.ge, List.drop_eq_nil_of_le h.le, List.append_nil]

end Store

theorem Step.length_run (call : ArrayCall) (elements : List Double) (step : Step) :
    (step.run call elements).length = elements.length := by
  cases step with
  | always store => exact store.length_run call elements
  | whenLonger bound stores =>
    rw [run]
    split
    · induction stores generalizing elements with
      | nil => rfl
      | cons store rest ih => rw [List.foldl_cons, ih, store.length_run]
    · rfl

/-- No step changes the length of the array. -/
theorem ArrayProgram.length_elements (program : ArrayProgram) (call : ArrayCall) :
    (program.elements call).length = call.length := by
  have hsteps (steps : List Step) (stored : List Double) :
      (steps.foldl (fun stored step => step.run call stored) stored).length = stored.length := by
    induction steps generalizing stored with
    | nil => rfl
    | cons step rest ih => rw [List.foldl_cons, ih, step.length_run]
  rw [elements, hsteps, List.length_replicate]

/-! ## Answers -/

/-- A loop over all places reads the elements as they are. -/
theorem Answer.readings_of_length {n : Nat} (h : elements.length = n) :
    readings n elements = elements := by
  refine List.ext_getElem (by simp [readings, h]) fun i _ hi => ?_
  simp [readings, elementAt, hi]

theorem Answer.value_sum {start : Double} (h : elements.length = call.length) :
    (Answer.sum start).value call elements = .number (elements.foldl (· + ·) start) := by
  rw [value, readings_of_length h]

/-! ### Extremes -/

/-- A value that is not a number is told by its being unequal to itself. -/
theorem not_eqv_self (x : Double) : (!x.eqv x) = x.isNaN := by
  cases h : x.isNaN with
  | true =>
    cases x with
    | nan => rfl
    | infinite negative => cases h
    | finite negative o => cases h
  | false => rw [Double.eqv_self h, Bool.not_true]

/-- The inverse of a zero is infinite, with the sign of the zero. -/
theorem inverse_lt_iff {x y : Double} (hx : x.isZero = true) (hy : y.isZero = true) :
    Double.one / x < Double.one / y ↔ x.isNegative = true ∧ y.isNegative = false := by
  rcases Double.eq_zero_of_isZero hx with rfl | rfl <;>
    rcases Double.eq_zero_of_isZero hy with rfl | rfl <;> decide

theorem search_lt (bound : Double) (l : List Double) :
    search (fun x y => x < y) bound l = Double.least bound l := by
  induction l generalizing bound with
  | nil => rfl
  | cons x rest ih =>
    have hbetter : (decide (x < bound) || (x.eqv Double.zero && bound.eqv Double.zero &&
        decide (Double.one / x < Double.one / bound))) = true ↔
        x < bound ∨ (x.isZero ∧ bound.isZero ∧ x.isNegative ∧ !bound.isNegative) := by
      simp only [Bool.or_eq_true, Bool.and_eq_true, decide_eq_true_eq, and_assoc,
        Bool.not_eq_true']
      exact or_congr_right (and_congr_right fun hx => and_congr_right (inverse_lt_iff hx))
    simp only [search, Double.least, not_eqv_self, hbetter, ih]

theorem search_gt (bound : Double) (l : List Double) :
    search (fun x y => y < x) bound l = Double.greatest bound l := by
  induction l generalizing bound with
  | nil => rfl
  | cons x rest ih =>
    have hbetter : (decide (bound < x) || (x.eqv Double.zero && bound.eqv Double.zero &&
        decide (Double.one / bound < Double.one / x))) = true ↔
        bound < x ∨ (x.isZero ∧ bound.isZero ∧ !x.isNegative ∧ bound.isNegative) := by
      simp only [Bool.or_eq_true, Bool.and_eq_true, decide_eq_true_eq, and_assoc,
        Bool.not_eq_true']
      exact or_congr_right (and_congr_right fun hx => and_congr_right fun hbound =>
        (inverse_lt_iff hbound hx).trans and_comm)
    simp only [search, Double.greatest, not_eqv_self, hbetter, ih]

/-! ### Searches by equality -/

theorem placeOf_replicate {x y : Double} (h : y.eqv x = true) (n : Nat) :
    placeOf x (List.replicate n y) = if n = 0 then -1 else 0 := by
  cases n with
  | zero => rfl
  | succ n => simp [placeOf, List.replicate_succ, List.findIdx?_cons, h]

theorem placeOf_eq_neg_one {x : Double} {l : List Double} (h : ∀ y ∈ l, y.eqv x = false) :
    placeOf x l = -1 := by
  rw [placeOf, List.findIdx?_eq_none_iff.2 h]

/-- What is stored at the end is found there, if nothing before equals it. -/
theorem placeOf_set_last {x y z : Double} (hy : y.eqv x = false) (hz : z.eqv x = true) (n : Nat) :
    placeOf x ((List.replicate (n + 1) y).set n z) = n := by
  have hlast : (List.replicate (n + 1) y).set n z = List.replicate n y ++ [z] := by
    rw [List.replicate_succ', List.set_append_right _ _ (by simp)]
    simp
  have hfind : (List.replicate n y ++ [z]).findIdx? (·.eqv x) = some n := by
    simp [List.findIdx?_append, hy, hz, List.findIdx?_cons]
  rw [hlast, placeOf, hfind]

/-! ## The operations -/

def vectorCall (e : Element) (n : Nat) : ArrayCall :=
  { element := e, length := n, given := e.coerce vectorFill }

theorem ArrayProgram.elements_fill (array : String) (x : Operand) (answer : Answer) :
    (ArrayProgram.mk array [.always (.fill x)] answer).elements call =
      List.replicate call.length (call.element.coerce (x.value call 0)) := by
  rw [elements, List.foldl_cons, List.foldl_nil, Step.run, Store.run_fill, List.length_replicate]

theorem ArrayProgram.elements_each (array : String) (x : Quantity) (answer : Answer) :
    (ArrayProgram.mk array [.always (.each x)] answer).elements call =
      (List.range call.length).map fun i => call.element.coerce (x.value call i) := by
  rw [elements, List.foldl_cons, List.foldl_nil, Step.run,
    Store.run_each x List.length_replicate]

/-- Filling leaves 100 in an element, and a half more in those of the floating types. -/
theorem coerce_vectorFill (e : Element) :
    e.coerce vectorFill = Double.ofRatio ((if e.isFloat then 201 else 200 : Nat) : Int) 2 := by
  cases e <;> decide +kernel

theorem exists_standsFor_stored (e : Element) :
    ∃ m : Nat, m ≤ 201 ∧ (e.coerce vectorFill).StandsFor (m / 2) := by
  refine ⟨if e.isFloat then 201 else 200, by split <;> decide, ?_⟩
  rw [coerce_vectorFill]
  exact Double.standsFor_half (by split <;> decide)

/-- What stands for a multiple of the stored number agrees with the product that is computed. -/
theorem numbersAgree_product {rule : Agreement} (hzero : rule.zeroSign = false) {e : Element}
    {count : Nat} (hcount : count ≤ 2 ^ 53) (h : (e.coerce vectorFill).MultiplesExact count)
    {s : Double} (hs : ∀ q : ℚ, (e.coerce vectorFill).StandsFor q → s.StandsFor (count * q)) :
    rule.numbersAgree s (e.coerce vectorFill * Double.ofNat count) = true := by
  obtain ⟨m, -, hstored⟩ := exists_standsFor_stored e
  obtain ⟨d, hd⟩ := h _ hstored count le_rfl
  have hsum := hs _ hstored
  rw [mul_comm] at hd hsum
  exact Agreement.numbersAgree_of_standsFor hzero hsum
    (hstored.mul_exact (Double.standsFor_ofNat hcount) hd)

namespace ArrayOperation

variable (e : Element) (n : Nat)

/-- How the results of the operation are compared when nothing is tolerated. -/
def exactAgreement (op : ArrayOperation) : Agreement :=
  { kind := op.returns, zeroSign := op.zeroSign, tolerance := Double.zero }

/-- The numbers that the operation counts and adds are exact: the products that stand for sums, and
the lengths and places that are written as doubles. -/
def SumsAreExact (op : ArrayOperation) (e : Element) (n : Nat) : Prop :=
  match op with
  | fill => n < 2 ^ 53 ∧ (e.coerce vectorFill).MultiplesExact n
  | partialFill => n < 2 ^ 53 ∧ (e.coerce vectorFill).MultiplesExact (n - 2)
  | tailSearch | indexOfNegZero | copySet | minNegZero => n < 2 ^ 53
  | _ => True

theorem sumsAreExact_of_le (op : ArrayOperation) {e : Element} {n : Nat} (h : 201 * n < 2 ^ 53) :
    op.SumsAreExact e n := by
  have hn : n < 2 ^ 53 := (Nat.le_mul_of_pos_left n (by norm_num)).trans_lt h
  have hmultiples {count : Nat} (hcount : count ≤ n) :
      (e.coerce vectorFill).MultiplesExact count := by
    intro q hq k hk
    obtain ⟨m, hm, hstored⟩ := exists_standsFor_stored e
    obtain rfl := hq.number_unique hstored
    have hbound : k * m < 2 ^ 53 := by
      calc k * m ≤ n * 201 := Nat.mul_le_mul (hk.trans hcount) hm
        _ = 201 * n := Nat.mul_comm n 201
        _ < 2 ^ 53 := h
    have hhalf : (k : ℚ) * (m / 2) = (k * m : Nat) / 2 := by
      push_cast
      ring
    rw [hhalf]
    exact ⟨_, Double.standsFor_half hbound⟩
  cases op with
  | fill => exact ⟨hn, hmultiples le_rfl⟩
  | partialFill => exact ⟨hn, hmultiples (n.sub_le 2)⟩
  | tailSearch | indexOfNegZero | copySet | minNegZero => exact hn
  | _ => trivial

/-- Memory has room for the elements that are listed. -/
theorem result?_eq {op : ArrayOperation} (h : op.listsElements = true → n < 2 ^ 60) :
    op.result? e n = some (op.result e n) := by
  refine if_neg fun hroom => ?_
  have hlimit : wordLimit 63 = 2 ^ 63 := rfl
  have hn := h hroom.1
  omega

/-! ### Sums of filled elements -/

theorem holds_fill {e : Element} {n : Nat} (hn : n < 2 ^ 53)
    (h : (e.coerce vectorFill).MultiplesExact n) :
    fill.exactAgreement.holds (fill.program.run (vectorCall e n)) (fill.result e n) = true := by
  rw [ArrayProgram.run, program, ArrayProgram.elements_fill,
    Answer.value_sum List.length_replicate]
  exact numbersAgree_product rfl hn.le h fun q hq => hq.foldl_replicate h

/-- A fill of all elements but the first and the last. -/
theorem fillRange_inner (x y : Double) (n : Nat) :
    fillRange x 1 (n + 1) (List.replicate (n + 2) y) = y :: (List.replicate n x ++ [y]) := by
  refine List.ext_getElem (by simp [length_fillRange]) fun i hi _ => ?_
  rw [length_fillRange, List.length_replicate] at hi
  cases i with
  | zero => simp [fillRange]
  | succ i =>
    have hfilled : (fillRange x 1 (n + 1) (List.replicate (n + 2) y))[i + 1] =
        if i < n then x else y := by
      simp [fillRange]
    rw [hfilled, List.getElem_cons_succ, List.getElem_append]
    simp

theorem coerce_zero (e : Element) : e.coerce Double.zero = Double.zero := by
  cases e <;> decide

theorem elements_partialFill (e : Element) (n : Nat) :
    partialFill.program.elements (vectorCall e (n + 2)) =
      Double.zero :: (List.replicate n (e.coerce vectorFill) ++ [Double.zero]) := by
  have hzeros : (Store.fill (.literal Double.zero)).run (vectorCall e (n + 2))
      (List.replicate (n + 2) Double.zero) = List.replicate (n + 2) Double.zero := by
    rw [Store.run_fill, List.length_replicate]
    exact congrArg (List.replicate (n + 2)) (coerce_zero e)
  have hstart : rangeBound (n + 2) (Position.index (n + 2) (.fromStart 1)) = 1 := by
    simp [rangeBound, Position.index]
  have hstop : rangeBound (n + 2) (Position.index (n + 2) (.fromEnd 1)) = n + 1 := by
    rw [Position.index, rangeBound, if_neg (by push_cast; omega)]
    omega
  have hfilled : partialFill.program.elements (vectorCall e (n + 2)) =
      (Store.fillBetween (.literal vectorFill) (.fromStart 1) (.fromEnd 1)).run
        (vectorCall e (n + 2)) (List.replicate (n + 2) Double.zero) :=
    congrArg (fun stored => Store.run (vectorCall e (n + 2)) stored
      (.fillBetween (.literal vectorFill) (.fromStart 1) (.fromEnd 1))) hzeros
  rw [hfilled, Store.run, List.length_replicate, vectorCall, hstart, hstop, fillRange_inner]
  rfl

theorem standsFor_sum_partialFill {e : Element} {n : Nat} {q : ℚ}
    (hstored : (e.coerce vectorFill).StandsFor q)
    (h : (e.coerce vectorFill).MultiplesExact (n - 2)) :
    ((partialFill.program.elements (vectorCall e n)).foldl (· + ·) Double.zero).StandsFor
      ((n - 2 : Nat) * q) := by
  have hzeros : Double.zero + Double.zero = Double.zero := by decide
  -- Without inner elements nothing is stored: the range ends before it begins.
  match n with
  | 0 =>
    have hnone : partialFill.program.elements (vectorCall e 0) = [] := rfl
    simpa [hnone] using Double.standsFor_zero
  | 1 =>
    have hone : partialFill.program.elements (vectorCall e 1) = [e.coerce Double.zero] := rfl
    simpa [hone, coerce_zero, hzeros] using Double.standsFor_zero
  | n + 2 =>
    have hinner := hstored.foldl_replicate h
    rw [elements_partialFill, List.foldl_cons, hzeros, List.foldl_append, List.foldl_cons,
      List.foldl_nil, ← add_zero ((_ : ℚ) * q)]
    exact hinner.add_exact Double.standsFor_zero (by rwa [add_zero])

theorem holds_partialFill {e : Element} {n : Nat} (hn : n < 2 ^ 53)
    (h : (e.coerce vectorFill).MultiplesExact (n - 2)) :
    partialFill.exactAgreement.holds (partialFill.program.run (vectorCall e n))
      (partialFill.result e n) = true := by
  have hlength := partialFill.program.length_elements (vectorCall e n)
  have hrun : partialFill.program.run (vectorCall e n) =
      .number ((partialFill.program.elements (vectorCall e n)).foldl (· + ·) Double.zero) :=
    Answer.value_sum hlength
  rw [hrun]
  exact numbersAgree_product rfl ((n.sub_le 2).trans hn.le) h fun q hq =>
    standsFor_sum_partialFill hq h

theorem holds_reduce (e : Element) (n : Nat) :
    reduce.exactAgreement.holds (reduce.program.run (vectorCall e n)) (reduce.result e n) =
      true := by
  have hfirst : e.coerce (Double.ofNat 0 + Double.ofRatio 1 2) ≠ Double.negZero := by
    have hhalf : Double.ofNat 0 + Double.ofRatio 1 2 = Double.ofRatio 1 2 :=
      Double.zero_add_of_ne (by decide)
    rw [hhalf]
    cases e <;> decide +kernel
  have hrun : reduce.program.run (vectorCall e n) =
      .number (((List.range n).map fun i =>
        e.coerce (Double.ofNat i + Double.ofRatio 1 2)).foldl (· + ·) Double.zero) := by
    rw [ArrayProgram.run, program, ArrayProgram.elements_each]
    rfl
  rw [hrun]
  refine Agreement.numbersAgree_sum rfl ?_ n
  exact hfirst

theorem run_fillNaN : fillNaN.program.run (vectorCall e n) = fillNaN.result e n := by
  rw [ArrayProgram.run, program, ArrayProgram.elements_fill]
  exact Answer.value_sum List.length_replicate

theorem run_fillNegZero : fillNegZero.program.run (vectorCall e n) = fillNegZero.result e n := by
  rw [ArrayProgram.run, program, ArrayProgram.elements_fill]
  exact Answer.value_sum List.length_replicate

/-! ### Searches in filled arrays -/

theorem run_fillIndexOf : fillIndexOf.program.run (vectorCall e n) = fillIndexOf.result e n := by
  have hfound : (e.coerce vectorFill).eqv (e.coerce vectorFill) = true := by
    cases e <;> decide +kernel
  simp only [ArrayProgram.run, program, ArrayProgram.elements_fill, Answer.value]
  exact congrArg Value.ofInt (placeOf_replicate hfound n)

theorem run_indexOfNaN : indexOfNaN.program.run (vectorCall e n) = indexOfNaN.result e n := by
  have hnone (y : Double) : y.eqv .nan = false := by
    cases y <;> rfl
  simp only [ArrayProgram.run, program, ArrayProgram.elements_fill, Answer.value]
  exact congrArg Value.ofInt (placeOf_eq_neg_one fun y _ => hnone y)

theorem run_includesNaN : includesNaN.program.run (vectorCall e n) = includesNaN.result e n := by
  have hfound : ((e.coerce .nan).eqv .nan || ((e.coerce .nan).isNaN && Double.nan.isNaN)) =
      e.isFloat := by
    cases e <;> decide
  simp only [ArrayProgram.run, program, ArrayProgram.elements_fill, Answer.value, contains,
    Operand.value, vectorCall, List.any_replicate, hfound, result]
  cases n <;> simp

theorem lastPlace_eq (h : n < 2 ^ 53) : lastPlace n = (n : Int) - 1 := by
  have hlimit : wordLimit 64 = 2 ^ 64 := rfl
  rw [lastPlace, signedWord, Int.bmod_eq_of_le] <;> omega

/-- Nothing before the last place equals what is stored there. -/
theorem run_tailSearch_eq : tailSearch.program.run (vectorCall e n) = .ofInt ((n : Int) - 1) := by
  have hother : Double.zero.eqv (e.coerce vectorFill) = false := by
    cases e <;> decide +kernel
  have hfound : (e.coerce (e.coerce vectorFill)).eqv (e.coerce vectorFill) = true := by
    rw [e.coerce_coerce]
    cases e <;> decide +kernel
  refine congrArg Value.ofInt ?_
  cases n with
  | zero => rfl
  | succ n =>
    have hlast : tailSearch.program.elements (vectorCall e (n + 1)) =
        (List.replicate (n + 1) Double.zero).set n (e.coerce (e.coerce vectorFill)) :=
      Store.run_put_last .given rfl
    rw [hlast, Operand.value, vectorCall, placeOf_set_last hother hfound]
    push_cast
    ring

theorem run_tailSearch (h : n < 2 ^ 53) :
    tailSearch.program.run (vectorCall e n) = tailSearch.result e n := by
  rw [run_tailSearch_eq, result, lastPlace_eq n h]

theorem run_indexOfNegZero (h : n < 2 ^ 53) :
    indexOfNegZero.program.run (vectorCall e n) = indexOfNegZero.result e n := by
  have hother : (e.coerce Double.one).eqv Double.zero = false := by
    cases e <;> decide +kernel
  have hfound : (e.coerce Double.negZero).eqv Double.zero = true := by
    cases e <;> decide
  refine congrArg Value.ofInt ?_
  rw [lastPlace_eq n h]
  cases n with
  | zero => rfl
  | succ n =>
    have hfilled : (Store.fill (.literal Double.one)).run (vectorCall e (n + 1))
        (List.replicate (n + 1) Double.zero) = List.replicate (n + 1) (e.coerce Double.one) := by
      rw [Store.run_fill, List.length_replicate]
      rfl
    have hlast : indexOfNegZero.program.elements (vectorCall e (n + 1)) =
        (List.replicate (n + 1) (e.coerce Double.one)).set n (e.coerce Double.negZero) :=
      (Store.run_put_last (.literal Double.negZero) rfl).trans
        (congrArg (List.set · n (e.coerce Double.negZero)) hfilled)
    rw [hlast, Operand.value, placeOf_set_last hother hfound]
    push_cast
    ring

/-! ### The least and the greatest element -/

theorem elements_minNegZero (h : n < 2 ^ 53) :
    minNegZero.program.elements (vectorCall e n) = (fallingElements n).map e.coerce := by
  have hlength : (List.replicate n Double.zero).length = (vectorCall e n).length :=
    List.length_replicate
  have hfalling : (Store.each (.minus .length .place)).run (vectorCall e n)
      (List.replicate n Double.zero) =
        ((List.range n).map fun i => Double.ofNat (n - i)).map e.coerce := by
    rw [Store.run_each _ hlength, List.map_map]
    refine List.map_congr_left fun i hi => congrArg e.coerce ?_
    exact Double.ofNat_sub_ofNat h.le (List.mem_range.1 hi)
  cases n with
  | zero => rfl
  | succ n =>
    have hends : minNegZero.program.elements (vectorCall e (n + 1)) =
        (((Store.each (.minus .length .place)).run (vectorCall e (n + 1))
          (List.replicate (n + 1) Double.zero)).set 0 (e.coerce Double.zero)).set n
            (e.coerce Double.negZero) :=
      Store.run_put_last (.literal Double.negZero) rfl
    rw [hends, hfalling, fallingElements, List.map_set, List.map_set, Nat.add_sub_cancel]

theorem run_minNegZero (h : n < 2 ^ 53) :
    minNegZero.program.run (vectorCall e n) = minNegZero.result e n := by
  have hlength := minNegZero.program.length_elements (vectorCall e n)
  refine congrArg Value.number ?_
  rw [Answer.readings_of_length hlength, search_lt, elements_minNegZero e n h]

theorem index_middle (h : n < 2 ^ 31) : Position.index n .middle = (n / 2 : Nat) := by
  have hlimit : wordLimit 32 = 2 ^ 32 := rfl
  rw [Position.index, signedWord, Int.bmod_eq_of_le (by omega) (by omega), Int.natCast_ediv,
    Nat.cast_ofNat]

/-- The middle is stored after the loop, if there is one. -/
theorem elements_maxNaN {rising : List Double}
    (hrising : rising = ((List.range n).map fun i => Double.ofNat i - Double.one).map e.coerce) :
    maxNaN.program.elements (vectorCall e n) =
      if 1 < n then storeAt (Position.index n .middle) (e.coerce .nan) rising else rising := by
  have hloop : (Store.each (.minus .place (.literal Double.one))).run (vectorCall e n)
      (List.replicate (vectorCall e n).length Double.zero) = rising := by
    rw [Store.run_each _ List.length_replicate, hrising, List.map_map]
    rfl
  rw [ArrayProgram.elements, program, List.foldl_cons, Step.run, hloop, List.foldl_cons,
    List.foldl_nil, Step.run, List.foldl_cons, List.foldl_nil, Store.run]
  rfl

theorem run_maxNaN_eq : maxNaN.program.run (vectorCall e n) = .number
    (Double.greatest (.infinite true) (maxNaN.program.elements (vectorCall e n))) := by
  have hlength := maxNaN.program.length_elements (vectorCall e n)
  refine congrArg Value.number ?_
  rw [Answer.readings_of_length hlength, search_gt]

theorem run_maxNaN (h : n < 2 ^ 31) :
    maxNaN.program.run (vectorCall e n) = maxNaN.result e n := by
  have hmiddle : ¬((n / 2 : Nat) : Int) < 0 := Int.not_lt.2 (Int.natCast_nonneg _)
  have helements :
      maxNaN.program.elements (vectorCall e n) = (risingElements n).map e.coerce := by
    rw [elements_maxNaN e n rfl, index_middle n h, storeAt, if_neg hmiddle, Int.toNat_natCast,
      risingElements]
    split
    · next hn => rw [if_neg (Nat.not_le.2 hn), List.map_set]
    · next hn => rw [if_pos (Nat.le_of_not_lt hn)]
  rw [run_maxNaN_eq, helements, result]

/-! ### Copies -/

/-- The copied elements stand behind a zero. -/
theorem copyFrom_one (e : Element) (l : List Double) :
    copyFrom e 1 l (List.replicate (l.length + 1) Double.zero) =
      Double.zero :: l.map e.coerce := by
  simp [copyFrom, List.replicate_succ, Nat.add_comm]

/-- The sum of an array with a zero in front, weighted by the places. -/
theorem foldl_weighted (l : List Double) :
    (List.range (l.length + 1)).foldl (fun s j =>
      s + elementAt (Double.zero :: l) j * (Double.ofNat j + Double.one)) Double.zero =
    ((List.range l.length).map fun i =>
      elementAt l i * (Double.ofNat (i + 1) + Double.one)).foldl (· + ·) Double.zero := by
  have hfirst : Double.zero + elementAt (Double.zero :: l) 0 *
      (Double.ofNat 0 + Double.one) = Double.zero := by
    have hone : Double.ofNat 0 + Double.one = Double.one := Double.zero_add_of_ne (by decide)
    have hzero : elementAt (Double.zero :: l) 0 = Double.zero := rfl
    rw [hzero, hone]
    decide
  rw [List.range_succ_eq_map, List.foldl_cons, hfirst, List.foldl_map, List.foldl_map]
  rfl

theorem run_copySet (h : n < 2 ^ 53) : copySet.program.run (vectorCall e n) =
    .number (((List.range n).map fun i => e.coerce (Double.ofNat i + Double.one) *
      (Double.ofNat i + Double.ofNat 2)).foldl (· + ·) Double.zero) := by
  set stored := (List.range n).map fun i => e.coerce (Double.ofNat i + Double.one) with hstored
  have hlength : stored.length = n := by simp [hstored]
  -- The elements are converted again when they are copied, which does not change them.
  have hagain : stored.map e.coerce = stored := by
    simp [hstored, Element.coerce_coerce]
  have hcopy : copyFrom e 1 stored (List.replicate (n + 1) Double.zero) =
      Double.zero :: stored := by
    rw [← hlength, copyFrom_one, hagain]
  have hrun : copySet.program.run (vectorCall e n) =
      .number ((List.range (Double.zero :: stored).length).foldl (fun s j =>
        s + elementAt (Double.zero :: stored) j * (Double.ofNat j + Double.one))
          Double.zero) := by
    rw [ArrayProgram.run, program, ArrayProgram.elements_each, ← hcopy]
    rfl
  rw [hrun, List.length_cons, foldl_weighted, hlength]
  refine congrArg (fun l : List Double => Value.number (l.foldl (· + ·) Double.zero))
    (List.map_congr_left fun i hi => ?_)
  have hi := List.mem_range.1 hi
  have hweight : Double.ofNat (i + 1) + Double.one = Double.ofNat i + Double.ofNat 2 := by
    rw [Double.one, Double.ofNat_add_ofNat (by omega) (by omega),
      Double.ofNat_add_ofNat (by omega) (by omega)]
  have helement : elementAt stored i = e.coerce (Double.ofNat i + Double.one) := by
    simp [elementAt, hstored, hi]
  rw [hweight, helement]

theorem holds_copySet (h : n < 2 ^ 53) :
    copySet.exactAgreement.holds (copySet.program.run (vectorCall e n)) (copySet.result e n) =
      true := by
  have hfirst : e.coerce (Double.ofNat 0 + Double.one) * (Double.ofNat 0 + Double.ofNat 2) ≠
      Double.negZero := by
    have hone : Double.ofNat 0 + Double.one = Double.one := Double.zero_add_of_ne (by decide)
    have htwo : Double.ofNat 0 + Double.ofNat 2 = Double.ofNat 2 :=
      Double.zero_add_of_ne (by decide)
    rw [hone, htwo]
    cases e <;> decide +kernel
  rw [run_copySet e n h]
  refine Agreement.numbersAgree_sum rfl ?_ n
  exact hfirst

/-! ### All operations -/

/-- **The closed forms are right.** The program of an operation has its source, the reference gives
a result for arrays of any type and length, and what the program gives agrees with that exactly,
under the operation's own kind of result and its own rule for zeros. Sums that the result computes
by a multiplication have to be exact, and where a store is in the middle, the length has to be one
that a shift of 32 bits halves. -/
theorem holds_run_result (op : ArrayOperation) (e : Element) {n : Nat} (h : op.SumsAreExact e n)
    (hmiddle : op = maxNaN → n < 2 ^ 31) :
    op.program.source op.function = op.source ∧
      ∃ v, op.result? e n = some v ∧
        op.exactAgreement.holds (op.program.run (vectorCall e n)) v = true := by
  have hroom (hlists : op.listsElements = true) : n < 2 ^ 60 := by
    cases op with
    | minNegZero => exact Nat.lt_trans h (by norm_num)
    | maxNaN => exact (hmiddle rfl).trans (by norm_num)
    | _ => cases hlists
  refine ⟨op.source_program, op.result e n, result?_eq e n hroom, ?_⟩
  have hsame (hrun : op.program.run (vectorCall e n) = op.result e n) :
      op.exactAgreement.holds (op.program.run (vectorCall e n)) (op.result e n) = true := by
    rw [hrun]
    exact op.exactAgreement.holds_self _
  cases op with
  | fill => exact holds_fill h.1 h.2
  | partialFill => exact holds_partialFill h.1 h.2
  | fillNaN => exact hsame (run_fillNaN e n)
  | fillNegZero => exact hsame (run_fillNegZero e n)
  | fillIndexOf => exact hsame (run_fillIndexOf e n)
  | tailSearch => exact hsame (run_tailSearch e n h)
  | indexOfNegZero => exact hsame (run_indexOfNegZero e n h)
  | indexOfNaN => exact hsame (run_indexOfNaN e n)
  | includesNaN => exact hsame (run_includesNaN e n)
  | copySet => exact holds_copySet e n h
  | reduce => exact holds_reduce e n
  | minNegZero => exact hsame (run_minNegZero e n h)
  | maxNaN => exact hsame (run_maxNaN e n (hmiddle rfl))

/-- Among five elements, three are filled. -/
theorem holds_run_result_partialFill :
    (partialFill.SumsAreExact .float32 5 ∧ (partialFill = maxNaN → 5 < 2 ^ 31)) ∧
      partialFill.result? .float32 5 = some (.number (Double.ofRatio 603 2)) ∧
      partialFill.exactAgreement.holds (partialFill.program.run (vectorCall .float32 5))
        (.number (Double.ofRatio 603 2)) = true := by
  have hexact : partialFill.SumsAreExact .float32 5 :=
    partialFill.sumsAreExact_of_le (by norm_num)
  have hresult : partialFill.result? .float32 5 = some (.number (Double.ofRatio 603 2)) := by
    decide
  obtain ⟨-, v, hv, hholds⟩ := holds_run_result partialFill .float32 hexact nofun
  obtain rfl := Option.some.inj (hresult.symm.trans hv)
  exact ⟨⟨hexact, nofun⟩, hresult, hholds⟩

/-! ### Beyond the shift -/

/-- A number stays one when a floating element holds it. -/
theorem coerce_ne_nan {e : Element} (he : e.isFloat = true) {x : Double} (hx : x ≠ .nan) :
    e.coerce x ≠ .nan := by
  cases e with
  | float64 => exact hx
  | float32 =>
    cases x with
    | nan => exact absurd rfl hx
    | infinite negative => exact hx
    | finite negative o =>
      simp only [Element.coerce, Double.toSingle, Double.round, Double.ofOrdinal]
      split_ifs <;> exact fun hnan => by cases hnan
  | _ => cases he

theorem ofNat_sub_one_ne_nan {i : Nat} (h : i ≤ 2 ^ 53) : Double.ofNat i - Double.one ≠ .nan := by
  have hdifference : (Double.ofNat i - Double.one).StandsFor ((i + -1 : Int) : ℚ) := by
    refine (Double.StandsFor.add_int ?_ ?_ ?_).1
    · exact_mod_cast Double.standsFor_ofNat h
    · simpa [Double.one] using (@Double.standsFor_ofNat 1 (by norm_num)).neg
    · rw [abs_le]
      omega
  exact fun hnan => hdifference.not_isNaN (congrArg Double.isNaN hnan)

theorem greatest_eq_nan_iff {l : List Double} :
    Double.greatest (.infinite true) l = .nan ↔ Double.nan ∈ l :=
  Double.Number.searches_greatest.eq_nan_iff ⊥ l

/-- Among floating elements with a middle the reference finds the one that is not a number. -/
theorem result_maxNaN {e : Element} (he : e.isFloat = true) {n : Nat} (hn : 1 < n) :
    maxNaN.result e n = .number .nan := by
  have hnan : e.coerce .nan = .nan := by
    cases e <;> first | rfl | cases he
  have hmem : Double.nan ∈ (risingElements n).map e.coerce := by
    rw [risingElements, if_neg (Nat.not_le.2 hn), List.map_set, hnan]
    exact List.mem_set (by simp; omega) _
  exact congrArg Value.number (greatest_eq_nan_iff.2 hmem)

/-- Where the shifted length is negative, the function stores nothing in the middle. It finds a
number, and the reference expects none. -/
theorem run_maxNaN_of_neg {e : Element} (he : e.isFloat = true) {n : Nat} (hn : n < 2 ^ 53)
    (h : signedWord 32 n < 0) :
    maxNaN.result e n = .number .nan ∧
      ∃ x, maxNaN.program.run (vectorCall e n) = .number x ∧ x ≠ .nan := by
  have hlong : 1 < n := by
    by_contra hshort
    obtain rfl | rfl : n = 0 ∨ n = 1 := by omega
    · exact absurd h (by decide)
    · exact absurd h (by decide)
  have hindex : Position.index n .middle < 0 := by
    rw [Position.index]
    omega
  refine ⟨result_maxNaN he hlong, _, run_maxNaN_eq e n, fun hresult => ?_⟩
  have hmem := greatest_eq_nan_iff.1 hresult
  rw [elements_maxNaN e n rfl, if_pos hlong, storeAt, if_pos hindex, List.map_map,
    List.mem_map] at hmem
  obtain ⟨i, hi, hcoerced⟩ := hmem
  have hi := List.mem_range.1 hi
  exact coerce_ne_nan he (ofNat_sub_one_ne_nan (hi.le.trans hn.le)) hcoerced

/-- At `2 ^ 31` elements the greatest element of the function is not what the reference expects, and
from `2 ^ 60` on the reference gives nothing at all. A length of more than `2 ^ 63` comes out
negative in the reference of a search for the last element. -/
theorem not_holds_run_result :
    (maxNaN.SumsAreExact .float64 (2 ^ 31) ∧
      maxNaN.result? .float64 (2 ^ 31) = some (.number .nan) ∧
      maxNaN.exactAgreement.holds (maxNaN.program.run (vectorCall .float64 (2 ^ 31)))
        (.number .nan) = false) ∧
    maxNaN.result? .float32 (2 ^ 60) = none ∧
    (∃ v, tailSearch.result? .float64 (2 ^ 63 + 2 ^ 53) = some v ∧
      tailSearch.exactAgreement.holds
        (tailSearch.program.run (vectorCall .float64 (2 ^ 63 + 2 ^ 53))) v = false) := by
  obtain ⟨hresult, x, hrun, hx⟩ :=
    @run_maxNaN_of_neg .float64 rfl (2 ^ 31) (by norm_num) (by decide)
  refine ⟨⟨trivial, ?_, ?_⟩, if_pos ⟨rfl, by decide⟩, _, result?_eq _ _ nofun, ?_⟩
  · rw [result?_eq _ _ fun _ => by norm_num, hresult]
  · rw [hrun]
    cases x with
    | nan => exact absurd rfl hx
    | _ => rfl
  · rw [run_tailSearch_eq]
    decide +kernel

end ArrayOperation

end Plan

end TierCheck
