import Mathlib.Data.Prod.Lex
import TierCheck.Catalog.Vectors
import TierCheck.Proofs.Judgement.Agreement

/-!
# Extremes whatever the order

Vector code finds the extreme of an array chunk by chunk and combines what it found, so its result
must not depend on where the elements stand. Comparing numbers does not tell the zeros apart, and a
value that is not a number is in no order with the others. The numbers have a total order all the
same: by size, negative zero before the other. The two searches find the first and the last number
of a list in that order, unless a value that is not a number prevails.

* `Double.Number`: the doubles that are numbers, with their linear order.
* `Double.Number.OrdersNumbers`: what the order is. `Double.Number.ordersNumbers_iff`: it is the
  only such relation.
* `Double.Number.Searches`: a search as a loop. `Double.Number.Searches.exists_isFirst`: what it
  keeps is the first of all that it has seen.
* `Double.Number.FindsFirst`: the laws of a search. `Double.Number.findsFirst_least_greatest`: the
  result.
-/
namespace TierCheck

namespace Double

/-- Numbers that are equal and have the same sign are the same. -/
theorem eq_of_eqv {x y : Double} (h : x.eqv y = true) (hsign : x.isNegative = y.isNegative) :
    x = y := by
  cases x with
  | nan => cases h
  | infinite s => exact (eq_infinite_of_eqv h).symm
  | finite s o =>
    cases y with
    | nan => cases h
    | infinite t => exact eq_infinite_of_eqv ((eqv_comm _ _).trans h)
    | finite t p =>
      obtain rfl : s = t := hsign
      obtain ⟨n, ho, hp⟩ := eqv_iff_exists_rank.1 h
      have hrank := Option.some.inj (ho.trans hp.symm)
      have hordinal : o = p := Fin.ext (by cases s <;> simpa using hrank)
      rw [hordinal]

/-- A double that is a number. -/
@[ext]
structure Number where
  val : Double
  val_ne : val ≠ nan

namespace Number

/-! ## The order -/

/-- The place of a number in the numeric order. -/
def rank (x : Number) : Int := x.val.rank?.getD 0

theorem rank?_val (x : Number) : x.val.rank? = some x.rank := by
  obtain ⟨x, hx⟩ := x
  cases x with
  | nan => exact absurd rfl hx
  | _ => rfl

theorem val_lt_iff {x y : Number} : x.val < y.val ↔ x.rank < y.rank := by
  show compareRanks _ x.val y.val = true ↔ _
  rw [compareRanks, rank?_val, rank?_val]
  exact decide_eq_true_iff

theorem eqv_val_iff {x y : Number} : x.val.eqv y.val = true ↔ x.rank = y.rank := by
  rw [eqv, compareRanks, rank?_val, rank?_val]
  exact beq_iff_eq

/-- The place of a number among all numbers. The sign tells the zeros apart. -/
def place (x : Number) : Int ×ₗ Bool := toLex (x.rank, !x.val.isNegative)

theorem place_injective : Function.Injective place := by
  intro x y h
  obtain ⟨hrank, hsign⟩ := Prod.ext_iff.1 (toLex_inj.1 h)
  exact Number.ext (eq_of_eqv (eqv_val_iff.2 hrank) (Bool.not_inj hsign))

instance : LinearOrder Number := LinearOrder.lift' place place_injective

/-- Numbers are in the order of their sizes, and only zeros are told apart by their signs. -/
theorem lt_iff {x y : Number} : x < y ↔ x.val < y.val ∨
    x.val.isZero ∧ y.val.isZero ∧ x.val.isNegative ∧ !y.val.isNegative := by
  have hplace : x < y ↔ x.place < y.place := Iff.rfl
  have hsign : (!x.val.isNegative) < (!y.val.isNegative) ↔
      x.val.isNegative = true ∧ (!y.val.isNegative) = true := by
    rw [Bool.lt_iff, Bool.not_eq_false']
  have hzero (hx : x.val.isNegative = true) (hy : (!y.val.isNegative) = true) :
      x.rank = y.rank ↔ x.val.isZero = true ∧ y.val.isZero = true := by
    constructor
    · intro hrank
      by_contra hzero
      have hsame := isNegative_eq_of_eqv (eqv_val_iff.2 hrank) hzero
      rw [← hsame, hx] at hy
      cases hy
    · rintro ⟨hxzero, hyzero⟩
      rw [isZero_iff_rank, rank?_val, Option.some.injEq] at hxzero hyzero
      rw [hxzero, hyzero]
  rw [hplace, place, place, Prod.Lex.toLex_lt_toLex, hsign, val_lt_iff]
  refine or_congr_right ?_
  rw [and_congr_left fun h => hzero h.1 h.2, and_assoc]

theorem abs_rank_le (x : Number) : |x.rank| ≤ Format.binary64.overflow := by
  obtain ⟨x, hx⟩ := x
  cases x with
  | nan => exact absurd rfl hx
  | infinite negative =>
    have hrank : rank ⟨infinite negative, hx⟩ = if negative then -(Format.binary64.overflow : Int)
      else Format.binary64.overflow := rfl
    rw [hrank, abs_le]
    split <;> omega
  | finite negative o =>
    have hlt := o.isLt
    have hrank : rank ⟨finite negative o, hx⟩ = if negative then -(o.val : Int) else o.val := rfl
    rw [hrank, abs_le]
    split <;> omega

instance : BoundedOrder Number where
  top := ⟨infinite false, nofun⟩
  le_top x := by
    refine not_lt.1 fun h => ?_
    rcases lt_iff.1 h with hlt | ⟨hzero, -⟩
    · exact absurd (val_lt_iff.1 hlt) (not_lt.2 (abs_le.1 x.abs_rank_le).2)
    · exact absurd hzero (by decide)
  bot := ⟨infinite true, nofun⟩
  bot_le x := by
    refine not_lt.1 fun h => ?_
    rcases lt_iff.1 h with hlt | ⟨-, hzero, -⟩
    · exact absurd (val_lt_iff.1 hlt) (not_lt.2 (abs_le.1 x.abs_rank_le).1)
    · exact absurd hzero (by decide)

theorem eq_bot_or_eq_top_or_standsFor (x : Number) :
    x = ⊥ ∨ x = ⊤ ∨ ∃ q, x.val.StandsFor q := by
  obtain ⟨x, hx⟩ := x
  cases x with
  | nan => exact absurd rfl hx
  | infinite negative =>
    cases negative
    · exact .inr (.inl rfl)
    · exact .inl rfl
  | finite negative o => exact .inr (.inr ⟨_, negative, o, rfl, rfl⟩)

/-- The relation is an order of the numbers by their sizes, with the infinities at its ends, and
negative zero comes before the other. -/
structure OrdersNumbers (r : Number → Number → Prop) : Prop extends IsLinearOrder Number r where
  size : ∀ (x y : Number) (a b : ℚ), x.val.StandsFor a → y.val.StandsFor b → a < b → r x y
  infinite : ∀ x y : Number, x.val = infinite true ∨ y.val = infinite false → r x y
  zeros : ∀ x y : Number, x.val = negZero → y.val = zero → r x y

theorem ordersNumbers_le : OrdersNumbers (· ≤ ·) where
  size x y a b hx hy h := (lt_iff.2 (.inl ((hx.lt_iff hy).2 h))).le
  infinite x y h := by
    rcases h with h | h
    · exact (Number.ext h : x = ⊥) ▸ bot_le
    · exact (Number.ext h : y = ⊤) ▸ le_top
  zeros x y hx hy := by
    refine (lt_iff.2 (.inr ?_)).le
    rw [hx, hy]
    decide

theorem OrdersNumbers.of_lt {r : Number → Number → Prop} (h : OrdersNumbers r) {x y : Number}
    (hlt : x < y) : r x y := by
  rcases lt_iff.1 hlt with hsize | ⟨hx, hy, hxsign, hysign⟩
  · rcases x.eq_bot_or_eq_top_or_standsFor with rfl | rfl | ⟨a, ha⟩
    · exact h.infinite _ _ (.inl rfl)
    · exact absurd hlt not_top_lt
    · rcases y.eq_bot_or_eq_top_or_standsFor with rfl | rfl | ⟨b, hb⟩
      · exact absurd hlt not_lt_bot
      · exact h.infinite _ _ (.inr rfl)
      · exact h.size _ _ a b ha hb ((ha.lt_iff hb).1 hsize)
  · refine h.zeros _ _ ((eq_zero_of_isZero hx).resolve_left fun hzero => ?_)
      ((eq_zero_of_isZero hy).resolve_right fun hzero => ?_)
    · rw [hzero] at hxsign
      cases hxsign
    · rw [hzero] at hysign
      cases hysign

/-- There is one such order. -/
theorem ordersNumbers_iff {r : Number → Number → Prop} : OrdersNumbers r ↔ r = (· ≤ ·) := by
  constructor
  · intro h
    funext x y
    refine propext ⟨fun hr => ?_, fun hle => ?_⟩
    · by_contra hgt
      exact hgt (h.antisymm x y hr (h.of_lt (not_le.1 hgt))).le
    · rcases hle.lt_or_eq with hlt | rfl
      · exact h.of_lt hlt
      · exact h.refl x
  · rintro rfl
    exact ordersNumbers_le

/-! ## Searches -/

/-- The number is in the list, and it comes before all numbers of the list. -/
structure IsFirst (r : Number → Number → Prop) (l : List Double) (m : Number) : Prop where
  mem : m.val ∈ l
  first : ∀ x : Number, x.val ∈ l → r m x

/-- The search keeps one of two numbers at each step, until it meets a value that is not a
number. -/
structure Searches (pick : Number → Number → Number) (search : Double → List Double → Double) :
    Prop where
  nil : ∀ bound, search bound [] = bound
  nan : ∀ bound rest, search bound (nan :: rest) = nan
  cons : ∀ (bound x : Number) (rest : List Double),
    search bound.val (x.val :: rest) = search (pick bound x).val rest

theorem searches_least : Searches min least where
  nil _ := rfl
  nan _ _ := rfl
  cons bound x rest := by
    rw [least, if_neg (Bool.eq_false_iff.1 (isNaN_of_rank x.rank?_val))]
    split
    · next h => rw [min_eq_right (lt_iff.2 h).le]
    · next h => rw [min_eq_left (not_lt.1 (mt lt_iff.1 h))]

theorem searches_greatest : Searches max greatest where
  nil _ := rfl
  nan _ _ := rfl
  cons bound x rest := by
    have hlt : bound < x ↔ bound.val < x.val ∨
        x.val.isZero ∧ bound.val.isZero ∧ !x.val.isNegative ∧ bound.val.isNegative := by
      rw [lt_iff]
      tauto
    rw [greatest, if_neg (Bool.eq_false_iff.1 (isNaN_of_rank x.rank?_val))]
    split
    · next h => rw [max_eq_right (hlt.2 h).le]
    · next h => rw [max_eq_left (not_lt.1 (mt hlt.1 h))]

/-- The laws of a search for the number that comes first. -/
structure FindsFirst (r : Number → Number → Prop) (empty : Double)
    (find : List Double → Double) : Prop where
  nil : find [] = empty
  nan_iff : ∀ l, find l = nan ↔ nan ∈ l
  first : ∀ l, l ≠ [] → nan ∉ l → ∃ m : Number, find l = m.val ∧ IsFirst r l m
  perm : ∀ a b, a.Perm b → find a = find b
  /-- Parts of a list can be searched on their own. -/
  append : ∀ a b, find (a ++ b) = find [find a, find b]

section

variable {r : Number → Number → Prop} {l : List Double} {m n : Number}

theorem isFirst_pair {x y : Number} (hm : m = x ∨ m = y) (hx : r m x) (hy : r m y) :
    IsFirst r [x.val, y.val] m where
  mem := by simpa using hm.imp (congrArg val) (congrArg val)
  first z hz := by
    rcases List.mem_cons.1 hz with hz | hz
    · exact Number.ext hz ▸ hx
    · exact Number.ext (List.mem_singleton.1 hz) ▸ hy

variable [IsPartialOrder Number r]

theorem IsFirst.unique (hm : IsFirst r l m) (hn : IsFirst r l n) : m = n :=
  antisymm_of r (hm.first n hn.mem) (hn.first m hm.mem)

/-- What comes before the first of two numbers comes before both. -/
theorem IsFirst.cons_cons {x y : Number} (hm : IsFirst r [x.val, y.val] m)
    (hn : IsFirst r (m.val :: l) n) : IsFirst r (x.val :: y.val :: l) n where
  mem := by
    rcases List.mem_cons.1 hn.mem with hmem | hmem
    · exact List.mem_append_left l (hmem ▸ hm.mem)
    · exact List.mem_append_right [x.val, y.val] hmem
  first z hz := by
    rcases List.mem_append.1 (show z.val ∈ [x.val, y.val] ++ l from hz) with hmem | hmem
    · exact trans_of r (hn.first m List.mem_cons_self) (hm.first z hmem)
    · exact hn.first z (List.mem_cons_of_mem _ hmem)

/-- The first of the firsts of two parts is the first of the whole. -/
theorem IsFirst.combine {start k : Number} {a b : List Double} (hm : IsFirst r (start.val :: a) m)
    (hn : IsFirst r (start.val :: b) n) (hk : IsFirst r (start.val :: [m.val, n.val]) k) :
    IsFirst r (start.val :: (a ++ b)) k where
  mem := by
    have hmem := hk.mem
    have hmemA := hm.mem
    have hmemB := hn.mem
    simp only [List.mem_cons, List.mem_append, List.not_mem_nil, or_false] at hmem hmemA hmemB ⊢
    rcases hmem with hstart | hpart | hpart
    · exact .inl hstart
    · exact hpart ▸ hmemA.imp_right .inl
    · exact hpart ▸ hmemB.imp_right .inr
  first x hx := by
    have hkm : r k m := hk.first m (by simp)
    have hkn : r k n := hk.first n (by simp)
    rw [List.mem_cons, List.mem_append] at hx
    rcases hx with hx | hx | hx
    · exact hk.first x (hx ▸ List.mem_cons_self)
    · exact trans_of r hkm (hm.first x (List.mem_cons_of_mem _ hx))
    · exact trans_of r hkn (hn.first x (List.mem_cons_of_mem _ hx))

namespace Searches

variable {pick : Number → Number → Number} {search : Double → List Double → Double}

theorem eq_nan_iff (h : Searches pick search) (bound : Number) (l : List Double) :
    search bound.val l = Double.nan ↔ Double.nan ∈ l := by
  induction l generalizing bound with
  | nil => simpa [h.nil] using bound.val_ne
  | cons x rest ih =>
    by_cases hx : x = Double.nan
    · rw [hx, h.nan, iff_true_right List.mem_cons_self]
    · rw [h.cons bound ⟨x, hx⟩, ih, List.mem_cons, or_iff_right (Ne.symm hx)]

/-- What the search keeps is the first of all numbers that it has seen. -/
theorem exists_isFirst (h : Searches pick search)
    (hpick : ∀ x y : Number, IsFirst r [x.val, y.val] (pick x y)) (bound : Number)
    (hl : Double.nan ∉ l) :
    ∃ m : Number, search bound.val l = m.val ∧ IsFirst r (bound.val :: l) m := by
  induction l generalizing bound with
  | nil =>
    refine ⟨bound, h.nil _, List.mem_singleton_self _, fun x hx => ?_⟩
    rw [Number.ext (List.mem_singleton.1 hx)]
    exact refl_of r bound
  | cons x rest ih =>
    rw [List.mem_cons, not_or] at hl
    obtain ⟨m, hsearch, hfirst⟩ := ih (pick bound ⟨x, Ne.symm hl.1⟩) hl.2
    exact ⟨m, (h.cons bound _ rest).trans hsearch, (hpick bound _).cons_cons hfirst⟩

theorem findsFirst (h : Searches pick search)
    (hpick : ∀ x y : Number, IsFirst r [x.val, y.val] (pick x y)) (start : Number)
    (hstart : ∀ x, r x start) : FindsFirst r start.val (search start.val) where
  nil := h.nil _
  nan_iff := h.eq_nan_iff start
  first l hne hl := by
    obtain ⟨m, hsearch, hfirst⟩ := h.exists_isFirst hpick start hl
    refine ⟨m, hsearch, ?_, fun x hx => hfirst.first x (List.mem_cons_of_mem _ hx)⟩
    rcases List.mem_cons.1 hfirst.mem with hm | hm
    · -- then all numbers of the list are the start
      obtain ⟨x, hx⟩ := List.exists_mem_of_ne_nil l hne
      have hxm : r m ⟨x, ne_of_mem_of_not_mem hx hl⟩ := hfirst.first _ (List.mem_cons_of_mem _ hx)
      rw [Number.ext hm] at hxm ⊢
      exact antisymm_of r hxm (hstart _) ▸ hx
    · exact hm
  perm a b hab := by
    by_cases hnan : Double.nan ∈ a
    · rw [(h.eq_nan_iff start a).2 hnan, (h.eq_nan_iff start b).2 (hab.mem_iff.1 hnan)]
    · obtain ⟨m, ha, hm⟩ := h.exists_isFirst hpick start hnan
      obtain ⟨n, hb, hn⟩ := h.exists_isFirst hpick start (mt hab.mem_iff.2 hnan)
      have hsame : IsFirst r (start.val :: a) n :=
        ⟨(hab.cons _).mem_iff.2 hn.mem, fun x hx => hn.first x ((hab.cons _).mem_iff.1 hx)⟩
      rw [ha, hb, hm.unique hsame]
  append a b := by
    by_cases hnan : Double.nan ∈ a ++ b
    · rw [(h.eq_nan_iff start _).2 hnan, eq_comm, h.eq_nan_iff]
      rcases List.mem_append.1 hnan with ha | hb
      · rw [(h.eq_nan_iff start a).2 ha]
        exact List.mem_cons_self
      · rw [(h.eq_nan_iff start b).2 hb]
        exact List.mem_cons_of_mem _ List.mem_cons_self
    · obtain ⟨hnanA, hnanB⟩ := not_or.1 (mt List.mem_append.2 hnan)
      obtain ⟨p, hp, hwhole⟩ := h.exists_isFirst hpick start hnan
      obtain ⟨m, ha, hm⟩ := h.exists_isFirst hpick start hnanA
      obtain ⟨n, hb, hn⟩ := h.exists_isFirst hpick start hnanB
      have hnanParts : Double.nan ∉ [m.val, n.val] := by simp [m.val_ne.symm, n.val_ne.symm]
      obtain ⟨k, hk, hparts⟩ := h.exists_isFirst hpick start hnanParts
      rw [hp, ha, hb, hk, hwhole.unique (hm.combine hn hparts)]

end Searches

end

/-! ## The result -/

/-- **The two searches do not depend on the order of a list**, for all lists of doubles. Each gives
the value that is not a number if that is in the list, and the least or the greatest number of the
list otherwise, in the only order that extends the sizes to negative zero and zero; of an empty list
it gives the infinity that is after or before everything. -/
theorem findsFirst_least_greatest :
    (∀ r, OrdersNumbers r ↔ r = (· ≤ ·)) ∧
    FindsFirst (· ≤ ·) (infinite false) (least (infinite false)) ∧
    FindsFirst (· ≥ ·) (infinite true) (greatest (infinite true)) := by
  have hmin (x y : Number) : IsFirst (· ≤ ·) [x.val, y.val] (min x y) :=
    isFirst_pair (min_choice x y) (min_le_left x y) (min_le_right x y)
  have hmax (x y : Number) : IsFirst (· ≥ ·) [x.val, y.val] (max x y) :=
    isFirst_pair (max_choice x y) (le_max_left x y) (le_max_right x y)
  exact ⟨fun _ => ordersNumbers_iff, searches_least.findsFirst hmin ⊤ fun _ => le_top,
    searches_greatest.findsFirst hmax ⊥ fun _ => bot_le⟩

/-- Both zeros beside the infinities, in two orders and in parts, and a list in which a value that
is not a number comes after the least number. -/
theorem findsFirst_least_greatest_zeros :
    let l := [zero, infinite false, negZero, infinite false]
    (l ≠ [] ∧ nan ∉ l) ∧
      (∃ m : Number, least (infinite false) l = m.val ∧ IsFirst (· ≤ ·) l m) ∧
      least (infinite false) l = negZero ∧ least (infinite false) l.reverse = negZero ∧
      greatest (infinite true) (l.map neg) = zero ∧
      greatest (infinite true) (l.map neg).reverse = zero ∧
      least (infinite false) [least (infinite false) [zero, infinite false],
        least (infinite false) [negZero, infinite false]] = negZero ∧
      (nan ∈ [infinite true, nan] ∧ least (infinite false) [infinite true, nan] = nan) := by
  intro l
  obtain ⟨-, hleast, hgreatest⟩ := findsFirst_least_greatest
  have hl : l ≠ [] ∧ nan ∉ l := by decide
  have hfirst : least (infinite false) l = negZero := by decide
  have hlast : greatest (infinite true) (l.map neg) = zero := by decide
  have hnan : nan ∈ [infinite true, nan] := by decide
  exact ⟨hl, hleast.first l hl.1 hl.2, hfirst,
    (hleast.perm _ _ (List.reverse_perm l)).trans hfirst, hlast,
    (hgreatest.perm _ _ (List.reverse_perm _)).trans hlast,
    (hleast.append [zero, infinite false] [negZero, infinite false]).symm.trans hfirst,
    hnan, (hleast.nan_iff _).2 hnan⟩

end Number
end Double
end TierCheck
