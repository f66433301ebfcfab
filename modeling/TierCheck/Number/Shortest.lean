import TierCheck.Number.Decimal
/-!
# The shortest decimal numeral of a number

Many decimal numerals read back as the same double: all that lie between the two halfway points to
its neighbours. `Shortest` picks the one with the fewest digits, and among those the nearest.

The search runs over grids of multiples of a power of ten, from coarse to fine. The first grid
with a point inside the interval gives the answer, because a numeral with fewer digits would be a
point of a coarser grid. On each grid only the two neighbours of the number itself matter: if any
point of the grid lies in the interval, one of these does. The finest grid, on which the number
itself is a point, ends the search.

* `Double.shortest`: the chosen numeral of a finite number without its sign.
* `Double.text`: what a runtime under test prints for the number.
-/

namespace TierCheck

/-- A positive number with the interval of those that round to it, all as multiples of one unit
`4 ^ (-1) * 10 ^ (-places)`. -/
structure RoundingInterval where
  /-- The number of decimal places below the units place. -/
  places : Nat
  /-- The lower end. -/
  low : Nat
  /-- The number. -/
  value : Nat
  /-- The upper end. -/
  high : Nat
  /-- Whether the ends themselves round to the number. -/
  closed : Bool
deriving Repr

namespace RoundingInterval

/-- The interval of the magnitude at a positive ordinal. The neighbour below is half as far away
as the one above where the significand is least in its run. The number of places is that of the
unit in the last place, so that everything is a whole number. -/
def ofOrdinal (ordinal : Nat) : RoundingInterval :=
  let f := Format.binary64
  let significand := f.significand ordinal
  let exponent := f.exponent ordinal
  let below := if significand = Nat.pow 2 f.fractionBits ∧ f.leastExponent < exponent then 1 else 2
  let places := (-exponent).toNat
  -- 2 ^ exponent * 10 ^ places is 2 ^ exponent above the units place, and 5 ^ places below it
  let unit := if exponent < 0 then Nat.pow 5 places else Nat.pow 2 exponent.toNat
  { places
    low := (4 * significand - below) * unit
    value := 4 * significand * unit
    high := (4 * significand + 2) * unit
    closed := significand % 2 = 0 }

/-- Whether a multiple of the unit rounds to the number. -/
def contains (i : RoundingInterval) (x : Nat) : Bool :=
  if i.closed then decide (i.low ≤ x ∧ x ≤ i.high) else decide (i.low < x ∧ x < i.high)

/-- The point in the interval on the grid of multiples of `step` that is nearest to the number,
counted in steps; of two equally near ones the greater. -/
def pointOn? (i : RoundingInterval) (step : Nat) : Option Nat :=
  let lower := i.value / step
  let upper := lower + 1
  match i.contains (lower * step), i.contains (upper * step) with
  | true, true =>
    some (if i.value - lower * step < upper * step - i.value then lower else upper)
  | true, false => some lower
  | false, true => some upper
  | false, false => none

/-- The first hit on the grids of `10 ^ n`, `10 ^ (n - 1)`, … down to `1` last places. -/
def search (i : RoundingInterval) : Nat → Decimal
  | 0 => ⟨i.value / 4, -(i.places : Int)⟩
  | n + 1 =>
    match i.pointOn? (4 * Nat.pow 10 (n + 1)) with
    | some point => ⟨point, (n + 1 : Nat) - (i.places : Int)⟩
    | none => i.search n

/-- The shortest numeral in the interval. The search starts at a grid whose least positive point
lies above the interval: three binary digits make less than one decimal digit. -/
def shortest (i : RoundingInterval) : Decimal := i.search (i.value.log2 / 3 + 1)

end RoundingInterval

namespace Double

/-- The shortest decimal numeral of the magnitude at an ordinal. -/
def shortest (ordinal : Nat) : Decimal :=
  if ordinal = 0 then ⟨0, 0⟩ else (RoundingInterval.ofOrdinal ordinal).shortest

/-- The text of a number: the shortest numeral, written positionally, and the names of the special
values. Negative zero keeps its sign. -/
def text : Double → String
  | nan => "NaN"
  | infinite negative => if negative then "-Infinity" else "Infinity"
  | finite negative ordinal =>
    (if negative then "-" else "") ++ (shortest ordinal.val).positional

end Double

end TierCheck
