/-!
# Number formats

Counts, lengths and places have 64 bits, and some numbers that are read have 32.

`roundHalfEven` is the one rounding rule of this library: to the nearest integer, and a half goes
to the even neighbour. Floating point results, clamped bytes and time spans all round with it.

A binary floating point format is an increasing sequence of magnitudes that starts at zero and ends
at infinity. The magnitudes are named by their place in that sequence, their *ordinal*: in the
format with `f` fraction bits the first `2 ^ f` magnitudes are the multiples of the unit
`2 ^ leastExponent`, and from there each further run of `2 ^ f` magnitudes doubles the unit. Larger
ordinals are larger magnitudes, so comparing numbers is comparing ordinals, and the ordinal is the
format's bit pattern without its sign.

* `wordLimit`, `signedWord`: numbers of a fixed number of bits.
* `roundHalfEven`: a ratio rounded to an integer.
* `Format.significand`, `Format.exponent`: the value behind an ordinal.
* `Format.nearest`: the ordinal of the magnitude nearest to a ratio, ties to even.
-/

namespace TierCheck

/-! ## Words -/

/-- The natural numbers of `bits` bits are those below this one. -/
def wordLimit (bits : Nat) : Nat := Nat.pow 2 bits

/-- The signed number of `bits` bits that is written like the natural number `n`. Numbers from half
of the limit on are written like negative ones. -/
def signedWord (bits n : Nat) : Int := (n : Int).bmod (wordLimit bits)

example : wordLimit 8 = 256 := by decide

example : signedWord 8 127 = 127 ∧ signedWord 8 128 = -128 ∧ signedWord 8 255 = -1 := by decide

/-! ## Rounding -/

/-- The integer nearest to `num / den`; a half goes to the even neighbour. -/
def roundHalfEven (num den : Nat) : Nat :=
  let quotient := num / den
  let twiceRest := 2 * (num % den)
  if twiceRest < den then quotient
  else if den < twiceRest then quotient + 1
  else quotient + quotient % 2

@[simp] theorem roundHalfEven_one (num : Nat) : roundHalfEven num 1 = num := by
  simp [roundHalfEven, Nat.mod_one]

theorem roundHalfEven_le_div_add_one (num den : Nat) :
    roundHalfEven num den ≤ num / den + 1 := by
  simp only [roundHalfEven]
  split
  · omega
  · split <;> omega

/-- The ratio `num / den * 2 ^ shift` as a pair of integers. -/
def scaleRatio (num den : Nat) (shift : Int) : Nat × Nat :=
  match shift with
  | .ofNat s => (num <<< s, den)
  | .negSucc s => (num, den <<< (s + 1))

example : roundHalfEven 5 2 = 2 := by decide
example : roundHalfEven 7 2 = 4 := by decide

/-! ## Floating point formats -/

structure Format where
  /-- The number of bits of the fraction field. -/
  fractionBits : Nat
  /-- The exponent of two of the least positive magnitude. -/
  leastExponent : Int
  /-- The ordinal of infinity; every lesser ordinal is finite. -/
  overflow : Nat
deriving DecidableEq, Repr

namespace Format

/-- The format with 53 significant bits and 64 bits in all. -/
def binary64 : Format := ⟨52, -1074, 2047 * Nat.pow 2 52⟩

/-- The format with 24 significant bits and 32 bits in all. -/
def binary32 : Format := ⟨23, -149, 255 * Nat.pow 2 23⟩

variable (f : Format)

/-- The magnitude at `ordinal` is `significand * 2 ^ exponent`. -/
def significand (ordinal : Nat) : Nat :=
  let run := Nat.pow 2 f.fractionBits
  if ordinal < run then ordinal else run + ordinal % run

/-- The exponent that goes with `Format.significand`. The first two runs share the least one. -/
def exponent (ordinal : Nat) : Int :=
  f.leastExponent + ((ordinal / Nat.pow 2 f.fractionBits - 1 : Nat) : Int)

/-- The exponent of the greatest power of two at most `num / den * 2 ^ shift`, for a positive
ratio. The bit lengths leave two candidates, and one comparison settles which. -/
def leadingExponent (num den : Nat) (shift : Int) : Int :=
  let candidate : Int := shift + (num.log2 : Int) - (den.log2 : Int)
  let scaled := scaleRatio num den (shift - candidate)
  if scaled.2 ≤ scaled.1 then candidate else candidate - 1

/-- The ordinal of the magnitude nearest to `num / den * 2 ^ shift`; of two equally near ones the
one with the even significand. An answer of at least `f.overflow` means that the ratio is too
large for the format. The carry out of the significand needs no care: it lands on the first
ordinal of the next run, which is the right magnitude. -/
def nearest (num den : Nat) (shift : Int) : Nat :=
  if num = 0 then 0
  else
    let unit := max f.leastExponent (leadingExponent num den shift - f.fractionBits)
    let scaled := scaleRatio num den (shift - unit)
    (unit - f.leastExponent).toNat * Nat.pow 2 f.fractionBits + roundHalfEven scaled.1 scaled.2

@[simp] theorem nearest_zero (den : Nat) (shift : Int) : f.nearest 0 den shift = 0 := by
  simp [nearest]

end Format

end TierCheck
