import TierCheck.Number.Format
/-!
# Double precision numbers

`Double` is the 64-bit binary format as data: a sign with the ordinal of a magnitude, an infinity,
or the one value that is not a number. Arithmetic computes the exact result and rounds it once, so
every operation is correctly rounded by construction. Two doubles are equal as values of the type
exactly when their bits agree, all values that are not a number being one; `Double.eqv` is the
numeric comparison, in which the two zeros are equal and nothing equals a value that is not a
number.
-/

namespace TierCheck

inductive Double where
  /-- The value that is not a number. -/
  | nan
  /-- One of the infinities. -/
  | infinite (negative : Bool)
  /-- A finite number: its sign and the ordinal of its magnitude. -/
  | finite (negative : Bool) (ordinal : Fin Format.binary64.overflow)
deriving DecidableEq, Repr

namespace Double

/-- The number with this sign and this ordinal, infinite when the ordinal is past the finite
ones. -/
def ofOrdinal (negative : Bool) (ordinal : Nat) : Double :=
  if h : ordinal < Format.binary64.overflow then finite negative ⟨ordinal, h⟩
  else infinite negative

/-- The number nearest to `± num / den * 2 ^ shift`. -/
def round (negative : Bool) (num den : Nat) (shift : Int) : Double :=
  ofOrdinal negative (Format.binary64.nearest num den shift)

def zero : Double := ofOrdinal false 0

def negZero : Double := ofOrdinal true 0

instance : Inhabited Double := ⟨zero⟩

def ofNat (n : Nat) : Double := round false n 1 0

/-- The number nearest to an integer; zero is positive. -/
def ofInt : Int → Double
  | .ofNat n => ofNat n
  | .negSucc n => round true (n + 1) 1 0

def ofRatio (num : Int) (den : Nat) : Double := round (decide (num < 0)) num.natAbs den 0

def one : Double := ofNat 1

/-! ### Bits -/

/-- The 64-bit pattern: the sign above the ordinal. The pattern given for the value that is not a
number is one of many. -/
def toBits : Double → Nat
  | nan => Format.binary64.overflow + wordLimit 51
  | infinite negative => negative.toNat * wordLimit 63 + Format.binary64.overflow
  | finite negative ordinal => negative.toNat * wordLimit 63 + ordinal.val

def ofBits (bits : Nat) : Double :=
  if Format.binary64.overflow < bits % wordLimit 63 then nan
  else ofOrdinal (wordLimit 63 ≤ bits % wordLimit 64) (bits % wordLimit 63)

/-! ### Classes and order -/

def isNaN : Double → Bool
  | nan => true
  | _ => false

def isInfinite : Double → Bool
  | infinite _ => true
  | _ => false

def isFinite : Double → Bool
  | finite _ _ => true
  | _ => false

/-- Whether the sign is negative, as it is for negative zero. -/
def isNegative : Double → Bool
  | nan => false
  | infinite negative => negative
  | finite negative _ => negative

/-- The place of a number in the numeric order: the ordinal of its magnitude with its sign. The
two zeros share the place `0`, and a value that is not a number has none. -/
def rank? : Double → Option Int
  | nan => none
  | infinite negative =>
    some (if negative then -(Format.binary64.overflow : Int) else Format.binary64.overflow)
  | finite negative ordinal => some (if negative then -(ordinal.val : Int) else ordinal.val)

/-- Whether two places are known and stand in the relation `r`. -/
def compareRanks (r : Int → Int → Bool) (a b : Double) : Bool :=
  match a.rank?, b.rank? with
  | some x, some y => r x y
  | _, _ => false

/-- Numeric equality: the zeros are equal, and a value that is not a number equals nothing. -/
def eqv (a b : Double) : Bool := compareRanks (fun x y => x == y) a b

instance : LT Double := ⟨fun a b => compareRanks (fun x y => decide (x < y)) a b = true⟩

instance : LE Double := ⟨fun a b => compareRanks (fun x y => decide (x ≤ y)) a b = true⟩

instance (a b : Double) : Decidable (a < b) :=
  inferInstanceAs (Decidable (compareRanks (fun x y => decide (x < y)) a b = true))

instance (a b : Double) : Decidable (a ≤ b) :=
  inferInstanceAs (Decidable (compareRanks (fun x y => decide (x ≤ y)) a b = true))

def isZero (a : Double) : Bool := a.eqv zero

/-- The greater of two numbers; a value that is not a number gives way to the other. -/
def greater (a b : Double) : Double :=
  if a.isNaN then b else if a < b then b else a

/-! ### Arithmetic -/

def neg : Double → Double
  | nan => nan
  | infinite negative => infinite (!negative)
  | finite negative ordinal => finite (!negative) ordinal

def abs : Double → Double
  | nan => nan
  | infinite _ => infinite false
  | finite _ ordinal => finite false ordinal

/-- The integer `± n`. -/
def signed (negative : Bool) (n : Nat) : Int := if negative then -(n : Int) else n

/-- The sum of two finite numbers given by sign, significand and exponent: both are brought to
the lesser exponent, so the sum there is exact. A sum of zero is negative only if both terms
are. -/
def addFinite (s : Bool) (m : Nat) (e : Int) (t : Bool) (n : Nat) (d : Int) : Double :=
  let low := min e d
  let total := signed s (m <<< (e - low).toNat) + signed t (n <<< (d - low).toNat)
  if total = 0 then ofOrdinal (s && t) 0
  else round (decide (total < 0)) total.natAbs 1 low

/-- The correctly rounded sum. -/
def add : Double → Double → Double
  | nan, _ => nan
  | _, nan => nan
  | infinite s, infinite t => if s = t then infinite s else nan
  | infinite s, finite _ _ => infinite s
  | finite _ _, infinite t => infinite t
  | finite s x, finite t y =>
    let f := Format.binary64
    addFinite s (f.significand x) (f.exponent x) t (f.significand y) (f.exponent y)

def mul : Double → Double → Double
  | nan, _ => nan
  | _, nan => nan
  | infinite s, infinite t => infinite (s != t)
  | infinite s, finite t y => if y.val = 0 then nan else infinite (s != t)
  | finite s x, infinite t => if x.val = 0 then nan else infinite (s != t)
  | finite s x, finite t y =>
    let f := Format.binary64
    round (s != t) (f.significand x * f.significand y) 1 (f.exponent x + f.exponent y)

def div : Double → Double → Double
  | nan, _ => nan
  | _, nan => nan
  | infinite _, infinite _ => nan
  | infinite s, finite t _ => infinite (s != t)
  | finite s _, infinite t => ofOrdinal (s != t) 0
  | finite s x, finite t y =>
    let f := Format.binary64
    if y.val = 0 then (if x.val = 0 then nan else infinite (s != t))
    else round (s != t) (f.significand x) (f.significand y) (f.exponent x - f.exponent y)

instance : Neg Double := ⟨neg⟩
instance : Add Double := ⟨add⟩
instance : Sub Double := ⟨fun a b => add a (neg b)⟩
instance : Mul Double := ⟨mul⟩
instance : Div Double := ⟨div⟩

/-- The sum of the numbers from left to right. It starts at negative zero, the one start that
changes no sum; so that is the sum of no numbers. -/
def sum (l : List Double) : Double := l.foldl (· + ·) negZero

/-! ### Conversions -/

/-- The integer part of a finite number, cut toward zero, and `none` for the others. -/
def truncate? : Double → Option Int
  | finite negative ordinal =>
    let f := Format.binary64
    let scaled := scaleRatio (f.significand ordinal) 1 (f.exponent ordinal)
    some (signed negative (scaled.1 / scaled.2))
  | _ => none

/-- The integer in `low … high` that the number becomes when it is cut toward zero and held in
that range. A value that is not a number becomes zero. -/
def clampToInt (low high : Int) (a : Double) : Int :=
  match a with
  | nan => 0
  | infinite negative => if negative then low else high
  | a => max low (min high (a.truncate?.getD 0))

/-- The number held in the range of 64-bit signed integers. -/
def toInt64 (a : Double) : Int := a.clampToInt (-(wordLimit 63 : Int)) (wordLimit 63 - 1)

/-- The number held in the range of 64-bit unsigned integers. -/
def toNat64 (a : Double) : Nat := (a.clampToInt 0 (wordLimit 64 - 1)).toNat

/-- The number after a stay in the 32-bit format: rounded there, and back exactly. -/
def toSingle : Double → Double
  | finite negative ordinal =>
    let wide := Format.binary64
    let narrow := Format.binary32
    let rounded := narrow.nearest (wide.significand ordinal) 1 (wide.exponent ordinal)
    if rounded < narrow.overflow then
      round negative (narrow.significand rounded) 1 (narrow.exponent rounded)
    else infinite negative
  | a => a

end Double

/-! ## Integer parts and remainders -/

namespace Double

def truncate : Double → Double
  | finite negative ordinal =>
    let f := Format.binary64
    let scaled := scaleRatio (f.significand ordinal) 1 (f.exponent ordinal)
    round negative (scaled.1 / scaled.2) 1 0
  | a => a

def floor (a : Double) : Double :=
  if a < a.truncate then a.truncate - one else a.truncate

/-- What is left of the first number by a division that is cut toward zero. Both are brought to the
lesser exponent. -/
def remainder : Double → Double → Double
  | nan, _ => nan
  | _, nan => nan
  | infinite _, _ => nan
  | finite s x, infinite _ => finite s x
  | finite s x, finite _ y =>
    let f := Format.binary64
    let low := min (f.exponent x) (f.exponent y)
    if y.val = 0 then nan
    else
      round s ((f.significand x <<< (f.exponent x - low).toNat) %
        (f.significand y <<< (f.exponent y - low).toNat)) 1 low

instance : Mod Double := ⟨remainder⟩

end Double

end TierCheck
