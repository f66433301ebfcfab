import TierCheck.Number.Double
/-!
# Decimal numerals

A `Decimal` is a natural number times a power of ten. It has one written form here, the positional
one, and is read from the wider grammar of numerals with an optional point and exponent.

* `Decimal.positional`: all digits written out, never an exponent, and a point only if needed.
* `Decimal.read?`: digits with an optional point, at least one digit, then an optional exponent.
* `Double.read?`: an optional sign, then a numeral or the name of a special value; the numeral is
  rounded once, so reading is correctly rounded however many digits there are.
* `readNatural?`: digits with an optional plus sign, below a limit.
-/

namespace TierCheck

/-- The number `coefficient * 10 ^ exponent`. -/
structure Decimal where
  /-- The digits, as a number. -/
  coefficient : Nat
  /-- The power of ten of the last digit. -/
  exponent : Int
deriving DecidableEq, Repr

def digit? (c : Char) : Option Nat :=
  if '0' ≤ c ∧ c ≤ '9' then some (c.toNat - '0'.toNat) else none

/-- The value of a text of ASCII decimal digits, `none` if another character occurs. The empty
text has the value zero. -/
def readDigits? (s : List Char) : Option Nat :=
  s.foldlM (fun value c => (digit? c).map (10 * value + ·)) 0

def naturalText (n : Nat) : String := String.ofList (Nat.toDigits 10 n)

/-- The natural number below `limit` that the text holds: digits, at least one, after an optional
plus sign. -/
def readNatural? (limit : Nat) (s : List Char) : Option Nat :=
  let digits := if s.head? = some '+' then s.tail else s
  if digits = [] then none else (readDigits? digits).filter (· < limit)

namespace Decimal

/-- All digits from the first to the last, with zeros down to the units place and a point where
the exponent calls for one. -/
def positional (d : Decimal) : String :=
  let digits := Nat.toDigits 10 d.coefficient
  match d.exponent with
  | .ofNat zeros => String.ofList (digits ++ List.replicate zeros '0')
  | .negSucc k =>
    let places := k + 1
    let padded := List.replicate (places + 1 - digits.length) '0' ++ digits
    let whole := padded.length - places
    String.ofList (padded.take whole ++ '.' :: padded.drop whole)

/-- The exponent of a numeral: an optional sign, then at least one digit. -/
def readExponent? (s : List Char) : Option Int :=
  match s with
  | '-' :: digits => if digits = [] then none else (readDigits? digits).map fun n => -(n : Int)
  | '+' :: digits => if digits = [] then none else (readDigits? digits).map fun n => (n : Int)
  | digits => if digits = [] then none else (readDigits? digits).map fun n => (n : Int)

/-- The digits before and after the point, of which there is at least one. -/
def readSignificand? (s : List Char) : Option Decimal :=
  let whole := s.takeWhile (· != '.')
  let fraction := (s.dropWhile (· != '.')).drop 1
  if whole = [] ∧ fraction = [] then none
  else (readDigits? (whole ++ fraction)).map fun n => ⟨n, -(fraction.length : Int)⟩

/-- An unsigned numeral: a significand, then optionally `e` or `E` with an exponent. -/
def read? (s : List Char) : Option Decimal :=
  let isMark : Char → Bool := fun c => c = 'e' || c = 'E'
  let significand := s.takeWhile fun c => !isMark c
  match s.dropWhile fun c => !isMark c with
  | [] => readSignificand? significand
  | _ :: exponent => do
    let d ← readSignificand? significand
    let e ← readExponent? exponent
    return ⟨d.coefficient, d.exponent + e⟩

end Decimal

namespace Double

/-- The number nearest to a decimal numeral with a sign. Above `10 ^ 400` everything is infinite
and below `10 ^ (-400)` everything is zero, so powers of ten beyond those are not computed. -/
def ofDecimal (negative : Bool) (d : Decimal) : Double :=
  if d.coefficient = 0 then ofOrdinal negative 0
  else if 400 < d.exponent then infinite negative
  else if d.exponent < -400 - (d.coefficient.log2 : Int) then ofOrdinal negative 0
  else match d.exponent with
    | .ofNat e => round negative (d.coefficient * Nat.pow 10 e) 1 0
    | .negSucc e => round negative d.coefficient (Nat.pow 10 (e + 1)) 0

/-- A number without its sign: a numeral, or the name of a special value in any letter case. -/
def readUnsigned? (negative : Bool) (s : List Char) : Option Double :=
  let name := String.ofList (s.map Char.toLower)
  if name = "inf" ∨ name = "infinity" then some (infinite negative)
  else if name = "nan" then some nan
  else (Decimal.read? s).map (ofDecimal negative)

/-- An optional sign, then a numeral or the name of a special value. -/
def read? (s : List Char) : Option Double :=
  match s with
  | '-' :: r => readUnsigned? true r
  | '+' :: r => readUnsigned? false r
  | r => readUnsigned? false r

end Double

end TierCheck
