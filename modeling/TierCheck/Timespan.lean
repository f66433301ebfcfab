import TierCheck.Number.Decimal
import TierCheck.Text.Blank
/-!
# Time spans

A time span is a whole number of nanoseconds. A number of seconds becomes the nearest one, a half
going to the even neighbour, provided that its whole seconds fit 64 bits. As text a span has the
greatest unit that leaves a whole number above zero, and exactly the decimals it needs.
-/

namespace TierCheck

structure Timespan where
  nanoseconds : Nat
deriving DecidableEq, Repr, Inhabited

namespace Timespan

def perSecond : Nat := 1000000000

def ofSeconds (seconds : Nat) : Timespan := ⟨seconds * perSecond⟩

/-- The span of a number of seconds. Negative numbers, infinities, the value that is not a number
and `2 ^ 64` seconds or more have none. -/
def ofSeconds? : Double → Option Timespan
  | .finite false ordinal =>
    let f := Format.binary64
    let (num, den) := scaleRatio (f.significand ordinal) 1 (f.exponent ordinal)
    if num / den < wordLimit 64 then some ⟨roundHalfEven (num * perSecond) den⟩ else none
  | _ => none

/-- The end of a machine's clock, which counts seconds in a signed word of 64 bits. -/
def clockEnd : Timespan := ofSeconds (wordLimit 63)

def seconds (t : Timespan) : Nat := t.nanoseconds / perSecond

/-- The nanoseconds beyond the whole seconds. -/
def subsecond (t : Timespan) : Nat := t.nanoseconds % perSecond

/-- The number `n * 10 ^ (-places)` with no more decimals than it needs. -/
def scaledText (n places : Nat) : String :=
  let rest := n % Nat.pow 10 places
  let digits := Nat.toDigits 10 rest
  let decimals := List.replicate (places - digits.length) '0' ++ digits
  naturalText (n / Nat.pow 10 places) ++
    if rest = 0 then "" else String.ofList ('.' :: dropWhileEnd (· = '0') decimals)

/-- The span in seconds, milliseconds, microseconds or nanoseconds. -/
def text (t : Timespan) : String :=
  let n := t.nanoseconds
  if 1000000000 ≤ n then scaledText n 9 ++ "s"
  else if 1000000 ≤ n then scaledText n 6 ++ "ms"
  else if 1000 ≤ n then scaledText n 3 ++ "µs"
  else scaledText n 0 ++ "ns"

end Timespan

end TierCheck
