import TierCheck.Catalog.Plan
/-!
# Array operations in vector chunks

Compiled array operations work on whole vector chunks and finish the rest one element at a time.
These scenarios run operations on arrays of all element types with lengths around one chunk. The
special numbers are among the elements, since floating point and integer elements keep them
differently.

* `ArrayOperation.result`: what an operation gives, by a closed form where there is one.
* `ArrayOperation.result?`: the same where memory has room for the elements that are listed for it.
* `least`, `greatest`: the extremes of a list, in which negative zero is below positive zero and a
  value that is not a number prevails.
-/

namespace TierCheck

namespace Double

/-- The least number among `bound` and the list. -/
def least (bound : Double) : List Double → Double
  | [] => bound
  | x :: rest =>
    if x.isNaN then nan
    else if x < bound ∨ (x.isZero ∧ bound.isZero ∧ x.isNegative ∧ !bound.isNegative) then
      least x rest
    else least bound rest

/-- The greatest number among `bound` and the list. -/
def greatest (bound : Double) : List Double → Double
  | [] => bound
  | x :: rest =>
    if x.isNaN then nan
    else if bound < x ∨ (x.isZero ∧ bound.isZero ∧ !x.isNegative ∧ bound.isNegative) then
      greatest x rest
    else greatest bound rest

end Double

namespace Plan

/-- The number that arrays are filled with. The integer types drop its fraction. -/
def vectorFill : Double := Double.ofRatio 201 2

/-- The element types in the order of their scenarios. -/
def elements : List Element :=
  [.int8, .uint8, .uint8Clamped, .int16, .uint16, .int32, .uint32, .float32, .float64]

inductive ArrayOperation where
  | fill
  | partialFill
  | fillNaN
  | fillNegZero
  | fillIndexOf
  | tailSearch
  | indexOfNegZero
  | indexOfNaN
  | includesNaN
  | copySet
  | reduce
  | minNegZero
  | maxNaN
deriving DecidableEq, Repr

namespace ArrayOperation

def all : List ArrayOperation :=
  [fill, partialFill, fillNaN, fillNegZero, fillIndexOf, tailSearch, indexOfNegZero, indexOfNaN,
    includesNaN, copySet, reduce, minNegZero, maxNaN]

def name : ArrayOperation → String
  | fill => "fill"
  | partialFill => "partial-fill"
  | fillNaN => "fill-nan"
  | fillNegZero => "fill-negzero"
  | fillIndexOf => "fill-indexof"
  | tailSearch => "tail-search"
  | indexOfNegZero => "indexof-negzero"
  | indexOfNaN => "indexof-nan"
  | includesNaN => "includes-nan"
  | copySet => "copy-set"
  | reduce => "reduce"
  | minNegZero => "min-negzero"
  | maxNaN => "max-nan"

def function : ArrayOperation → String
  | fill => "vecFill"
  | partialFill => "vecPartialFill"
  | fillNaN => "vecFillNaN"
  | fillNegZero => "vecFillNegZero"
  | fillIndexOf => "vecFillIndexOf"
  | tailSearch => "vecTailSearch"
  | indexOfNegZero => "vecIndexOfNegZero"
  | indexOfNaN => "vecIndexOfNaN"
  | includesNaN => "vecIncludesNaN"
  | copySet => "vecCopySet"
  | reduce => "vecReduce"
  | minNegZero => "vecMinNegZero"
  | maxNaN => "vecMaxNaN"

def returns : ArrayOperation → ResultKind
  | fillIndexOf | tailSearch | indexOfNegZero | indexOfNaN => .integer
  | includesNaN => .boolean
  | _ => .float

/-- Whether zeros of different signs are different results. -/
def zeroSign : ArrayOperation → Bool
  | fillNegZero | minNegZero | maxNaN => true
  | _ => false

/-- The lines that add up all elements, from a start. -/
def summing (start : String) : Code :=
  ["var s = " ++ start ++ ";"] ++ loop "i" "n" ["s += a[i];"] ++ ["return s;"]

/-- The lines that look for an extreme element, from a bound, with a comparison. -/
def searching (bound comparison : String) : Code :=
  ["var m = " ++ bound ++ ";"] ++
  loop "j" "n"
    ["var x = a[j];",
      "if (x !== x) return NaN;",
      "if (x " ++ comparison ++ " m || (x === 0 && m === 0 && 1 / x " ++ comparison ++
        " 1 / m)) m = x;"] ++
  ["return m;"]

/-- The lines of the function after the one that makes the array. -/
def body : ArrayOperation → Code
  | fill => ["a.fill(" ++ vectorFill.text ++ ");"] ++ summing "0"
  | partialFill =>
    ["a.fill(0);", "a.fill(" ++ vectorFill.text ++ ", 1, n - 1);"] ++ summing "0"
  | fillNaN => ["a.fill(NaN);"] ++ summing "0"
  | fillNegZero => ["a.fill(-0);"] ++ summing "-0"
  | fillIndexOf => ["a.fill(" ++ vectorFill.text ++ ");", "return a.indexOf(v);"]
  | tailSearch => Code.block "if (n > 0)" ["a[n - 1] = v;"] ++ ["return a.indexOf(v);"]
  | indexOfNegZero =>
    ["a.fill(1);"] ++ Code.block "if (n > 0)" ["a[n - 1] = -0;"] ++ ["return a.indexOf(0);"]
  | indexOfNaN => ["a.fill(NaN);", "return a.indexOf(NaN);"]
  | includesNaN => ["a.fill(NaN);", "return a.includes(NaN);"]
  | copySet =>
    loop "i" "n" ["src[i] = i + 1;"] ++
    ["var dst = new C(n + 1);", "dst.set(src, 1);", "var s = 0;"] ++
    loop "j" "dst.length" ["s += dst[j] * (j + 1);"] ++ ["return s;"]
  | reduce =>
    loop "i" "n" ["a[i] = i + 0.5;"] ++
    ["return a.reduce(function (acc, x) \x7b", "  return acc + x;", "\x7d, 0);"]
  | minNegZero =>
    loop "i" "n" ["a[i] = n - i;"] ++
    Code.block "if (n > 0)" ["a[0] = 0;", "a[n - 1] = -0;"] ++ searching "Infinity" "<"
  | maxNaN =>
    loop "i" "n" ["a[i] = i - 1;"] ++
    Code.block "if (n > 1)" ["a[n >> 1] = NaN;"] ++ searching "-Infinity" ">"

/-- The source of the function. It takes the array's constructor, its length and the number that
filling leaves in an element. -/
def source (op : ArrayOperation) : Code :=
  Code.block ("function " ++ op.function ++ "(C, n, v)") <|
    ["var " ++ (if op = copySet then "src" else "a") ++ " = new C(n);"] ++ op.body

/-- The elements among which `minNegZero` looks for the least: `n, n - 1, …`, with the zeros at the
ends. -/
def fallingElements (n : Nat) : List Double :=
  let falling := (List.range n).map fun i => Double.ofNat (n - i)
  (falling.set 0 Double.zero).set (n - 1) Double.negZero

/-- The elements among which `maxNaN` looks for the greatest: `-1, 0, 1, …`, with no number in the
middle. -/
def risingElements (n : Nat) : List Double :=
  let rising := (List.range n).map fun i => Double.ofNat i - Double.one
  if n ≤ 1 then rising else rising.set (n / 2) .nan

/-- The place before `n`, with lengths and places held as signed words. -/
def lastPlace (n : Nat) : Int := signedWord 64 n - 1

/-- What the function gives for an array of `n` elements. -/
def result (op : ArrayOperation) (e : Element) (n : Nat) : Value :=
  let stored := e.coerce vectorFill
  match op with
  | fill => .number (stored * Double.ofNat n)
  | partialFill => .number (stored * Double.ofNat (n - 2))
  | fillNaN => .number ((List.replicate n (e.coerce .nan)).foldl (· + ·) Double.zero)
  | fillNegZero =>
    .number ((List.replicate n (e.coerce Double.negZero)).foldl (· + ·) Double.negZero)
  | fillIndexOf => .ofInt (if n = 0 then -1 else 0)
  | tailSearch => .ofInt (lastPlace n)
  | indexOfNegZero => .ofInt (lastPlace n)
  | indexOfNaN => .ofInt (-1)
  | includesNaN => .boolean (e.isFloat && n ≠ 0)
  | copySet =>
    .number <| Double.sum <| (List.range n).map fun i =>
      e.coerce (Double.ofNat i + Double.one) * (Double.ofNat i + Double.ofNat 2)
  | reduce =>
    .number <| Double.sum <| (List.range n).map fun i =>
      e.coerce (Double.ofNat i + Double.ofRatio 1 2)
  | minNegZero => .number (Double.least (.infinite false) ((fallingElements n).map e.coerce))
  | maxNaN => .number (Double.greatest (.infinite true) ((risingElements n).map e.coerce))

/-- Whether the result is looked for in a list of the elements. -/
def listsElements : ArrayOperation → Bool
  | minNegZero | maxNaN => true
  | _ => false

/-- What the function gives, if that can be found out. A list of elements, with eight bytes for
each, takes less than `2 ^ 63` bytes; whoever asks for a longer one is stopped. -/
def result? (op : ArrayOperation) (e : Element) (n : Nat) : Option Value :=
  if op.listsElements ∧ wordLimit 63 ≤ 8 * n then none else some (op.result e n)

end ArrayOperation

/-- The lengths for a number of elements per chunk, in increasing order: none, one, and those
around a whole chunk. -/
def lengths (lanes : Nat) : List Nat :=
  [0, 1] ++ [lanes - 1, lanes, lanes + 1].filter (1 < ·)

/-- One operation on arrays of one type and length. The length is handed over as a signed word, and
for one that comes out negative nothing is expected. Nor is anything for one at which the reference
would be stopped, which no plan in range comes to. -/
def vectorDraft (plan : Plan) (op : ArrayOperation) (e : Element) (n : Nat) : Draft :=
  { id := "vectorized/" ++ op.name ++ "-" ++ elementTag e ++ "-len" ++ naturalText n
    family := .vectorized
    description :=
      op.name ++ " on a " ++ naturalText n ++ "-element " ++ e.constructorName ++ " (" ++
        naturalText (e.lanes plan.chunkBytes) ++ " lanes per chunk)"
    parameters := [.typedArray e, .integer, .float]
    returns := op.returns
    zeroSign := op.zeroSign
    checkpoints := plan.schedule.checkpoints
    function := op.function
    source := op.source.joined
    argumentSets := [[.arrayType e, .ofInt (signedWord 64 n), .number (e.coerce vectorFill)]]
    reference? := some fun
      | [.arrayType e, .number n, _] =>
        if Double.zero ≤ n then (op.result? e n.toNat64).getD .undefined else .undefined
      | _ => .undefined }

def vectorDrafts (plan : Plan) : List Draft :=
  ArrayOperation.all.flatMap fun op =>
    elements.flatMap fun e =>
      (lengths (e.lanes plan.chunkBytes)).map fun n => plan.vectorDraft op e n

end Plan

end TierCheck
