import Mathlib.Data.List.Basic
import TierCheck.Catalog.Vectors

/-!
# The functions of array operations as programs

The function of an array operation stores numbers into a new array and then reads one result off
it. Here such a function is a list of steps and an answer. It has a text, which is the source of
the function, and a meaning, which is what a runtime has to do: a store converts the number for the
type of the array, a fill keeps within the array, and loops go from left to right.

* `Operand`, `Quantity`, `Position`: what a function writes for numbers and indices.
* `Store`, `Step`, `Answer`: the phrases, each with its text and its meaning.
* `ArrayProgram.source`, `ArrayProgram.run`: the text and the meaning of a whole function.
* `ArrayOperation.program`: the operations as programs, with the sources that they have.
-/
namespace TierCheck.Plan

structure ArrayCall where
  element : Element
  length : Nat
  given : Double

/-! ## Numbers and indices -/

/-- A number without an operator. -/
inductive Operand where
  | literal (x : Double)
  /-- The length of the array. -/
  | length
  /-- The counter of the loop around. -/
  | place
  /-- The number that is handed over. -/
  | given

/-- A number, with at most one operator. -/
inductive Quantity where
  | plus (a b : Operand)
  | minus (a b : Operand)

inductive Position where
  | fromStart (k : Nat)
  | fromEnd (k : Nat)
  /-- The length shifted by one bit. -/
  | middle

namespace Operand

def text : Operand → String
  | literal x => x.text
  | length => "n"
  | place => "i"
  | given => "v"

/-- The number in a round of a loop. -/
def value (call : ArrayCall) (round : Nat) : Operand → Double
  | literal x => x
  | length => Double.ofNat call.length
  | place => Double.ofNat round
  | given => call.given

end Operand

namespace Quantity

def text : Quantity → String
  | plus a b => a.text ++ " + " ++ b.text
  | minus a b => a.text ++ " - " ++ b.text

def value (call : ArrayCall) (round : Nat) : Quantity → Double
  | plus a b => a.value call round + b.value call round
  | minus a b => a.value call round - b.value call round

end Quantity

namespace Position

def text : Position → String
  | fromStart k => naturalText k
  | fromEnd k => "n - " ++ naturalText k
  | middle => "n >> 1"

/-- The index in an array of `n` elements. It is negative where that is shorter than the distance
from the end. The operand of a shift is taken for a signed word of 32 bits, so from `2 ^ 31` on the
middle is another place, or a negative one. -/
def index (n : Nat) : Position → Int
  | fromStart k => k
  | fromEnd k => n - k
  | middle => signedWord 32 n / 2

end Position

/-! ## Stores -/

/-- The bound of a range that an index stands for: a negative one counts from the end, and none is
outside the array. -/
def rangeBound (n : Nat) (index : Int) : Nat :=
  if index < 0 then (n + index).toNat else min index.toNat n

/-- The elements after one number is stored into a range of them. -/
def fillRange (x : Double) (start stop : Nat) (elements : List Double) : List Double :=
  elements.mapIdx fun i old => if start ≤ i ∧ i < stop then x else old

/-- The elements after a number is stored at an index. Nothing happens outside the array. -/
def storeAt (index : Int) (x : Double) (elements : List Double) : List Double :=
  if index < 0 then elements else elements.set index.toNat x

/-- A phrase that changes the elements of an array. -/
inductive Store where
  | fill (x : Operand)
  | fillBetween (x : Operand) (start stop : Position)
  | put (place : Position) (x : Operand)
  /-- A loop that stores a number into every element. -/
  | each (x : Quantity)

namespace Store

def code (array : String) : Store → Code
  | fill x => [array ++ ".fill(" ++ x.text ++ ");"]
  | fillBetween x start stop =>
    [array ++ ".fill(" ++ x.text ++ ", " ++ start.text ++ ", " ++ stop.text ++ ");"]
  | put place x => [array ++ "[" ++ place.text ++ "] = " ++ x.text ++ ";"]
  | each x => loop "i" "n" [array ++ "[i] = " ++ x.text ++ ";"]

def run (call : ArrayCall) (elements : List Double) : Store → List Double
  | fill x => fillRange (call.element.coerce (x.value call 0)) 0 elements.length elements
  | fillBetween x start stop =>
    fillRange (call.element.coerce (x.value call 0))
      (rangeBound elements.length (start.index call.length))
      (rangeBound elements.length (stop.index call.length)) elements
  | put place x =>
    storeAt (place.index call.length) (call.element.coerce (x.value call 0)) elements
  | each x =>
    (List.range call.length).foldl
      (fun stored i => stored.set i (call.element.coerce (x.value call i))) elements

end Store

/-- A store, or several under the condition that the array is longer than a bound. -/
inductive Step where
  | always (store : Store)
  | whenLonger (bound : Nat) (stores : List Store)

namespace Step

def code (array : String) : Step → Code
  | always store => store.code array
  | whenLonger bound stores =>
    Code.block ("if (n > " ++ naturalText bound ++ ")") (stores.flatMap (·.code array))

def run (call : ArrayCall) (elements : List Double) : Step → List Double
  | always store => store.run call elements
  | whenLonger bound stores =>
    if bound < call.length then stores.foldl (fun stored store => store.run call stored) elements
    else elements

end Step

/-! ## Answers -/

/-- The element at a place, which is not a number outside the array. -/
def elementAt (elements : List Double) (i : Nat) : Double := elements.getD i .nan

/-- The place of the first element that equals the number, and `-1` if there is none. -/
def placeOf (x : Double) (elements : List Double) : Int :=
  match elements.findIdx? (·.eqv x) with
  | some i => i
  | none => -1

/-- Whether an element is the number. Here a value that is not a number is found too. -/
def contains (x : Double) (elements : List Double) : Bool :=
  elements.any fun y => y.eqv x || (y.isNaN && x.isNaN)

/-- The elements after all of another array of the type are stored from a place on. -/
def copyFrom (e : Element) (start : Nat) (copied elements : List Double) : List Double :=
  elements.take start ++ copied.map e.coerce ++ elements.drop (start + copied.length)

/-- The best of the elements and a bound. The sign of a zero shows in its inverse. -/
def search (better : Double → Double → Bool) (bound : Double) : List Double → Double
  | [] => bound
  | x :: rest =>
    if !x.eqv x then .nan
    else if better x bound ||
        (x.eqv Double.zero && bound.eqv Double.zero &&
          better (Double.one / x) (Double.one / bound)) then
      search better x rest
    else search better bound rest

/-- The phrases that read the result off the array and return it. -/
inductive Answer where
  | sum (start : Double)
  | indexOf (x : Operand)
  | includes (x : Operand)
  /-- The elements are copied behind the first one of a longer array. The sum of that array is
  weighted by the places, counted from one. -/
  | weightedCopy
  /-- The sum by a function that adds an element to what is there. -/
  | reduce (start : Double)
  | least
  | greatest

namespace Answer

def searchCode (array : String) (bound : Double) (comparison : String) : Code :=
  ["var m = " ++ bound.text ++ ";"] ++
  loop "j" "n"
    ["var x = " ++ array ++ "[j];",
      "if (x !== x) return NaN;",
      "if (x " ++ comparison ++ " m || (x === 0 && m === 0 && 1 / x " ++ comparison ++
        " 1 / m)) m = x;"] ++
  ["return m;"]

def code (array : String) : Answer → Code
  | sum start =>
    ["var s = " ++ start.text ++ ";"] ++ loop "i" "n" ["s += " ++ array ++ "[i];"] ++
      ["return s;"]
  | indexOf x => ["return " ++ array ++ ".indexOf(" ++ x.text ++ ");"]
  | includes x => ["return " ++ array ++ ".includes(" ++ x.text ++ ");"]
  | weightedCopy =>
    ["var dst = new C(n + 1);", "dst.set(" ++ array ++ ", 1);", "var s = 0;"] ++
      loop "j" "dst.length" ["s += dst[j] * (j + 1);"] ++ ["return s;"]
  | reduce start =>
    ["return " ++ array ++ ".reduce(function (acc, x) \x7b", "  return acc + x;",
      "\x7d, " ++ start.text ++ ");"]
  | least => searchCode array (.infinite false) "<"
  | greatest => searchCode array (.infinite true) ">"

/-- The elements that a loop over the first `n` places reads. -/
def readings (n : Nat) (elements : List Double) : List Double :=
  (List.range n).map (elementAt elements)

/-- The result for the elements. -/
def value (call : ArrayCall) (elements : List Double) : Answer → Value
  | sum start => .number ((readings call.length elements).foldl (· + ·) start)
  | indexOf x => .ofInt (placeOf (x.value call 0) elements)
  | includes x => .boolean (contains (x.value call 0) elements)
  | weightedCopy =>
    let copy := copyFrom call.element 1 elements (List.replicate (call.length + 1) Double.zero)
    .number <| (List.range copy.length).foldl
      (fun s j => s + elementAt copy j * (Double.ofNat j + Double.one)) Double.zero
  | reduce start => .number (elements.foldl (· + ·) start)
  | least =>
    .number (search (fun x y => x < y) (.infinite false) (readings call.length elements))
  | greatest =>
    .number (search (fun x y => y < x) (.infinite true) (readings call.length elements))

end Answer

/-! ## Programs -/

/-- A function that makes an array of zeros, takes steps that change it, and answers. -/
structure ArrayProgram where
  /-- The name of the array. -/
  array : String := "a"
  steps : List Step
  answer : Answer

namespace ArrayProgram

def source (program : ArrayProgram) (function : String) : Code :=
  Code.block ("function " ++ function ++ "(C, n, v)") <|
    ["var " ++ program.array ++ " = new C(n);"] ++
      program.steps.flatMap (·.code program.array) ++ program.answer.code program.array

def elements (program : ArrayProgram) (call : ArrayCall) : List Double :=
  program.steps.foldl (fun stored step => step.run call stored)
    (List.replicate call.length Double.zero)

def run (program : ArrayProgram) (call : ArrayCall) : Value :=
  program.answer.value call (program.elements call)

end ArrayProgram

def ArrayOperation.program : ArrayOperation → ArrayProgram
  | fill => { steps := [.always (.fill (.literal vectorFill))], answer := .sum Double.zero }
  | partialFill =>
    { steps :=
        [.always (.fill (.literal Double.zero)),
          .always (.fillBetween (.literal vectorFill) (.fromStart 1) (.fromEnd 1))]
      answer := .sum Double.zero }
  | fillNaN => { steps := [.always (.fill (.literal .nan))], answer := .sum Double.zero }
  | fillNegZero =>
    { steps := [.always (.fill (.literal Double.negZero))], answer := .sum Double.negZero }
  | fillIndexOf =>
    { steps := [.always (.fill (.literal vectorFill))], answer := .indexOf .given }
  | tailSearch =>
    { steps := [.whenLonger 0 [.put (.fromEnd 1) .given]], answer := .indexOf .given }
  | indexOfNegZero =>
    { steps :=
        [.always (.fill (.literal Double.one)),
          .whenLonger 0 [.put (.fromEnd 1) (.literal Double.negZero)]]
      answer := .indexOf (.literal Double.zero) }
  | indexOfNaN =>
    { steps := [.always (.fill (.literal .nan))], answer := .indexOf (.literal .nan) }
  | includesNaN =>
    { steps := [.always (.fill (.literal .nan))], answer := .includes (.literal .nan) }
  | copySet =>
    { array := "src"
      steps := [.always (.each (.plus .place (.literal Double.one)))]
      answer := .weightedCopy }
  | reduce =>
    { steps := [.always (.each (.plus .place (.literal (Double.ofRatio 1 2))))]
      answer := .reduce Double.zero }
  | minNegZero =>
    { steps :=
        [.always (.each (.minus .length .place)),
          .whenLonger 0
            [.put (.fromStart 0) (.literal Double.zero),
              .put (.fromEnd 1) (.literal Double.negZero)]]
      answer := .least }
  | maxNaN =>
    { steps :=
        [.always (.each (.minus .place (.literal Double.one))),
          .whenLonger 1 [.put .middle (.literal .nan)]]
      answer := .greatest }

/-- The programs have the sources of the operations. -/
theorem ArrayOperation.source_program (op : ArrayOperation) :
    op.program.source op.function = op.source := by
  cases op <;> rfl

end TierCheck.Plan
