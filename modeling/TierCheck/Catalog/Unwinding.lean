import TierCheck.Catalog.Plan
import TierCheck.Failure
/-!
# Calls that throw

When an exception is thrown, the frames between the throw and its handler are unwound, whatever
compiled them. These scenarios throw through loops, nested handlers and recursion, and their
results tell which handlers ran, how often and in which order.

Scenarios with a loop of their own need fewer calls, so their schedule is divided.

* `Schedule.divided`: the schedule with fewer calls, still increasing.
-/

namespace TierCheck

namespace Schedule

/-- The checkpoints with their counts divided by `divisor`, rounded up and kept above `previous`
and above one another. Their names tell that loop iterations count. -/
def divideFrom (divisor previous : Nat) : List Checkpoint → List Checkpoint
  | [] => []
  | checkpoint :: rest =>
    let iterations := max ((checkpoint.iterations + (divisor - 1)) / divisor) (previous + 1)
    ⟨"loop-" ++ checkpoint.name, iterations, 0⟩ :: divideFrom divisor iterations rest

def divided (s : Schedule) (divisor : Nat) : Except ScheduleFault Schedule :=
  ofCheckpoints (divideFrom divisor 0 s.checkpoints)

end Schedule

namespace Plan

/-- The integer that an argument is: a number cut toward zero and held in 64 bits, and zero for all
other values and for a missing one. -/
def integerAt (args : List Value) (place : Nat) : Int :=
  match args[place]? with
  | some (.number n) => n.toInt64
  | _ => 0

/-- The same, with zero for negative ones. -/
def countAt (args : List Value) (place : Nat) : Int := max 0 (integerAt args place)

/-- The draft of a scenario that throws, with one argument set. -/
def throwingDraft (name description : String) (schedule : Schedule) (parameter : ParameterKind)
    (returns : ResultKind) (function : String) (source : Code) (argument : Value)
    (reference : List Value → Value) : Draft :=
  { id := "exceptions/" ++ name
    family := .exceptions
    description
    parameters := [parameter]
    returns
    checkpoints := schedule.checkpoints
    function
    source := source.joined
    argumentSets := [[argument]]
    reference? := some reference }

/-- Counts the throws of a loop in which every third iteration throws. -/
def everyThirdThrow (schedule : Schedule) : Draft :=
  throwingDraft "every-third-throw"
    ("throw on every third iteration inside try/finally inside try/catch " ++
      "(loop-driven schedule, calls divided by 100)")
    schedule .integer .integer "everyThirdThrow"
    (Code.block "function everyThirdThrow(n)" <|
      ["var caught = 0;"] ++
      loop "i" "n"
        (Code.chain "try"
          (Code.chain "try" (Code.block "if (i % 3 === 0)" ["throw new Error(\"t\" + i);"])
            [("finally", [])])
          [("catch (e)", ["caught++;"])]) ++
      ["return caught;"])
    (.ofNat 1000)
    fun args => .ofInt ((countAt args 0 + 2) / 3)

/-- Counts how often `finally` runs when iterations fall through, continue and throw. -/
def finallyCount (schedule : Schedule) : Draft :=
  throwingDraft "finally-count"
    ("finally runs on fall-through, continue and throw alike " ++
      "(loop-driven schedule, calls divided by 10)")
    schedule .integer .integer "finallyCount"
    (Code.block "function finallyCount(n)" <|
      ["var f = 0;"] ++
      loop "i" "n"
        (Code.chain "try"
          (Code.block "if (i % 2 === 0)" ["continue;"] ++
            Code.block "if (i % 5 === 0)" ["throw i;"])
          [("catch (e)", []), ("finally", ["f++;"])]) ++
      ["return f;"])
    (.ofNat 100)
    fun args => .ofInt (countAt args 0)

/-- Spells the order of handlers: `b` before the throw, `i` in the inner `finally`, `c` with the
message in the handler, and `o` in the outer `finally`. -/
def nestedFinallyOrder (schedule : Schedule) : Draft :=
  throwingDraft "nested-finally-order"
    "inner finally runs before the outer catch, outer finally last"
    schedule .string .string "nestedFinallyOrder"
    (Code.block "function nestedFinallyOrder(tag)" <|
      ["var t = \"\";"] ++
      Code.chain "try"
        (Code.chain "try" ["t += \"b\";", "throw new Error(tag);"]
          [("finally", ["t += \"i\";"])])
        [("catch (e)", ["t += \"c\" + e.message;"]), ("finally", ["t += \"o\";"])] ++
      ["return t;"])
    (.string "3")
    fun args =>
      match args.head? with
      | some tag => .string ("bic" ++ tag.text ++ "o")
      | none => .undefined

/-- Counts the frames that are unwound from the bottom of a recursion. -/
def deepUnwind (schedule : Schedule) : Draft :=
  throwingDraft "deep-unwind"
    "throw from the bottom of a recursion where every frame has a finally"
    schedule .integer .integer "deepUnwind"
    (["var unwindFinallies = 0;"] ++
      Code.block "function unwindFrame(d)"
        (Code.chain "try"
          (Code.block "if (d === 0)" ["throw new Error(\"bottom\");"] ++
            ["return unwindFrame(d - 1);"])
          [("finally", ["unwindFinallies++;"])]) ++
      Code.block "function deepUnwind(depth)"
        (["unwindFinallies = 0;"] ++
          Code.chain "try" ["unwindFrame(depth);"] [("catch (e)", ["return unwindFinallies;"])] ++
          ["return -1;"]))
    (.ofNat 50)
    fun args => .ofInt (countAt args 0 + 1)

/-- Adds up what two handlers see when the first throws again. -/
def rethrow (schedule : Schedule) : Draft :=
  throwingDraft "rethrow" "catch, transform and rethrow to an outer handler"
    schedule .integer .integer "rethrowChain"
    (Code.block "function rethrowChain(n)" <|
      ["var seen = 0;"] ++
      Code.chain "try"
        (Code.chain "try" ["throw n;"] [("catch (e)", ["seen += e;", "throw e * 2;"])])
        [("catch (e2)", ["seen += e2;"])] ++
      ["return seen;"])
    (.ofNat 7)
    fun args => .ofInt (integerAt args 0 * 3)

/-- Counts the thrown values of all kinds that are caught as they were. -/
def thrownValues (schedule : Schedule) : Draft :=
  throwingDraft "thrown-values"
    ("numbers, strings, null, undefined, booleans, objects, arrays, errors and functions " ++
      "thrown and caught by identity")
    schedule .integer .integer "thrownKinds"
    (["var thrownSamples = [1, \"s\", null, undefined, true, " ++ emptyBraces ++
        ", [], new Error(\"e\"), function () " ++ emptyBraces ++ "];"] ++
      Code.block "function thrownKinds(k)"
        (["var caught = 0;"] ++
          loop "i" "k && i < thrownSamples.length"
            (Code.chain "try" ["throw thrownSamples[i];"]
              [("catch (e)", Code.block "if (e === thrownSamples[i])" ["caught++;"])]) ++
          ["return caught;"]))
    (.ofNat 9)
    fun args => .ofInt (min 9 (countAt args 0))

/-- Shows that a returned value survives a `finally` that writes elsewhere. -/
def returnThroughFinally (schedule : Schedule) : Draft :=
  throwingDraft "return-through-finally"
    "return value survives a finally that writes shared state"
    schedule .integer .integer "returnThroughFinally"
    (["var finallyLog = 0;"] ++
      Code.block "function returnInner(x)"
        (Code.chain "try" ["return x * 2;"] [("finally", ["finallyLog = x + 1;"])]) ++
      Code.block "function returnThroughFinally(x)"
        ["finallyLog = 0;", "var r = returnInner(x);", "return r * 100 + finallyLog;"])
    (.ofNat 5)
    fun args => .ofInt (integerAt args 0 * 200 + integerAt args 0 + 1)

/-- What an iteration adds to the sum of `loopCatchSum`. -/
def catchSumTerm (i : Nat) : Int := if i % 3 = 0 then -(i : Int) else i

/-- Adds up a loop that counts iterations one way and caught throws the other way. -/
def loopCatchSum (schedule : Schedule) : Draft :=
  throwingDraft "loop-catch-sum"
    ("accumulator updated on both the normal and the catch path of a loop " ++
      "(loop-driven schedule, calls divided by 10)")
    schedule .integer .integer "loopCatchSum"
    (Code.block "function loopCatchSum(n)" <|
      ["var sum = 0;"] ++
      loop "i" "n"
        (Code.chain "try" (Code.block "if (i % 3 === 0)" ["throw i;"] ++ ["sum += i;"])
          [("catch (e)", ["sum -= e;"])]) ++
      ["return sum;"])
    (.ofNat 100)
    fun args => .ofInt ((List.range (countAt args 0).toNat).foldl (· + catchSumTerm ·) 0)

/-- The scenarios that throw. The schedule of those with a loop can turn out to be none. -/
def unwindingDrafts (plan : Plan) : List (Except ScheduleFault Draft) :=
  let s := plan.schedule
  [(s.divided 100).map everyThirdThrow, (s.divided 10).map finallyCount,
    .ok (nestedFinallyOrder s), .ok (deepUnwind s), .ok (rethrow s), .ok (thrownValues s),
    .ok (returnThroughFinally s), (s.divided 10).map loopCatchSum]

end Plan

end TierCheck
