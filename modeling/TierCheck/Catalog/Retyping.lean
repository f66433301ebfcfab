import TierCheck.Catalog.Plan
/-!
# Calls with another element type

A function that was warmed up on arrays of one element type is made for that type. These scenarios
then call it once with each of three other types, at three more checkpoints right after the
warm-up, where code made for the first type gives wrong results.
-/

namespace TierCheck.Plan

def retypedLength : Nat := 8

def retypedFill : Double := Double.ofRatio (-3) 2

inductive Access where
  /-- It writes the elements and adds them up. -/
  | construct
  /-- It adds up the elements of an array that it made before. -/
  | read
  /-- It fills the array and adds up both ends. -/
  | fill
deriving DecidableEq, Repr

namespace Access

def all : List Access := [construct, read, fill]

def name : Access → String
  | construct => "construct"
  | read => "read"
  | fill => "fill"

def function : Access → String
  | construct => "createAndFill"
  | read => "readElements"
  | fill => "fillEnds"

def source : Access → Code
  | construct =>
    Code.block "function createAndFill(C, n)" <|
      ["var a = new C(n);"] ++ loop "i" "n" ["a[i] = i + 1;"] ++
      ["var s = 0;"] ++ loop "j" "n" ["s += a[j];"] ++ ["return s;"]
  | read =>
    ["var readCache = " ++ emptyBraces ++ ";"] ++
    Code.block "function readFixture(C, n)"
      (["var a = readCache[C.name];"] ++
        Code.block "if (!a)"
          (["a = new C(n);"] ++ loop "i" "n" ["a[i] = i * 3 + 1;"] ++
            ["readCache[C.name] = a;"]) ++
        ["return a;"]) ++
    Code.block "function readElements(C, n)"
      (["var a = readFixture(C, n);", "var s = 0;"] ++
        loop "i" "a.length" ["s += a[i] * (i + 1);"] ++ ["return s;"])
  | fill =>
    Code.block "function fillEnds(C, n)"
      ["var a = new C(n);", "a.fill(" ++ retypedFill.text ++ ");", "return a[0] + a[n - 1];"]

/-- What the function gives for an array of `n` elements. -/
def result (access : Access) (e : Element) (n : Nat) : Double :=
  match access with
  | construct => Double.sum ((List.range n).map fun i => e.coerce (Double.ofNat (i + 1)))
  | read =>
    Double.sum ((List.range n).map fun i =>
      e.coerce (Double.ofNat i * Double.ofNat 3 + Double.one) * (Double.ofNat i + Double.one))
  | fill => if n = 0 then .nan else Double.ofNat 2 * e.coerce retypedFill

end Access

/-- The element type of the warm-up with the types that follow it. -/
def rotations : List (Element × List Element) :=
  [(.float32, [.float64, .int32, .uint8]), (.int32, [.float64, .uint8, .float32])]

def retypedArguments (e : Element) : List Value := [.arrayType e, .ofNat retypedLength]

/-- The checkpoint at which the type number `place` is tried. -/
def retypedCheckpoint (warmed : Nat) (e : Element) (place : Nat) : Checkpoint :=
  ⟨"retype:" ++ e.constructorName, warmed + place + 1, place + 1⟩

/-- The elements' types in words. -/
def typeList : List Element → String
  | [] => ""
  | [e] => e.constructorName
  | [e, last] => e.constructorName ++ " and " ++ last.constructorName
  | e :: rest => e.constructorName ++ ", " ++ typeList rest

/-- One way of access, warmed up on one type and tried with others. -/
def retypingDraft (plan : Plan) (access : Access) (warm : Element) (others : List Element) :
    Draft :=
  let warmed := warmup plan.schedule.checkpoints
  { id := "polymorphic/" ++ access.name ++ "-from-" ++ elementTag warm
    family := .polymorphic
    description :=
      access.function ++ " warmed on " ++ warm.constructorName ++ ", then called once each with " ++
        typeList others
    parameters := [.typedArray warm, .integer]
    returns := .float
    checkpoints :=
      plan.schedule.checkpoints ++ others.zipIdx.map fun (e, i) => retypedCheckpoint warmed e i
    function := access.function
    source := access.source.joined
    argumentSets := retypedArguments warm :: others.map retypedArguments
    reference? := some fun
      | [.arrayType e, .number n] =>
        if Double.zero ≤ n then .number (access.result e n.toNat64) else .undefined
      | _ => .undefined }

def retypingDrafts (plan : Plan) : List Draft :=
  Access.all.flatMap fun access =>
    rotations.map fun (warm, others) => plan.retypingDraft access warm others

end TierCheck.Plan
