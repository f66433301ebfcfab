import TierCheck.Scenario.Basic
import TierCheck.Script.Code
/-!
# The plan of a catalog

What the built-in scenarios are made for: the warm-up they go through, and the two widths of the
machine around which their sizes are chosen. The pieces of source code that several families share
stand here too.
-/

namespace TierCheck

/-- What the built-in scenarios are made for. -/
structure Plan where
  schedule : Schedule := .standard
  /-- The number of arguments that are passed in registers. -/
  registerLimit : Nat := 6
  /-- The width in bytes of a vector chunk. -/
  chunkBytes : Nat := 16
deriving DecidableEq, Repr

namespace Plan

def parameterName (place : Nat) : String := "p" ++ naturalText (place + 1)

def parameterNames (n : Nat) : List String := (List.range n).map parameterName

/-- The names of the first `n` parameters as a function declares them. -/
def parameterList (n : Nat) : String := ", ".intercalate (parameterNames n)

/-- A counting loop over the indices below `limit`. -/
def loop (index limit : String) (body : Code) : Code :=
  Code.block ("for (var " ++ index ++ " = 0; " ++ index ++ " < " ++ limit ++ "; " ++ index ++
    "++)") body

/-- The name of an element type in the id of a scenario. -/
def elementTag (e : Element) : String :=
  match e with
  | .int8 => "int8"
  | .uint8 => "uint8"
  | .uint8Clamped => "uint8clamped"
  | .int16 => "int16"
  | .uint16 => "uint16"
  | .int32 => "int32"
  | .uint32 => "uint32"
  | .float32 => "float32"
  | .float64 => "float64"

/-- The number that a value is, and the value that is not a number for all others. -/
def numberOf : Value → Double
  | .number n => n
  | _ => .nan

end Plan

end TierCheck
