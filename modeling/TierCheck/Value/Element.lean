import TierCheck.Number.Double
/-!
# Array element types

A typed array holds numbers of one fixed width. Storing a number converts it: the integer types
keep the integer part modulo their width, the clamped type rounds into the range of a byte, and the
floating types round to their format.

* `Element.coerce`: the number that an element holds after the store.
* `Element.lanes`: how many elements one vector chunk holds.
-/

namespace TierCheck

inductive Element where
  | int8
  | uint8
  | uint8Clamped
  | int16
  | uint16
  | int32
  | uint32
  | float32
  | float64
deriving DecidableEq, Repr

namespace Element

def constructorName : Element → String
  | int8 => "Int8Array"
  | uint8 => "Uint8Array"
  | uint8Clamped => "Uint8ClampedArray"
  | int16 => "Int16Array"
  | uint16 => "Uint16Array"
  | int32 => "Int32Array"
  | uint32 => "Uint32Array"
  | float32 => "Float32Array"
  | float64 => "Float64Array"

/-- The size of an element in bytes. -/
def size : Element → Nat
  | int8 | uint8 | uint8Clamped => 1
  | int16 | uint16 => 2
  | int32 | uint32 | float32 => 4
  | float64 => 8

def isFloat : Element → Bool
  | float32 | float64 => true
  | _ => false

/-- The number of elements in a vector chunk of `chunkBytes` bytes, and one if none fits. -/
def lanes (e : Element) (chunkBytes : Nat) : Nat := max 1 (chunkBytes / e.size)

/-- The integer part of the number modulo `2 ^ bits`, as the representative in `0 … 2 ^ bits - 1`
or, if signed, in `-2 ^ (bits - 1) … 2 ^ (bits - 1) - 1`. Numbers that are not finite become
zero, and so does negative zero. -/
def wrap (bits : Nat) (signed : Bool) (v : Double) : Double :=
  if v.isFinite then
    let modulus := Double.ofNat (wordLimit bits)
    let rest := v.truncate % modulus
    let rest := if rest < Double.zero then rest + modulus else rest
    let rest := if signed && modulus / Double.ofNat 2 ≤ rest then rest - modulus else rest
    rest + Double.zero
  else Double.zero

/-- The integer in `0 … 255` nearest to the number, a half going to the even neighbour. -/
def clampToByte (v : Double) : Double :=
  if v.isNaN ∨ v ≤ Double.zero then Double.zero
  else if Double.ofNat 255 ≤ v then Double.ofNat 255
  else
    let floor := v.floor
    let fraction := v - floor
    let half := Double.ofRatio 1 2
    if half < fraction then floor + Double.one
    else if fraction < half then floor
    else if (floor % Double.ofNat 2).isZero then floor
    else floor + Double.one

/-- The number that an element holds after `v` is stored into it. -/
def coerce (e : Element) (v : Double) : Double :=
  match e with
  | int8 => wrap 8 true v
  | uint8 => wrap 8 false v
  | uint8Clamped => clampToByte v
  | int16 => wrap 16 true v
  | uint16 => wrap 16 false v
  | int32 => wrap 32 true v
  | uint32 => wrap 32 false v
  | float32 => v.toSingle
  | float64 => v

end Element

end TierCheck
