import TierCheck.Json.Literal
import TierCheck.Number.Shortest
import TierCheck.Text.Line
import TierCheck.Value.Element
/-!
# Values at the boundary to the subject

Arguments go into a script as expressions, and results come back as the name of a kind with a text.
Expected results are values of the same type, so both sides of a comparison look alike.

* `Value.kindName`, `Value.text`: how a value is reported.
* `Value.literal`: how a value is written into a script.
* `ParameterKind`, `ResultKind`: what a scenario declares of its function.
-/

namespace TierCheck

inductive ParameterKind where
  | integer
  | float
  | string
  | object
  | typedArray (element : Element)
deriving DecidableEq, Repr

/-- The declared kind of a result. It decides how results are compared and whether they are
inspected for corruption. -/
inductive ResultKind where
  | integer
  | float
  | string
  | boolean
  | object
deriving DecidableEq, Repr

/-- Whether results of the kind show as a short text. -/
def ResultKind.isScalar : ResultKind → Bool
  | object => false
  | _ => true

/-- A value that crosses the boundary to the subject. -/
inductive Value where
  | undefined
  | null
  | boolean (b : Bool)
  | number (n : Double)
  | string (s : String)
  /-- The constructor of a typed array, which occurs only as an argument. -/
  | arrayType (element : Element)
  /-- An object that cannot be called, by its text. -/
  | object (text : String)
  /-- Something that can be called, by its text, which mostly is its source. -/
  | function (text : String)
  /-- A value of any other kind, by its text. -/
  | other (kind text : String)
deriving DecidableEq, Repr, Inhabited

def booleanText (b : Bool) : String := if b then "true" else "false"

namespace Value

def ofInt (n : Int) : Value := number (Double.ofInt n)

def ofNat (n : Nat) : Value := number (Double.ofNat n)

/-- The name of the value's kind in a report line. -/
def kindName : Value → String
  | undefined => "undefined"
  | null => "null"
  | boolean _ => "boolean"
  | number _ => "number"
  | string _ => "string"
  | arrayType _ => "function"
  | object _ => "object"
  | function _ => "function"
  | other kind _ => kind

/-- The value as the subject prints it. -/
def text : Value → String
  | undefined => "undefined"
  | null => "null"
  | boolean b => booleanText b
  | number n => n.text
  | string s => s
  | arrayType e => "function " ++ e.constructorName ++ "() \x7b [native code] \x7d"
  | object s => s
  | function s => s
  | other _ s => s

/-- The value as an expression of a script. Objects and functions stand in parentheses, so that
their text is read as an expression. -/
def literal : Value → String
  | undefined => "undefined"
  | null => "null"
  | boolean b => booleanText b
  | number n => n.text
  | string s => Json.quote s
  | arrayType e => e.constructorName
  | object s => "(" ++ s ++ ")"
  | function s => "(" ++ s ++ ")"
  | other _ s => s

/-- The value as a diagnosis shows it: strings between quotes, all others by their text. -/
def display : Value → String
  | string s => quoted s
  | v => v.text

def isCallable : Value → Bool
  | arrayType _ | function _ => true
  | _ => false

end Value

end TierCheck
