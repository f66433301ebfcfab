import TierCheck.Text.Blank
import TierCheck.Value.Basic
/-!
# Judging results

A verdict says how a scenario fared at one checkpoint. Kinds of verdicts are ordered by how much
they matter, and a scenario as a whole is as bad as its worst checkpoint.

A reported result is compared with the right one. Values of different kinds never agree. Numbers
agree exactly, or within a relative tolerance where the scenario's result is a floating point
number; a value that is not a number agrees with its like alone, and zeros agree whatever their
signs unless the scenario asks for the sign.

A subject that reads an argument from the wrong place often finds a function there. The result is
then a wrong value like any other, but its text looks like a function. `Value.corruption?` looks
for the signs in a wrong value where a short scalar was due.
-/

namespace TierCheck

/-! ## Verdicts -/

inductive VerdictKind where
  | pass
  | wrongValue
  /-- Repeated runs of the scenario did not agree. -/
  | unstable
  | timeout
  | crashed
  /-- A wrong result that looks like a leaked function. -/
  | corrupted
deriving DecidableEq, Repr, Inhabited

namespace VerdictKind

def all : List VerdictKind := [pass, wrongValue, unstable, timeout, crashed, corrupted]

def name : VerdictKind → String
  | pass => "Pass"
  | wrongValue => "WrongValue"
  | unstable => "Unstable"
  | timeout => "Timeout"
  | crashed => "Crashed"
  | corrupted => "Corrupted"

/-- The place of a kind in the order of badness. -/
def severity : VerdictKind → Nat
  | pass => 0
  | wrongValue => 1
  | unstable => 2
  | timeout => 3
  | crashed => 4
  | corrupted => 5

instance : LE VerdictKind := ⟨fun a b => a.severity ≤ b.severity⟩

instance (a b : VerdictKind) : Decidable (a ≤ b) :=
  inferInstanceAs (Decidable (a.severity ≤ b.severity))

instance : Max VerdictKind := maxOfLe

instance : Min VerdictKind := minOfLe

/-- Whether the checkpoint is as it should be. -/
def isPass (k : VerdictKind) : Bool := k = pass

/-- Whether no checkpoint after this one is sampled. -/
def endsScenario (k : VerdictKind) : Bool := k = crashed || k = timeout

/-- The worst of the kinds, and `pass` if there are none. -/
def worst (kinds : List VerdictKind) : VerdictKind := kinds.max?.getD pass

end VerdictKind

structure Verdict where
  kind : VerdictKind
  checkpoint : String
  /-- The text of the right result. -/
  expected : Option String := none
  /-- The text of the reported result. -/
  actual : Option String := none
  /-- The text as the subject reported it. -/
  raw : Option String := none
  detail : Option String := none
deriving DecidableEq, Repr, Inhabited

/-- The names of the verdicts' kinds, in order. -/
def kindList (verdicts : List Verdict) : String :=
  ", ".intercalate (verdicts.map (·.kind.name))

/-- The first place at which two lists of verdicts differ in kind. A list that ends before the
other differs from it where it ends. -/
def firstDivergence? : List Verdict → List Verdict → Option Nat
  | [], [] => none
  | a :: as, b :: bs => if a.kind = b.kind then (firstDivergence? as bs).map (· + 1) else some 0
  | _, _ => some 0

/-! ## When two results agree -/

/-- The relative tolerance that is used when none is given: one in ten thousand. -/
def standardTolerance : Double := Double.ofRatio 1 10000

structure Agreement where
  kind : ResultKind
  /-- Whether zeros of different signs are different. -/
  zeroSign : Bool := false
  /-- The relative tolerance. One that is not positive and finite counts as zero. -/
  tolerance : Double := standardTolerance
deriving DecidableEq, Repr

namespace Agreement

/-- The tolerance that counts. -/
def effectiveTolerance (rule : Agreement) : Double :=
  if rule.tolerance.isFinite ∧ Double.zero < rule.tolerance then rule.tolerance else Double.zero

/-- Whether two numbers that are neither both zero nor equal are close: finite, and no further
apart than the tolerance times the greatest of their magnitudes and one. -/
def isClose (rule : Agreement) (a b : Double) : Bool :=
  let scale := (a.abs.greater b.abs).greater Double.one
  !a.isInfinite && !b.isInfinite && decide ((a - b).abs ≤ rule.effectiveTolerance * scale)

/-- Whether two numbers agree. -/
def numbersAgree (rule : Agreement) (a b : Double) : Bool :=
  if a.isNaN ∨ b.isNaN then a.isNaN && b.isNaN
  else if a.isZero ∧ b.isZero then !rule.zeroSign || a.isNegative == b.isNegative
  else if a.eqv b then true
  else rule.kind = .float && rule.isClose a b

/-- Whether two results agree. -/
def holds (rule : Agreement) (actual expected : Value) : Bool :=
  match actual, expected with
  | .number a, .number b => rule.numbersAgree a b
  | actual, expected => actual = expected

end Agreement

/-! ## Corrupted results -/

inductive Corruption where
  /-- The value can be called. -/
  | callable
  /-- The text starts like the definition of a function or class. -/
  | functionSource
  /-- The text holds a piece of source code. -/
  | sourceToken (token : String)
  /-- The text is longer than the texts of scalars are. -/
  | tooLong (length threshold : Nat)
deriving DecidableEq, Repr

def Corruption.message : Corruption → String
  | callable => "value is callable"
  | functionSource => "value text is function source"
  | sourceToken token => "value text contains source token " ++ quoted token
  | tooLong length threshold =>
    "value text is " ++ naturalText length ++ " chars (threshold " ++ naturalText threshold ++ ")"

/-- The greatest length of a scalar's text that is used when none is given. -/
def standardLengthThreshold : Nat := 50

/-- The beginnings of definitions. -/
def definitionStarts : List String := ["function", "async function", "class ", "(function"]

/-- The first piece of source code that the text holds. The word `return` is one only together
with both braces. -/
def sourceToken? (text : List Char) : Option String :=
  if occursIn "[native code]".toList text then some "[native code]"
  else if occursIn "=>".toList text then some "=>"
  else if text.contains '\x7b' && text.contains '\x7d' && occursIn "return".toList text then
    some "return"
  else none

/-- The sign of corruption in a wrong value, if the declared kind of the result is scalar. Blanks
in front of the text do not count for its beginning, but they do for its length. -/
def Value.corruption? (v : Value) (declared : ResultKind) (threshold : Nat) : Option Corruption :=
  let text := v.text.toList
  let start := text.dropWhile isBlank
  if !declared.isScalar then none
  else if v.isCallable then some .callable
  else if definitionStarts.any fun s => s.toList.isPrefixOf start then some .functionSource
  else
    match sourceToken? start with
    | some token => some (.sourceToken token)
    | none => if threshold < text.length then some (.tooLong text.length threshold) else none

end TierCheck
