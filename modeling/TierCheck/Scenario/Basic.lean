import TierCheck.Schedule
import TierCheck.Value.Basic
/-!
# Scenarios

A scenario is a function with the argument sets it is called with, a warm-up, and a reference that
computes the right result of each argument set.

* `Scenario.argumentsAt`, `Scenario.expectedAt`: what a checkpoint is sampled with, and the result
  it should show.
* `Scenario.fault?`: the first thing that makes a scenario unfit to run.
* `Draft`: a scenario in the making; only `Draft.build` checks it.
-/

namespace TierCheck

inductive Family where
  | arity
  | polymorphic
  | exceptions
  | vectorized
deriving DecidableEq, Repr

def Family.all : List Family := [arity, polymorphic, exceptions, vectorized]

def Family.name : Family → String
  | arity => "arity"
  | polymorphic => "polymorphic"
  | exceptions => "exceptions"
  | vectorized => "vectorized"

/-- Whether a failure of the scenario fails the suite or is only reported. -/
inductive Expectation where
  | strict
  | advisory
deriving DecidableEq, Repr

def Expectation.name : Expectation → String
  | strict => "strict"
  | advisory => "advisory"

/-- A function to be called, with what it should give. -/
structure Scenario where
  id : String
  family : Family
  description : String
  /-- The number of parameters of the function. -/
  arity : Nat
  parameters : List ParameterKind
  returns : ResultKind
  /-- Whether zeros of different signs are different results. -/
  zeroSign : Bool
  expectation : Expectation
  checkpoints : List Checkpoint
  /-- The name of the function that `source` defines. -/
  function : String
  source : String
  argumentSets : List (List Value)
  /-- The right result of each list of arguments. -/
  reference : List Value → Value

inductive ScenarioFault where
  | invalidId
  | parameterCount (arity parameters : Nat)
  | invalidFunction (name : String)
  | noArgumentSets
  /-- An argument set of the wrong length, by its place. -/
  | argumentCount (place length arity : Nat)
  | checkpoints (fault : CheckpointFault)
  | noWarmup
  /-- A checkpoint that uses an argument set that is not there. -/
  | missingArgumentSet (checkpoint : String) (place available : Nat)
  | noReference
deriving DecidableEq, Repr

def ScenarioFault.message : ScenarioFault → String
  | invalidId => "id must be non-empty without whitespace"
  | parameterCount arity parameters =>
    "arity " ++ naturalText arity ++ " does not match " ++ naturalText parameters ++
      " parameter kinds"
  | invalidFunction name => quoted name ++ " is not a valid function name"
  | noArgumentSets => "no argument sets"
  | argumentCount place length arity =>
    "argument set " ++ naturalText place ++ " has " ++ naturalText length ++
      " values, arity is " ++ naturalText arity
  | checkpoints fault => fault.message
  | noWarmup => "warm-up iterations must be positive"
  | missingArgumentSet checkpoint place available =>
    "checkpoint " ++ quoted checkpoint ++ " uses argument set " ++ naturalText place ++ " of " ++
      naturalText available
  | noReference => "missing oracle"

/-- Whether the character may stand in a function name at any place but the first. -/
def isNameCharacter (c : Char) : Bool := c.isAlphanum || c = '_' || c = '$'

/-- Whether the text is the name of a function: ASCII letters, digits, underscores and dollar
signs, and no digit in front. -/
def isFunctionName (name : String) : Bool :=
  match name.toList with
  | [] => false
  | c :: rest => isNameCharacter c && !c.isDigit && rest.all isNameCharacter

namespace Scenario

/-- The arguments that lead up to a checkpoint. -/
def argumentsAt (s : Scenario) (checkpoint : Checkpoint) : List Value :=
  s.argumentSets[checkpoint.argumentSet]?.getD []

/-- The result that a checkpoint should show. -/
def expectedAt (s : Scenario) (checkpoint : Checkpoint) : Value :=
  s.reference (s.argumentsAt checkpoint)

def expectedResults (s : Scenario) : List Value := s.checkpoints.map s.expectedAt

/-- The number of calls made when the last checkpoint is sampled. -/
def warmup (s : Scenario) : Nat := TierCheck.warmup s.checkpoints

/-- The first argument set of a length other than the arity, from `place` on. -/
def argumentFault? (arity : Nat) (place : Nat) : List (List Value) → Option ScenarioFault
  | [] => none
  | set :: rest =>
    if set.length = arity then argumentFault? arity (place + 1) rest
    else some (.argumentCount place set.length arity)

/-- The first checkpoint that uses an argument set that is not there. -/
def setFault? (available : Nat) : List Checkpoint → Option ScenarioFault
  | [] => none
  | checkpoint :: rest =>
    if checkpoint.argumentSet < available then setFault? available rest
    else some (.missingArgumentSet checkpoint.name checkpoint.argumentSet available)

/-- The first thing that makes the scenario unfit to run. -/
def fault? (s : Scenario) : Option ScenarioFault :=
  if s.id = "" ∨ hasBlank s.id then some .invalidId
  else if s.parameters.length ≠ s.arity then some (.parameterCount s.arity s.parameters.length)
  else if !isFunctionName s.function then some (.invalidFunction s.function)
  else if s.argumentSets = [] then some .noArgumentSets
  else
    (argumentFault? s.arity 0 s.argumentSets).or <|
    ((checkpointFault? s.checkpoints).map .checkpoints).or <|
    (if s.warmup = 0 then some .noWarmup else none).or <|
    setFault? s.argumentSets.length s.checkpoints

def IsValid (s : Scenario) : Prop := s.fault? = none

instance (s : Scenario) : Decidable s.IsValid := inferInstanceAs (Decidable (s.fault? = none))

end Scenario

/-- A scenario in the making, in which all but the identity has a default. -/
structure Draft where
  id : String
  family : Family
  description : String := ""
  parameters : List ParameterKind := []
  returns : ResultKind := .integer
  zeroSign : Bool := false
  expectation : Expectation := .strict
  checkpoints : List Checkpoint := []
  function : String := ""
  source : String := ""
  argumentSets : List (List Value) := []
  reference? : Option (List Value → Value) := none

/-- The scenario of the draft, not checked. It has as many parameters as kinds of them. -/
def Draft.toScenario (d : Draft) (reference : List Value → Value) : Scenario :=
  { id := d.id
    family := d.family
    description := d.description
    arity := d.parameters.length
    parameters := d.parameters
    returns := d.returns
    zeroSign := d.zeroSign
    expectation := d.expectation
    checkpoints := d.checkpoints
    function := d.function
    source := d.source
    argumentSets := d.argumentSets
    reference }

end TierCheck
