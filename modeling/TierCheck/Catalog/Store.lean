import TierCheck.Catalog.Filter
/-!
# Catalogs changed in place

A program that keeps a catalog changes it step by step, and a step that fails ends an operation
without undoing the steps before it. An `Edit` is an operation in these terms: its result comes
together with the catalog that it leaves, also where it fails.

* `Edit.push`, `Edit.select`, `Edit.markAdvisory`: the operations, in the order of their steps.
* `Operation.runAll`: operations one after the other, whether or not they succeed.
-/

namespace TierCheck

/-- An operation on a catalog in place. What a failing operation has changed stays changed. -/
abbrev Edit := ExceptT Failure (StateM Catalog)

namespace Edit

/-- The outcome of an operation, and the catalog that it leaves. -/
def apply {α : Type} (e : Edit α) (c : Catalog) : Except Failure α × Catalog :=
  (ExceptT.run e).run c

/-- Adds a scenario: its place is noted first, then it is stored there. -/
def push (s : Scenario) : Edit Unit := do
  liftExcept s.check
  if s.id ∈ (← get).places then throw (.duplicateScenario s.id)
  modify fun c => { c with places := c.places.insert s.id c.scenarios.size }
  modify fun c => { c with scenarios := c.scenarios.push s }

/-- Keeps the scenarios that pass the filter, which are collected in a catalog of their own. -/
def select (text : String) : Edit Unit := do
  let chosen ← liftExcept ((← get).select text)
  set chosen

/-- Marks the scenarios that pass the filter, and tells how many there are. -/
def markAdvisory (text : String) : Edit Nat := do
  let count := (← get).countMatching text
  modify fun c => c.markAdvisory text
  return count

end Edit

inductive Operation where
  | push (s : Scenario)
  | select (text : String)
  | markAdvisory (text : String)

namespace Operation

def edit : Operation → Edit Unit
  | push s => Edit.push s
  | select text => Edit.select text
  | markAdvisory text => discard (Edit.markAdvisory text)

def apply (operation : Operation) (c : Catalog) : Except Failure Unit × Catalog :=
  operation.edit.apply c

/-- The catalog after operations one after the other. One that fails does not stop the others. -/
def runAll (operations : List Operation) (c : Catalog) : Catalog :=
  operations.foldl (fun c operation => (operation.apply c).2) c

end Operation

end TierCheck
