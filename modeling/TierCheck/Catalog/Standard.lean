import Std.Data.HashMap
import TierCheck.Catalog.Calls
import TierCheck.Catalog.Retyping
import TierCheck.Catalog.Unwinding
import TierCheck.Catalog.Vectors
import TierCheck.Failure
/-!
# Catalogs

A catalog is a sequence of scenarios that are fit to run and have different ids. The place of each
id is kept beside the sequence, so a scenario is found without a search.

The standard catalog holds the scenarios of all families for one plan. Every draft is built before
any scenario enters the catalog, and the first that cannot be built refuses the plan.

* `Catalog.push`: the catalog with one more scenario at its end.
* `Catalog.get?`: the scenario with an id.
* `Catalog.standard`: the catalog of a plan.
-/

namespace TierCheck

/-- Scenarios in order, with the places of their ids. -/
structure Catalog where
  scenarios : Array Scenario
  places : Std.HashMap String Nat

namespace Catalog

def empty : Catalog := ⟨#[], ∅⟩

instance : Inhabited Catalog := ⟨empty⟩

def size (c : Catalog) : Nat := c.scenarios.size

def toList (c : Catalog) : List Scenario := c.scenarios.toList

def get? (c : Catalog) (id : String) : Option Scenario :=
  c.places[id]?.bind fun place => c.scenarios[place]?

/-- The catalog with one more scenario, which has to be fit to run and to have a new id. -/
def push (c : Catalog) (s : Scenario) : Except Failure Catalog := do
  s.check
  if s.id ∈ c.places then throw (.duplicateScenario s.id)
  return ⟨c.scenarios.push s, c.places.insert s.id c.scenarios.size⟩

/-- The catalog with more scenarios, unless one of them cannot be added. -/
def pushAll (c : Catalog) (l : List Scenario) : Except Failure Catalog := l.foldlM push c

def ofFamily (c : Catalog) (family : Family) : List Scenario :=
  c.toList.filter fun s => s.family = family

end Catalog

/-! ## The standard catalog -/

/-- The scenarios of all families, in the order of the families. -/
def Plan.scenarios (plan : Plan) : Except Failure (List Scenario) := do
  let calls ← plan.callDrafts.mapM Draft.build
  let retyping ← plan.retypingDrafts.mapM Draft.build
  let unwinding ← plan.unwindingDrafts.mapM fun draft =>
    match draft with
    | .ok draft => draft.build
    | .error fault => .error (.invalidSetting (.schedule fault))
  let vectors ← plan.vectorDrafts.mapM Draft.build
  return calls ++ retyping ++ unwinding ++ vectors

def Catalog.standard (plan : Plan) : Except Failure Catalog := do
  Catalog.empty.pushAll (← plan.scenarios)

end TierCheck
