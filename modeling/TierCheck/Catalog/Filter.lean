import TierCheck.Catalog.Standard
import TierCheck.Text.Blank
/-!
# Choosing scenarios

A filter is a list of terms, and a scenario passes if one of them matches it. A term is looked for
in the id and in the name of the family, or in one of them where it says so. Letter case does not
count for ASCII letters. A filter without terms chooses nothing in particular: selecting by it
keeps all scenarios, and marking by it marks none.
-/

namespace TierCheck

/-- One term of a filter. The texts hold no uppercase ASCII letter. -/
inductive FilterTerm where
  | anywhere (text : List Char)
  | inId (text : List Char)
  | inFamily (text : List Char)
deriving DecidableEq, Repr

namespace FilterTerm

/-- The text with small ASCII letters for capital ones. -/
def lowercase (s : String) : List Char := s.toList.map Char.toLower

def read (text : String) : FilterTerm :=
  let lower := lowercase text
  match after? "id:" lower, after? "family:" lower with
  | some rest, _ => inId rest
  | none, some rest => inFamily rest
  | none, none => anywhere lower

def isIn (term : FilterTerm) (s : Scenario) : Bool :=
  let id := lowercase s.id
  let family := s.family.name.toList
  match term with
  | anywhere text => occursIn text id || occursIn text family
  | inId text => occursIn text id
  | inFamily text => occursIn text family

end FilterTerm

/-- The terms of a filter: what stands between commas, semicolons and blanks. -/
def filterTerms (text : String) : List FilterTerm :=
  (terms isListSeparator text).map FilterTerm.read

def matchesAny (filter : List FilterTerm) (s : Scenario) : Bool :=
  filter.any fun term => term.isIn s

/-- The scenario as one that is only reported. -/
def Scenario.markAdvisory (s : Scenario) : Scenario := { s with expectation := .advisory }

namespace Catalog

/-- The catalog of the scenarios that pass the filter. A filter that no scenario passes is
refused. -/
def select (c : Catalog) (text : String) : Except Failure Catalog := do
  let filter := filterTerms text
  if filter = [] then return c
  let chosen ← empty.pushAll (c.toList.filter (matchesAny filter))
  if chosen.size = 0 then throw (.emptySelection text)
  return chosen

/-- The catalog with the scenarios that pass the filter marked as advisory. -/
def markAdvisory (c : Catalog) (text : String) : Catalog :=
  let filter := filterTerms text
  { c with scenarios := c.scenarios.map fun s => if matchesAny filter s then s.markAdvisory else s }

def countMatching (c : Catalog) (text : String) : Nat :=
  c.toList.countP (matchesAny (filterTerms text))

end Catalog

end TierCheck
