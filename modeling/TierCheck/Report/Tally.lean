import Std.Data.TreeMap
import TierCheck.Report.Basic
/-!
# Collecting verdicts

While a suite runs, its verdicts are collected by scenario, in the order in which the scenarios
were first mentioned. What is known of a scenario is taken from its first mention. The place of
each id is kept beside the tallies, so a tally is found without a search.

* `Collection.slot`: the place of a scenario's tally, which is made at the first mention.
* `Collection.register`, `Collection.record`: a scenario mentioned, without and with a verdict.
* `Collection.report`: the report of all that was collected.
-/

namespace TierCheck

/-- A scenario with the verdicts collected so far. -/
structure Tally where
  id : String
  family : Family
  description : String
  expectation : Expectation
  checkpointsTotal : Nat
  verdicts : List Verdict
deriving DecidableEq

namespace Tally

/-- The tally of a scenario before its first verdict. -/
def start (s : Scenario) : Tally :=
  { id := s.id
    family := s.family
    description := s.description
    expectation := s.expectation
    checkpointsTotal := s.checkpoints.length
    verdicts := [] }

/-- The verdict of a scenario of which nothing was reported. -/
def nothingReported : Verdict :=
  { kind := .crashed, checkpoint := "-", detail := "no checkpoint was reported" }

def add (t : Tally) (verdict : Verdict) : Tally := { t with verdicts := t.verdicts ++ [verdict] }

@[simp] theorem add_id (t : Tally) (verdict : Verdict) : (t.add verdict).id = t.id := rfl

def report (t : Tally) : ScenarioReport :=
  let verdicts := if t.verdicts = [] then [nothingReported] else t.verdicts
  { id := t.id
    family := t.family
    description := t.description
    expectation := t.expectation
    overall := VerdictKind.worst (verdicts.map (·.kind))
    checkpointsRun := verdicts.countP fun verdict => verdict.kind ≠ .unstable
    checkpointsTotal := t.checkpointsTotal
    firstFailure := verdicts.find? fun verdict => !verdict.kind.isPass
    verdicts }

end Tally

/-- Whether each id has a place exactly where the tally with that id stands. -/
def ArePlaces (places : Std.TreeMap String Nat) (tallies : List Tally) : Prop :=
  ∀ id place,
    places[id]? = some place ↔ ∃ tally : Tally, tallies[place]? = some tally ∧ tally.id = id

namespace ArePlaces

theorem empty : ArePlaces ∅ [] := by
  intro id place
  simp

variable {places : Std.TreeMap String Nat} {tallies : List Tally}

/-- No two tallies have the same id. -/
theorem place_unique (h : ArePlaces places tallies) {i j : Nat} {a b : Tally}
    (ha : tallies[i]? = some a) (hb : tallies[j]? = some b) (hid : a.id = b.id) : i = j := by
  have hi : places[b.id]? = some i := (h b.id i).2 ⟨a, ha, hid⟩
  have hj : places[b.id]? = some j := (h b.id j).2 ⟨b, hb, rfl⟩
  exact Option.some.inj (hi.symm.trans hj)

/-- A tally with a new id goes to the end. -/
theorem append (h : ArePlaces places tallies) (tally : Tally) (hnew : places[tally.id]? = none) :
    ArePlaces (places.insert tally.id tallies.length) (tallies ++ [tally]) := by
  intro id place
  have hinsert : (places.insert tally.id tallies.length)[id]? =
      if tally.id = id then some tallies.length else places[id]? := by
    simp [Std.TreeMap.getElem?_insert]
  rw [hinsert]
  by_cases hid : tally.id = id
  · subst hid
    rw [if_pos rfl, Option.some.injEq]
    constructor
    · rintro rfl
      exact ⟨tally, by simp, rfl⟩
    · rintro ⟨other, hother, hid⟩
      rcases Nat.lt_or_ge place tallies.length with hlt | hge
      · -- an earlier tally with this id would have had its place
        rw [List.getElem?_append_left hlt] at hother
        rw [(h tally.id place).2 ⟨other, hother, hid⟩] at hnew
        cases hnew
      · have hlength := (List.getElem?_eq_some_iff.1 hother).1
        rw [List.length_append, List.length_singleton] at hlength
        omega
  · rw [if_neg hid, h id place]
    constructor
    · rintro ⟨other, hother, hname⟩
      refine ⟨other, ?_, hname⟩
      rw [List.getElem?_append_left (List.getElem?_eq_some_iff.1 hother).1, hother]
    · rintro ⟨other, hother, hname⟩
      refine ⟨other, ?_, hname⟩
      rw [List.getElem?_append] at hother
      split at hother
      · exact hother
      · have hlast := List.mem_of_getElem? hother
        rw [List.mem_singleton.1 hlast] at hname
        exact absurd hname hid

/-- A change that keeps the ids keeps the places. -/
theorem modify (h : ArePlaces places tallies) {f : Tally → Tally} (hf : ∀ t, (f t).id = t.id)
    (place : Nat) : ArePlaces places (tallies.modify place f) := by
  intro id other
  rw [h id other, List.getElem?_modify]
  cases tallies[other]? with
  | none => simp
  | some tally => by_cases hplace : place = other <;> simp [hplace, hf]

end ArePlaces

structure Collection where
  suite : String
  tallies : List Tally
  /-- The places of the tallies, by id. -/
  places : Std.TreeMap String Nat
  arePlaces : ArePlaces places tallies

namespace Collection

/-- The collection of a suite before its first scenario. -/
def start (suite : String) : Collection := ⟨suite, [], ∅, .empty⟩

/-- The collection with the scenario in it, and the place of its tally. -/
def slot (c : Collection) (s : Scenario) : Collection × Nat :=
  match h : c.places[s.id]? with
  | some place => (c, place)
  | none =>
    ({ c with
        tallies := c.tallies ++ [Tally.start s]
        places := c.places.insert s.id c.tallies.length
        arePlaces := c.arePlaces.append (Tally.start s) h }, c.tallies.length)

/-- The collection with the scenario in it. -/
def register (c : Collection) (s : Scenario) : Collection := (c.slot s).1

def record (c : Collection) (s : Scenario) (verdict : Verdict) : Collection :=
  let (c, place) := c.slot s
  { c with
    tallies := c.tallies.modify place fun tally => tally.add verdict
    arePlaces := c.arePlaces.modify (fun tally => tally.add_id verdict) place }

def recordAll (c : Collection) (s : Scenario) (verdicts : List Verdict) : Collection :=
  verdicts.foldl (fun c verdict => c.record s verdict) (c.register s)

end Collection

def SuiteReport.ofScenarios (suite : String) (scenarios : List ScenarioReport) : SuiteReport :=
  { suite
    totalScenarios := scenarios.length
    passed := scenarios.countP fun s => s.overall.isPass
    failed := scenarios.countP fun s => s.isFailure && s.expectation = .strict
    advisoryFailures := scenarios.countP fun s => s.isFailure && s.expectation = .advisory
    verdictCounts := Counts.ofKinds (scenarios.map (·.overall))
    checkpointCounts := Counts.ofKinds (scenarios.flatMap fun s => s.verdicts.map (·.kind))
    scenarios }

def Collection.report (c : Collection) : SuiteReport :=
  SuiteReport.ofScenarios c.suite (c.tallies.map Tally.report)

end TierCheck
