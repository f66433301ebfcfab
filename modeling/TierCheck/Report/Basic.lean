import TierCheck.Judgement
import TierCheck.Scenario.Basic
/-!
# Reports

A report tells how each scenario of a suite fared and counts the results. Only strict scenarios
fail a suite. A combined report holds the reports of several suites in the order in which they were
asked for, and fails if one of them does.

A report counts by the names of verdict kinds. The counts are kept in the order of the names, each
name once, so that equal counts are equal as values and are written alike.

* `Counts.insert`: a count set, whether or not its name was there.
* `Counts.get`: the count of a name, zero for one that is not there.
* `Counts.ofKinds`: how often each kind occurs.
* `ScenarioReport`, `SuiteReport`, `CombinedReport`: the reports, with their exit codes.
-/

namespace TierCheck

/-! ## Counts by name -/

/-- Puts a name's count in its place, in front of the first greater name. -/
def insertCount (name : String) (count : Nat) : List (String × Nat) → List (String × Nat)
  | [] => [(name, count)]
  | (other, n) :: rest =>
    if name < other then (name, count) :: (other, n) :: rest
    else if name = other then (name, count) :: rest
    else (other, n) :: insertCount name count rest

/-- Whether the names increase. -/
def IsOrdered (entries : List (String × Nat)) : Prop := entries.Pairwise fun a b => a.1 < b.1

theorem mem_insertCount {name : String} {count : Nat} {entry : String × Nat}
    {entries : List (String × Nat)} (h : entry ∈ insertCount name count entries) :
    entry.1 = name ∨ entry ∈ entries := by
  induction entries with
  | nil => simp_all [insertCount]
  | cons first rest ih =>
    obtain ⟨other, n⟩ := first
    rw [insertCount] at h
    split at h
    · rcases List.mem_cons.1 h with rfl | h
      · exact Or.inl rfl
      · exact Or.inr h
    · split at h
      · rcases List.mem_cons.1 h with rfl | h
        · exact Or.inl rfl
        · exact Or.inr (List.mem_cons_of_mem _ h)
      · rcases List.mem_cons.1 h with rfl | h
        · exact Or.inr List.mem_cons_self
        · exact (ih h).imp id (List.mem_cons_of_mem _)

theorem IsOrdered.insertCount (name : String) (count : Nat) {entries : List (String × Nat)}
    (h : IsOrdered entries) : IsOrdered (insertCount name count entries) := by
  induction entries with
  | nil => simp [TierCheck.insertCount, IsOrdered]
  | cons first rest ih =>
    obtain ⟨other, n⟩ := first
    obtain ⟨hfirst, hrest⟩ := List.pairwise_cons.1 h
    rw [TierCheck.insertCount]
    split
    · next hlt =>
      refine List.pairwise_cons.2 ⟨fun entry hmem => ?_, h⟩
      rcases List.mem_cons.1 hmem with rfl | hmem
      · exact hlt
      · exact String.lt_trans hlt (hfirst entry hmem)
    · next hnlt =>
      split
      · next heq => exact List.pairwise_cons.2 ⟨heq ▸ hfirst, hrest⟩
      · next hne =>
        have hlt : other < name := Std.lt_of_le_of_ne (String.not_lt.1 hnlt) (Ne.symm hne)
        refine List.pairwise_cons.2 ⟨fun entry hmem => ?_, ih hrest⟩
        rcases mem_insertCount hmem with hname | hmem
        · exact hname ▸ hlt
        · exact hfirst entry hmem

/-- Counts by name, in the order of the names. -/
structure Counts where
  entries : List (String × Nat)
  ordered : IsOrdered entries
deriving DecidableEq

namespace Counts

def empty : Counts := ⟨[], List.Pairwise.nil⟩

instance : Inhabited Counts := ⟨empty⟩

def insert (c : Counts) (name : String) (count : Nat) : Counts :=
  ⟨insertCount name count c.entries, c.ordered.insertCount name count⟩

/-- The counts of a list, the last one of a name. -/
def ofList (l : List (String × Nat)) : Counts :=
  l.foldl (fun c (name, count) => c.insert name count) empty

def get (c : Counts) (name : String) : Nat :=
  ((c.entries.find? fun entry => entry.1 = name).map (·.2)).getD 0

/-- How often each kind occurs, zeros included. -/
def ofKinds (kinds : List VerdictKind) : Counts :=
  ofList (VerdictKind.all.map fun kind => (kind.name, kinds.count kind))

end Counts

/-! ## Reports -/

structure ScenarioReport where
  id : String
  family : Family
  description : String
  expectation : Expectation
  /-- The worst kind among the verdicts. -/
  overall : VerdictKind
  /-- The number of checkpoints with a verdict. -/
  checkpointsRun : Nat
  checkpointsTotal : Nat
  firstFailure : Option Verdict
  verdicts : List Verdict
deriving DecidableEq

namespace ScenarioReport

/-- Whether the scenario is not as it should be. -/
def isFailure (r : ScenarioReport) : Bool := !r.overall.isPass

/-- The first verdict of the worst kind. -/
def decisive? (r : ScenarioReport) : Option Verdict :=
  r.verdicts.find? fun verdict => verdict.kind = r.overall

end ScenarioReport

structure SuiteReport where
  suite : String
  totalScenarios : Nat
  passed : Nat
  /-- The number of strict scenarios that failed. -/
  failed : Nat
  /-- The number of advisory scenarios that failed. -/
  advisoryFailures : Nat
  /-- The scenarios by their worst verdict. -/
  verdictCounts : Counts
  /-- The verdicts of all checkpoints by kind. -/
  checkpointCounts : Counts
  scenarios : List ScenarioReport
deriving DecidableEq

namespace SuiteReport

/-- Whether no strict scenario failed. -/
def isSuccess (r : SuiteReport) : Bool := r.failed = 0

def exitCode (r : SuiteReport) : Nat := if r.isSuccess then 0 else 1

def scenario? (r : SuiteReport) (id : String) : Option ScenarioReport :=
  r.scenarios.find? fun scenario => scenario.id = id

end SuiteReport

structure CombinedReport where
  suites : List SuiteReport
deriving DecidableEq

namespace CombinedReport

/-- Whether every suite succeeded. -/
def isSuccess (r : CombinedReport) : Bool := r.suites.all SuiteReport.isSuccess

/-- The greatest exit code of the suites. -/
def exitCode (r : CombinedReport) : Nat := (r.suites.map SuiteReport.exitCode).max?.getD 0

end CombinedReport

end TierCheck
