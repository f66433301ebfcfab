import TierCheck.Run.Suite
/-!
# Suites side by side

The suites of several subjects run side by side. Each is a task of its own, on its own subject and
from its own state. A step of a task is one operation on its subject, and the steps of the tasks may
come in any order.

One more party takes turns with them, the coordinator. It starts the tasks one after another and
then waits for each of them in that order. It returns the first failure that it finds, or the
reports of all. Tasks that were started go on when it has returned.

* `Task.step?`: one operation of a task.
* `SideBySide.step?`, `SideBySide.after?`: one turn, and several turns.
-/

namespace TierCheck

/-- The task after its next operation on a subject, and the state that this leaves. There is none if
the task is done. -/
def Task.step? {α σ : Type} (subject : Subject σ) : Task α → σ → Option (Task α × σ)
  | done _, _ => none
  | execute probe limit next, state =>
    match subject.execute state probe limit with
    | (.ok transcript, state) => some (next transcript, state)
    | (.error failure, state) => some (done (.error failure), state)
  | reset next, state =>
    match subject.reset state with
    | (.ok (), state) => some (next, state)
    | (.error failure, state) => some (done (.error failure), state)

/-- A suite that was started, as far as it has come. -/
structure Running (σ : Type) where
  subject : Subject σ
  task : Task SuiteReport
  state : σ

namespace Running

variable {σ : Type}

/-- The suite of a subject before its first operation. -/
def start (c : Settings) (scenarios : List Scenario) : Subject σ × σ → Running σ
  | (subject, state) => ⟨subject, c.runSuite subject.label scenarios, state⟩

def step? (r : Running σ) : Option (Running σ) :=
  (r.task.step? r.subject r.state).map fun (task, state) => { r with task, state }

end Running

inductive Coordinator (σ : Type) where
  /-- The suites of these subjects are still to be started. -/
  | starting (waiting : List (Subject σ × σ))
  /-- These reports have been collected. -/
  | joining (reports : List SuiteReport)
  | returned (result : Except Failure CombinedReport)

def Coordinator.result? {σ : Type} : Coordinator σ → Option (Except Failure CombinedReport)
  | returned result => some result
  | _ => none

/-- The suites that were started, in the order of their subjects, and the coordinator. -/
structure SideBySide (σ : Type) where
  started : List (Running σ)
  coordinator : Coordinator σ

inductive Turn where
  | coordinator
  /-- The suite at this place. -/
  | suite (place : Nat)
deriving DecidableEq, Repr

namespace SideBySide

variable {σ : Type} (c : Settings) (scenarios : List Scenario)

/-- Nothing has been started. -/
def start (subjects : List (Subject σ × σ)) : SideBySide σ := ⟨[], .starting subjects⟩

/-- The coordinator's turn. It has none while it waits for a suite, and when it has returned. -/
def coordinate? (system : SideBySide σ) : Option (SideBySide σ) :=
  match system.coordinator with
  | .starting (first :: waiting) =>
    some ⟨system.started ++ [.start c scenarios first], .starting waiting⟩
  | .starting [] => some { system with coordinator := .joining [] }
  | .joining reports =>
    match system.started[reports.length]? with
    | none => some { system with coordinator := .returned (.ok ⟨reports⟩) }
    | some running =>
      match running.task with
      | .done (.ok report) => some { system with coordinator := .joining (reports ++ [report]) }
      | .done (.error failure) => some { system with coordinator := .returned (.error failure) }
      | _ => none
  | .returned _ => none

def step? (system : SideBySide σ) : Turn → Option (SideBySide σ)
  | .coordinator => system.coordinate? c scenarios
  | .suite place => do
    let running ← system.started[place]?
    let running ← running.step?
    return { system with started := system.started.set place running }

/-- Several turns, if they can be taken. -/
def after? : SideBySide σ → List Turn → Option (SideBySide σ)
  | system, [] => some system
  | system, turn :: turns => do after? (← system.step? c scenarios turn) turns

end SideBySide

end TierCheck
