import TierCheck.Failure
import TierCheck.Script.Probe
import TierCheck.Timespan
/-!
# Subjects and tasks

A subject is whatever runs probes: it takes a probe with a deadline and gives a transcript of what
happened, and it can be brought back to a clean state. Nothing else is known of it, so a subject is
a state with these two operations on it; either may fail and so end the run.

A task is work that needs a subject, written down as data: it is finished, with a result or a
failure, or it asks for one operation and goes on with the answer. A task says nothing of the
subject, and every operation it asks for can be seen in it.

* `Task.bind`: one task after another. A failure ends both.
* `Task.run`: the task on a subject. A failure of the subject ends the task.
-/

namespace TierCheck

inductive Ending where
  /-- The subject ended by itself, with a code or by a signal. -/
  | exited (code signal : Option Int)
  /-- The deadline passed and the subject was stopped. -/
  | timedOut
deriving DecidableEq, Repr, Inhabited

namespace Ending

/-- The ending of a subject that did its work. -/
def clean : Ending := exited (some 0) none

def isClean (e : Ending) : Bool := e = clean

/-- The digits of an integer, with its sign if it is negative. -/
def integerText : Int → String
  | .ofNat n => naturalText n
  | .negSucc n => "-" ++ naturalText (n + 1)

/-- The ending in words. A signal says more than a code. -/
def text : Ending → String
  | exited _ (some signal) => "killed by signal " ++ integerText signal
  | exited (some code) none => "exit code " ++ integerText code
  | exited none none => "exited without status"
  | timedOut => "timed out"

end Ending

structure Transcript where
  events : List Event
  ending : Ending
  /-- The end of what the subject wrote to its error output. -/
  errors : String := ""
deriving DecidableEq, Repr, Inhabited

/-- Something that runs probes, with states of type `σ`. -/
structure Subject (σ : Type) where
  label : String
  execute : σ → Probe → Timespan → Except Failure Transcript × σ
  reset : σ → Except Failure Unit × σ

/-! ## Tasks -/

/-- Work that needs a subject. -/
inductive Task (α : Type) where
  | done (result : Except Failure α)
  | execute (probe : Probe) (limit : Timespan) (next : Transcript → Task α)
  | reset (next : Task α)

namespace Task

variable {α β σ : Type}

/-- The second task with the result of the first. -/
def bind (t : Task α) (f : α → Task β) : Task β :=
  match t with
  | done (.ok a) => f a
  | done (.error failure) => done (.error failure)
  | execute probe limit next => execute probe limit fun transcript => (next transcript).bind f
  | reset next => reset (next.bind f)

instance : Monad Task where
  pure a := done (.ok a)
  bind := bind

/-- The task that has this result. -/
def ofExcept (result : Except Failure α) : Task α := done result

/-- The task on a subject in a state: its result, and the state it leaves. -/
def run (subject : Subject σ) : Task α → σ → Except Failure α × σ
  | done result, state => (result, state)
  | execute probe limit next, state =>
    match subject.execute state probe limit with
    | (.ok transcript, state) => run subject (next transcript) state
    | (.error failure, state) => (.error failure, state)
  | reset next, state =>
    match subject.reset state with
    | (.ok (), state) => run subject next state
    | (.error failure, state) => (.error failure, state)

end Task

end TierCheck
