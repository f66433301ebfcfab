import TierCheck.Script.Probe
import TierCheck.Subject.Basic
/-!
# Finding a schedule by timing

When a subject puts faster code in place of slower code, calls suddenly take less time. The timing
probe reports how long batches of calls take. Where the time per call falls to half of what it was,
or less, a checkpoint is placed at the end of that batch.

* `Calibration.schedule?`: the schedule that timed batches suggest.
* `Calibration.run`: times a subject.
-/

namespace TierCheck

structure Calibration where
  /-- The number of calls so far, held in 64 bits. -/
  total : Nat := 0
  /-- The time per call since the last checkpoint. -/
  level : Option Double := none
  /-- The checkpoints so far. -/
  checkpoints : List Checkpoint := []
deriving DecidableEq, Repr

namespace Calibration

/-- A natural number held at the greatest one of 64 bits. -/
def saturate (n : Nat) : Nat := min n (wordLimit 64 - 1)

/-- One more batch: its number of calls, and the milliseconds they took. A batch of no calls or in
no time only counts toward the total. -/
def step (c : Calibration) (batch : Nat × Double) : Calibration :=
  let (calls, elapsed) := batch
  let total := saturate (c.total + calls)
  let cost := elapsed / Double.ofNat calls
  if calls = 0 ∨ elapsed ≤ Double.zero then { c with total }
  else
    match c.level with
    | none => { total, level := some cost, checkpoints := [⟨"interpreted", total, 0⟩] }
    | some level =>
      if cost * Double.ofNat 2 ≤ level then
        { total
          level := some cost
          checkpoints :=
            c.checkpoints ++ [⟨"tier-" ++ naturalText c.checkpoints.length, total, 0⟩] }
      else { c with total }

/-- The schedule that timed batches suggest: the end of the first batch that can be measured, each
end of a batch that was faster, and twice the last of those. There is none if no batch was
faster. -/
def schedule? (batches : List (Nat × Double)) : Option Schedule :=
  let checkpoints := (batches.foldl step {}).checkpoints
  match checkpoints.getLast? with
  | none => none
  | some last =>
    if checkpoints.length < 2 then none
    else
      (Schedule.ofCheckpoints
        (checkpoints ++ [⟨"steady", saturate (2 * last.iterations), 0⟩])).toOption

def batches (t : Transcript) : List (Nat × Double) :=
  t.events.filterMap fun
    | .sample calls elapsed => some (calls, elapsed)
    | _ => none

def calls : Nat := 65536

/-- Times a subject. One that does not get through is reset and suggests no schedule. -/
def run (limit : Timespan) : Task (Option Schedule) :=
  .execute (Script.timing calls) limit fun transcript =>
    if transcript.ending.isClean then pure (schedule? (batches transcript))
    else .reset (pure none)

end Calibration

end TierCheck
