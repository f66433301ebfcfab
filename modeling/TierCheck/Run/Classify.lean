import TierCheck.Judgement
import TierCheck.Subject.Basic
import TierCheck.Text.Line
/-!
# Verdicts of a transcript

A transcript should show, for each checkpoint of the scenario in turn, that it was reached and what
the result was, and after the last one that the script is done. Where it stops short, the next
checkpoint has the verdict for that; anything else out of place is a failure of the run. Chatter
does not count.

* `judge`: the verdict of a result.
* `classify`: the verdicts of a transcript.
-/

namespace TierCheck

structure Criteria where
  /-- The relative tolerance of floating point results. -/
  tolerance : Double := standardTolerance
  /-- The greatest length of a scalar's text that is not suspect. -/
  lengthThreshold : Nat := standardLengthThreshold
  /-- The deadline of a run. -/
  timeout : Timespan := .ofSeconds 30
deriving DecidableEq, Repr

namespace Criteria

def agreement (c : Criteria) (s : Scenario) : Agreement :=
  { kind := s.returns, zeroSign := s.zeroSign, tolerance := c.tolerance }

/-- The verdict of a result that was reported at a checkpoint. -/
def judge (c : Criteria) (s : Scenario) (checkpoint : Checkpoint) (actual : Value) (raw : String) :
    Verdict :=
  let expected := s.expectedAt checkpoint
  let verdict (kind : VerdictKind) (detail : Option String) : Verdict :=
    { kind, checkpoint := checkpoint.name, expected := expected.text, actual := actual.text, raw,
      detail }
  if (c.agreement s).holds actual expected then verdict .pass none
  else
    match actual.corruption? s.returns c.lengthThreshold with
    | some corruption => verdict .corrupted corruption.message
    | none => verdict .wrongValue none

/-- The verdict of a checkpoint that the transcript does not get to. -/
def missing (c : Criteria) (t : Transcript) (checkpoint : Checkpoint) : Verdict :=
  match t.ending with
  | .timedOut =>
    { kind := .timeout
      checkpoint := checkpoint.name
      detail := "no result within " ++ c.timeout.text }
  | .exited _ _ =>
    let errors := trim t.errors
    { kind := .crashed
      checkpoint := checkpoint.name
      detail := "SUT ended (" ++ t.ending.text ++ ") before reporting" ++
        if errors = "" then "" else "; stderr: " ++ lastLine errors }

/-- The verdict of a checkpoint on the way to which the function threw. -/
def thrown (checkpoint : Checkpoint) (message : String) : Verdict :=
  { kind := .crashed
    checkpoint := checkpoint.name
    raw := message
    detail := "uncaught exception: " ++ firstLine message }

/-- The verdicts of the checkpoints that are still to come, from the events that are left. -/
def classifyFrom (c : Criteria) (s : Scenario) (t : Transcript) :
    List Checkpoint → List Event → Except Failure (List Verdict)
  | [], [] => .ok []
  | [], .done :: _ => .ok []
  | [], event :: _ => .error (.outOfOrder s.id "DONE" event.describe)
  | checkpoint :: _, [] => .ok [c.missing t checkpoint]
  | checkpoint :: _, .fault name message :: _ =>
    if name = checkpoint.name then .ok [thrown checkpoint message]
    else .error (.outOfOrder s.id checkpoint.name name)
  | checkpoint :: later, .checkpoint name :: events =>
    if name = checkpoint.name then
      match events with
      | [] => .ok [c.missing t checkpoint]
      | .result value raw :: events => do
        return c.judge s checkpoint value raw :: (← classifyFrom c s t later events)
      | event :: _ => .error (.outOfOrder s.id checkpoint.name event.describe)
    else .error (.outOfOrder s.id checkpoint.name name)
  | checkpoint :: _, event :: _ => .error (.outOfOrder s.id checkpoint.name event.describe)

def classify (c : Criteria) (s : Scenario) (t : Transcript) : Except Failure (List Verdict) :=
  c.classifyFrom s t s.checkpoints (t.events.filter fun event => !event.isChatter)

end Criteria

end TierCheck
