import TierCheck.Value.Basic
/-!
# Events

A script tells what happens by printing lines. Each line is one event: a checkpoint is reached, a
result is reported, the function threw, a batch of calls was timed, or the script is done. Any
other line is chatter of the subject.
-/

namespace TierCheck

/-- What one line of a script's output says. -/
inductive Event where
  | checkpoint (name : String)
  /-- A result with the text it was reported by. -/
  | result (value : Value) (raw : String)
  /-- The function threw on the way to a checkpoint. -/
  | fault (checkpoint message : String)
  /-- A batch of calls and the milliseconds it took. -/
  | sample (iterations : Nat) (elapsed : Double)
  | done
  | chatter (text : String)
deriving DecidableEq, Repr, Inhabited

/-- Whether the line is none of the script's own. -/
def Event.isChatter : Event → Bool
  | .chatter _ => true
  | _ => false

/-- The event as a diagnosis shows it. -/
def Event.describe : Event → String
  | .checkpoint name => "CHECKPOINT:" ++ name
  | .result _ raw => "RESULT " ++ quoted raw
  | .fault name _ => "FAULT:" ++ name
  | .sample iterations _ => "SAMPLE:" ++ naturalText iterations
  | .done => "DONE"
  | .chatter text => text

inductive LineFault where
  | emptyCheckpoint
  | missingKind
  | payload
  | invalidBoolean (text : String)
  | invalidNumber (text : String)
  | unknownKind (kind : String)
  | missingFaultCheckpoint
  | emptyFaultCheckpoint
  | missingElapsed
  | invalidIterations
  | invalidElapsed
deriving DecidableEq, Repr

def LineFault.message : LineFault → String
  | emptyCheckpoint => "empty checkpoint name"
  | missingKind => "missing value kind"
  | payload => "payload is not a JSON string: a single string literal is expected"
  | invalidBoolean text => "invalid boolean text " ++ quoted text
  | invalidNumber text => "invalid number text " ++ quoted text
  | unknownKind kind => "unknown value kind " ++ quoted kind
  | missingFaultCheckpoint => "missing fault checkpoint"
  | emptyFaultCheckpoint => "empty fault checkpoint"
  | missingElapsed => "missing sample elapsed time"
  | invalidIterations => "invalid sample iteration count"
  | invalidElapsed => "invalid sample elapsed time"

structure MalformedLine where
  line : String
  fault : LineFault
deriving DecidableEq, Repr

def MalformedLine.message (m : MalformedLine) : String :=
  "malformed sentinel line " ++ quoted m.line ++ ": " ++ m.fault.message

end TierCheck
