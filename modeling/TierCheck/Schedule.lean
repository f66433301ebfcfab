import TierCheck.Number.Decimal
import TierCheck.Text.Blank
import TierCheck.Text.Line
/-!
# Warm-up schedules

A scenario calls its function many times, and a checkpoint names a number of calls after which the
result is sampled. A schedule is a list of checkpoints with increasing counts.

* `checkpointFault?`: the first thing wrong with a list of checkpoints.
* `Schedule.ofCheckpoints`: the schedule of a list with nothing wrong.
* `Schedule.read`: a schedule from the text a user writes, such as `warm=10,hot=1_000`.
-/

namespace TierCheck

/-- A point of a warm-up at which the result is sampled. -/
structure Checkpoint where
  name : String
  /-- The number of calls made in all when the sample is taken. -/
  iterations : Nat
  /-- Which of the scenario's argument sets the calls since the checkpoint before are made with. -/
  argumentSet : Nat := 0
deriving DecidableEq, Repr, Inhabited

inductive CheckpointFault where
  /-- The list is empty. -/
  | noCheckpoints
  /-- The first checkpoint comes before the first call. -/
  | beforeFirstCall (name : String)
  /-- A checkpoint does not come after the one before it. -/
  | notAfter (later earlier : Checkpoint)
  /-- A name that cannot stand in a report line: empty, with a blank or with a quote. -/
  | invalidName (name : String)
  /-- A name that two checkpoints have. -/
  | duplicateName (name : String)
deriving DecidableEq, Repr

def CheckpointFault.message : CheckpointFault → String
  | noCheckpoints => "no checkpoints"
  | beforeFirstCall name => "checkpoint " ++ quoted name ++ " samples after 0 iterations"
  | notAfter later earlier =>
    "checkpoint " ++ quoted later.name ++ " (" ++ naturalText later.iterations ++
      ") does not come after " ++ quoted earlier.name ++ " (" ++
      naturalText earlier.iterations ++ ")"
  | invalidName name => "invalid checkpoint name " ++ quoted name
  | duplicateName name => "duplicate checkpoint name " ++ quoted name

/-- Whether a name can stand in a report line. -/
def isCheckpointName (name : String) : Bool :=
  name ≠ "" && !hasBlank name && !name.toList.contains '"'

/-- The first checkpoint that does not come after the one before it. -/
def orderFault? : List Checkpoint → Option CheckpointFault
  | earlier :: later :: rest =>
    if later.iterations ≤ earlier.iterations then some (.notAfter later earlier)
    else orderFault? (later :: rest)
  | _ => none

/-- The first name that cannot stand in a report line or is among those already seen. -/
def nameFault? (seen : List String) : List Checkpoint → Option CheckpointFault
  | [] => none
  | checkpoint :: rest =>
    if !isCheckpointName checkpoint.name then some (.invalidName checkpoint.name)
    else if checkpoint.name ∈ seen then some (.duplicateName checkpoint.name)
    else nameFault? (checkpoint.name :: seen) rest

/-- The first thing wrong with a list of checkpoints: order comes before names. -/
def checkpointFault? (checkpoints : List Checkpoint) : Option CheckpointFault :=
  match checkpoints with
  | [] => some .noCheckpoints
  | first :: _ =>
    if first.iterations = 0 then some (.beforeFirstCall first.name)
    else (orderFault? checkpoints).or (nameFault? [] checkpoints)

/-- The number of calls made when the last checkpoint is sampled. -/
def warmup (checkpoints : List Checkpoint) : Nat :=
  (checkpoints.getLast?.map (·.iterations)).getD 0

structure Schedule where
  checkpoints : List Checkpoint
deriving DecidableEq, Repr

inductive ScheduleFault where
  /-- The text `count` stands for no number of calls. -/
  | invalidCount (count schedule : String)
  /-- The text names no checkpoint. -/
  | noTerms (schedule : String)
  /-- The checkpoints are no schedule. -/
  | checkpoints (fault : CheckpointFault)
deriving DecidableEq, Repr

def ScheduleFault.message : ScheduleFault → String
  | invalidCount count schedule =>
    "invalid checkpoint iteration count " ++ quoted count ++ " in schedule " ++ quoted schedule
  | noTerms schedule => "schedule " ++ quoted schedule ++ " has no checkpoints"
  | checkpoints fault => "schedule: " ++ fault.message

namespace Schedule

/-- The schedule used when none is given. -/
def standard : Schedule :=
  ⟨[⟨"interpreted", 10, 0⟩, ⟨"warm", 100, 0⟩, ⟨"simple-jit", 500, 0⟩, ⟨"full-jit", 2000, 0⟩,
    ⟨"full-jit-steady", 5000, 0⟩]⟩

/-- The schedule of a list of checkpoints with nothing wrong. -/
def ofCheckpoints (checkpoints : List Checkpoint) : Except ScheduleFault Schedule :=
  match checkpointFault? checkpoints with
  | some fault => .error (.checkpoints fault)
  | none => .ok ⟨checkpoints⟩

/-- The natural number below `2 ^ 64` that a user writes, in which underscores group digits. -/
def readGrouped? (s : List Char) : Option Nat := readNatural? (wordLimit 64) (s.filter (· ≠ '_'))

/-- One term of the text: a count, or a name with a count. A checkpoint without a name is named by
its count. -/
def readTerm (schedule term : String) : Except ScheduleFault Checkpoint :=
  let (name, count) := (splitOnce? '=' term.toList).getD ([], term.toList)
  match readGrouped? count with
  | none => .error (.invalidCount (String.ofList count) schedule)
  | some n => .ok { name := if name = [] then "cp" ++ naturalText n else String.ofList name,
                    iterations := n }

/-- The schedule that a text describes: terms between commas, semicolons and blanks. -/
def read (text : String) : Except ScheduleFault Schedule := do
  let checkpoints ← (terms isListSeparator text).mapM (readTerm text)
  if checkpoints = [] then throw (.noTerms text)
  ofCheckpoints checkpoints

end Schedule

end TierCheck
