import TierCheck.Event.Line
import TierCheck.Subject.Basic
/-!
# Subjects without a script engine

A mimic knows the right results of some scenarios, and a behaviour decides at each checkpoint what
it does: give a value, throw, hang or exit. The behaviour sees which checkpoint of which scenario it
is and how often the scenario ran, and it may remember what it likes.

A playback gives recorded transcripts in turn, whatever probe it is handed, and keeps the probes. A
recording is read line by line when it is played, and a malformed line fails the run of the probe
then. When all recordings are used up, nothing is printed and the ending is clean.

* `Mimic.faithful`: a mimic that gives the right results.
* `Playback.subject`: the subject that plays back.
-/

namespace TierCheck

/-! ## Mimics -/

structure MimicCall where
  scenario : String
  checkpoint : String
  /-- The place of the checkpoint. -/
  index : Nat
  /-- How often the scenario ran, this time included. -/
  run : Nat
  /-- The right result, if it is known. -/
  expected : Option Value

inductive MimicResponse where
  | value (v : Value)
  /-- The function throws. -/
  | fault (message : String)
  /-- Nothing more is printed until the deadline. -/
  | hang
  /-- The subject exits with a code. -/
  | exit (code : Int)
deriving DecidableEq, Repr

/-- A subject that is imitated, with a memory of type `μ`. -/
structure Mimic (μ : Type) where
  label : String := "fake"
  /-- The right results of the scenarios that are known, by id. Of two entries for an id the last
  one counts. -/
  known : List (String × List Value) := []
  behaviour : μ → MimicCall → MimicResponse × μ
  /-- The batches that are reported for a probe without checkpoints. -/
  samples : List (Nat × Double) := []

structure MimicState (μ : Type) where
  memory : μ
  /-- The scenarios that were executed, the last one first. -/
  executed : List String := []
  resets : Nat := 0

namespace Mimic

variable {μ : Type}

def knowledge (scenarios : List Scenario) : List (String × List Value) :=
  scenarios.map fun s => (s.id, s.expectedResults)

/-- The right result at a checkpoint, if it is known. -/
def expected? (m : Mimic μ) (id : String) (index : Nat) : Option Value :=
  (m.known.reverse.find? fun (other, _) => other = id).bind fun (_, values) => values[index]?

/-- The transcript from the checkpoint number `index` on, and the memory after it. -/
def respond (m : Mimic μ) (id : String) (run : Nat) :
    μ → Nat → List String → Transcript × μ
  | memory, _, [] => (⟨[.done], .clean, ""⟩, memory)
  | memory, index, name :: rest =>
    match m.behaviour memory ⟨id, name, index, run, m.expected? id index⟩ with
    | (.value v, memory) =>
      let (t, memory) := respond m id run memory (index + 1) rest
      (⟨.checkpoint name :: .result v v.text :: t.events, t.ending, t.errors⟩, memory)
    | (.fault message, memory) => (⟨[.fault name message], .clean, ""⟩, memory)
    | (.hang, memory) => (⟨[], .timedOut, ""⟩, memory)
    | (.exit code, memory) =>
      (⟨[], .exited (some code) none, "fake runtime exited with " ++ Ending.integerText code⟩,
        memory)

/-- The transcript of a probe without checkpoints. -/
def timingTranscript (m : Mimic μ) : Transcript :=
  ⟨(m.samples.map fun (calls, elapsed) => .sample calls elapsed) ++ [.done], .clean, ""⟩

def execute (m : Mimic μ) (state : MimicState μ) (probe : Probe) (_limit : Timespan) :
    Except Failure Transcript × MimicState μ :=
  let run := state.executed.count probe.id + 1
  let (transcript, memory) :=
    if probe.checkpoints = [] then (m.timingTranscript, state.memory)
    else m.respond probe.id run state.memory 0 probe.checkpoints
  (.ok transcript, { state with memory, executed := probe.id :: state.executed })

def reset (state : MimicState μ) : Except Failure Unit × MimicState μ :=
  (.ok (), { state with resets := state.resets + 1 })

def subject (m : Mimic μ) : Subject (MimicState μ) :=
  { label := m.label, execute := m.execute, reset }

/-- The behaviour of giving the right result, and `undefined` where it is not known. -/
def giveExpected (memory : μ) (call : MimicCall) : MimicResponse × μ :=
  (.value (call.expected.getD .undefined), memory)

/-- A mimic that knows the scenarios and gives the right results. -/
def faithful (scenarios : List Scenario) : Mimic Unit :=
  { known := knowledge scenarios, behaviour := giveExpected }

end Mimic

/-! ## Playbacks -/

structure Recording where
  lines : List String
  ending : Ending := .clean
  errors : String := ""
deriving DecidableEq, Repr

def Recording.transcript (r : Recording) : Except Failure Transcript := do
  let events ← (r.lines.mapM Event.read).mapError .malformedLine
  return ⟨events, r.ending, r.errors⟩

structure Playback where
  recordings : List Recording
  /-- The probes that were executed, the last one first. -/
  executed : List Probe := []
  resets : Nat := 0

namespace Playback

def execute (p : Playback) (probe : Probe) (_limit : Timespan) :
    Except Failure Transcript × Playback :=
  ((p.recordings.head?.getD { lines := [] }).transcript,
    { p with recordings := p.recordings.tail, executed := probe :: p.executed })

def reset (p : Playback) : Except Failure Unit × Playback :=
  (.ok (), { p with resets := p.resets + 1 })

def subject (label : String) : Subject Playback := { label, execute, reset }

end Playback

end TierCheck
