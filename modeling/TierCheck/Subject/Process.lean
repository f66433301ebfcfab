import TierCheck.Event.Line
import TierCheck.FileTree
import TierCheck.Subject.Basic
import TierCheck.Subject.TailReader
import TierCheck.Text.Blank
import TierCheck.Text.Utf8
/-!
# Subjects that are programs

A program runs a probe in a process of its own, with the probe's file as its last argument. What
the process prints is read line by line up to the end of its output or the deadline. Of its error
output only the end is kept, however the bytes arrive.

How processes run is left to a launcher, which has a state of its own. It also answers for the
directory in which the files of the probes are: every step on the way to a transcript that the
machine can refuse has an answer that says so.

What only shows in the log is left out: the log itself, a process that cannot be killed, and a file
that cannot be removed from the directory. The output of a process that is started is always a pipe.

* `ProcessEnd`: how a process comes to its end, as its reader sees it.
* `ProcessRun.transcript`: what is read of the output.
* `collectTail`: the end of the error output.
* `Invocation.ofEnvironment`, `Invocation.derive`: which program is run, with which arguments.
* `Launcher`, `Invocation.subject`: the machine, and a program on it as a subject.
-/

namespace TierCheck

structure Invocation where
  label : String
  program : String
  arguments : List String := []
deriving DecidableEq, Repr, Inhabited

namespace Invocation

/-- The program at a path without arguments. Its label is its file's name. -/
def ofProgram (program : String) : Invocation :=
  { label := (Path.fileName? program).getD "sut", program }

/-- The invocation with more arguments. -/
def withArguments (i : Invocation) (arguments : List String) : Invocation :=
  { i with arguments := i.arguments ++ arguments }

/-- The invocation that an environment names: a program, and arguments between blanks. -/
def ofEnvironment (env : Environment) : Except SettingFault Invocation :=
  match env.value? "TIERPROBE_SUT" with
  | none => .error .noProgram
  | some program =>
    .ok ((ofProgram program).withArguments
      (terms isBlank ((env "TIERPROBE_SUT_ARGS").getD "")))

/-- The invocation that a profile derives from this one. A profile is a name and a list of further
arguments between commas, with an equals sign between the two. -/
def derive (i : Invocation) (profile : String) : Except SettingFault Invocation :=
  match splitOnce? '=' profile.toList with
  | none => .error (.profileShape profile)
  | some (name, arguments) =>
    let label := trim (String.ofList name)
    if label = "" ∨ hasBlank label then .error (.profileName profile)
    else
      let extra := (pieces (· = ',') arguments).map fun argument => trim (String.ofList argument)
      .ok { i with label, arguments := i.arguments ++ extra.filter (· ≠ "") }

end Invocation

/-- How a process comes to its end. It is waited for once its output has ended. -/
inductive ProcessEnd where
  /-- It closes its output and ends before the deadline, with a code or by a signal. -/
  | exited (code signal : Option Int)
  /-- It closes its output and is still there at the deadline. -/
  | lingering
  /-- Its output is open at the deadline. -/
  | timedOut
  /-- Its output cannot be read any further. -/
  | unreadable (cause : String)
  /-- It closes its output and cannot be waited for. -/
  | unwaited (cause : String)
deriving DecidableEq, Repr

namespace ProcessEnd

def clean : ProcessEnd := exited (some 0) none

/-- Whether the output is read up to its end. -/
def closesOutput : ProcessEnd → Bool
  | exited _ _ | lingering | unwaited _ => true
  | timedOut | unreadable _ => false

/-- The ending that the transcript tells of. -/
def ending : ProcessEnd → Except Failure Ending
  | exited code signal => .ok (.exited code signal)
  | lingering | timedOut => .ok .timedOut
  | unreadable cause | unwaited cause => .error (.inputOutput cause)

end ProcessEnd

structure ProcessRun where
  /-- The bytes of the output that are read. -/
  output : List UInt8
  /-- The bytes of the error output, as they arrived. An arrival without bytes is its end. -/
  errors : List (List UInt8)
  ending : ProcessEnd
deriving DecidableEq, Repr

/-- The end of what arrives piece by piece. -/
def collectTail (limit : Nat) (arrivals : List (List UInt8)) : List UInt8 :=
  TailReader.read limit (arrivals.map .ok)

/-- The number of bytes of error output that are kept. -/
def errorTail : Nat := 8192

namespace ProcessRun

/-- The lines of the output, without their line ends. What follows the last line feed is a line
only if the output came to its end. -/
def lines (r : ProcessRun) : List (List UInt8) :=
  let parts := pieces (· = 10) r.output
  let last := parts.getLast?.getD []
  let unfinished := if !r.ending.closesOutput ∨ last = [] then [] else [last]
  (parts.dropLast ++ unfinished).map fun line =>
    if line.getLast? = some 13 then line.dropLast else line

def events (r : ProcessRun) : Except MalformedLine (List Event) :=
  r.lines.mapM fun line => Event.read (Utf8.decode line)

/-- The transcript of the process. A line is read as soon as it is there, so a malformed one is
found before anything that happens later. -/
def transcript (r : ProcessRun) : Except Failure Transcript := do
  let events ← r.events.mapError .malformedLine
  return ⟨events, ← r.ending.ending, Utf8.decode (collectTail errorTail r.errors)⟩

end ProcessRun

structure Launch where
  /-- What the machine's clock showed when the process was started. -/
  clock : Timespan := ⟨0⟩
  run : ProcessRun
  /-- Whether the error output is still open a while after the process is gone, held by another
  process. Nothing of it is kept then. -/
  errorsOpen : Bool := false
deriving DecidableEq, Repr

def Launch.transcript (l : Launch) : Except Failure Transcript :=
  ProcessRun.transcript { l.run with errors := if l.errorsOpen then [] else l.run.errors }

inductive LaunchFault where
  /-- The file of the probe cannot be written. -/
  | unwritten (cause : String)
  /-- The program cannot be started. -/
  | unspawned (cause : String)
deriving DecidableEq, Repr

/-- The machine that processes run on, with states of type `τ`. Whatever is asked of it changes its
state, and it may refuse for a cause given in words. -/
structure Launcher (τ : Type) where
  launch : τ → Invocation → Probe → Timespan → Except LaunchFault Launch × τ
  /-- Makes a directory for the files of the probes. -/
  makeScratch : τ → Except String Unit × τ := fun world => (.ok (), world)
  /-- Goes through the directory and removes the files. -/
  clearScratch : τ → Except String Unit × τ := fun world => (.ok (), world)

structure ProcessState (τ : Type) where
  world : τ
  executions : Nat := 0
  resets : Nat := 0

/-- The state before anything is asked of the program. -/
def Launcher.start {τ : Type} (launcher : Launcher τ) (world : τ) :
    Except Failure (ProcessState τ) :=
  match launcher.makeScratch world with
  | (.ok (), world) => .ok { world }
  | (.error cause, _) => .error (.inputOutput cause)

namespace Invocation

variable {τ : Type}

/-- Runs a probe in a process of its own. A deadline that the clock never shows cannot be waited
for. -/
def execute (i : Invocation) (launcher : Launcher τ) (state : ProcessState τ) (probe : Probe)
    (limit : Timespan) : Except Failure Transcript × ProcessState τ :=
  let (result, world) := launcher.launch state.world i probe limit
  let executed := { state with world, executions := state.executions + 1 }
  match result with
  | .error (.unwritten cause) => (.error (.inputOutput cause), { state with world })
  | .error (.unspawned cause) => (.error (.unreachable i.program cause), executed)
  | .ok launch =>
    if Timespan.clockEnd.nanoseconds ≤ launch.clock.nanoseconds + limit.nanoseconds then
      (.error (.pastClock i.label), executed)
    else (launch.transcript, executed)

/-- Every process is a new one, so only old files of probes are left to clear away. -/
def reset (launcher : Launcher τ) (state : ProcessState τ) :
    Except Failure Unit × ProcessState τ :=
  let (result, world) := launcher.clearScratch state.world
  (result.mapError .inputOutput, { state with world, resets := state.resets + 1 })

def subject (i : Invocation) (launcher : Launcher τ) : Subject (ProcessState τ) :=
  { label := i.label, execute := i.execute launcher, reset := reset launcher }

end Invocation

end TierCheck
