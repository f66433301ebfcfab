import TierCheck.Settings
/-!
# The command line

A command line is a row of flags. Most take a value, either behind an equals sign or as the next
word; only a few may be given more than once. There are no words besides flags, so a command line
that holds one is refused, as is one with an unknown or repeated flag or a value that cannot be
read. Values are read from left to right as they come.

* `CommandLine.read`: the command line that a list of words describes.
-/

namespace TierCheck

inductive Flag where
  | sut
  | sutArg
  | profile
  | schedule
  | tolerance
  | corruptionThreshold
  | timeoutSecs
  | registerLimit
  | chunkBytes
  | filter
  | advisory
  | stabilityRuns
  | reportJson
  | list
  | calibrate
deriving DecidableEq, Repr

namespace Flag

def all : List Flag :=
  [sut, sutArg, profile, schedule, tolerance, corruptionThreshold, timeoutSecs, registerLimit,
    chunkBytes, filter, advisory, stabilityRuns, reportJson, list, calibrate]

/-- The name of a flag, without the dashes in front. -/
def name : Flag → String
  | sut => "sut"
  | sutArg => "sut-arg"
  | profile => "profile"
  | schedule => "schedule"
  | tolerance => "tolerance"
  | corruptionThreshold => "corruption-threshold"
  | timeoutSecs => "timeout-secs"
  | registerLimit => "register-limit"
  | chunkBytes => "chunk-bytes"
  | filter => "filter"
  | advisory => "advisory"
  | stabilityRuns => "stability-runs"
  | reportJson => "report-json"
  | list => "list"
  | calibrate => "calibrate"

def takesValue : Flag → Bool
  | list | calibrate => false
  | _ => true

def isRepeatable : Flag → Bool
  | sutArg | profile => true
  | _ => false

/-- Whether the word after the flag is its value. A word that looks like a flag is none, except for
an argument of the program, which may look like anything. -/
def acceptsWord (f : Flag) (word : String) : Bool :=
  f = sutArg || word.toList.head? ≠ some '-' || word = "-"

/-- The flag that a word gives, with what stands behind the equals sign. -/
def ofWord? (word : String) : Option (Flag × Option String) := do
  let body ← after? "--" word.toList
  let (name, attached) :=
    match splitOnce? '=' body with
    | some (name, value) => (String.ofList name, some (String.ofList value))
    | none => (String.ofList body, none)
  let flag ← all.find? fun flag => flag.name = name
  return (flag, attached)

end Flag

structure Overrides where
  schedule : Option Schedule := none
  tolerance : Option Double := none
  lengthThreshold : Option Nat := none
  timeout : Option Timespan := none
  registerLimit : Option Nat := none
  chunkBytes : Option Nat := none
  runs : Option Nat := none
  filter : Option String := none
  advisory : Option String := none
deriving DecidableEq, Repr

structure CommandLine where
  /-- The program to run. -/
  program : Option String := none
  /-- Arguments of the program. -/
  arguments : List String := []
  profiles : List String := []
  overrides : Overrides := {}
  /-- The file that the report is written to. -/
  reportPath : Option String := none
  /-- Whether the selected scenarios are only listed. -/
  list : Bool := false
  /-- Whether the schedule is found by timing. -/
  calibrate : Bool := false
deriving DecidableEq, Repr

inductive Refusal where
  /-- It is none of the program's. -/
  | usage
  /-- A deadline in it is too large for a time span, which ends the program. -/
  | timeoutOverflow
deriving DecidableEq, Repr

/-- The value of a setting that can be read. -/
def readValue {α : Type} (result : Except SettingFault α) : Except Refusal α :=
  result.mapError fun _ => .usage

def readDeadline (text : String) : Except Refusal Timespan :=
  (readTimeout "--timeout-secs" text).mapError fun
    | .timeoutOverflow => .timeoutOverflow
    | _ => .usage

/-- The settings with the value of a flag. Flags that give no setting leave them as they are. -/
def Overrides.withValue (o : Overrides) (flag : Flag) (text : String) :
    Except Refusal Overrides := do
  match flag with
  | .schedule => return { o with schedule := ← readValue (readSchedule text) }
  | .tolerance => return { o with tolerance := ← readValue (readTolerance "--tolerance" text) }
  | .corruptionThreshold =>
    return { o with lengthThreshold := ← readValue (readCount "value" text) }
  | .timeoutSecs => return { o with timeout := ← readDeadline text }
  | .registerLimit => return { o with registerLimit := ← readValue (readCount "value" text) }
  | .chunkBytes => return { o with chunkBytes := ← readValue (readCount "value" text) }
  | .stabilityRuns => return { o with runs := ← readValue (readCount "value" text) }
  | .filter => return { o with filter := text }
  | .advisory => return { o with advisory := text }
  | _ => return o

namespace CommandLine

/-- The value of a path, which is not empty. -/
def readPath (text : String) : Except Refusal String :=
  if text = "" then .error .usage else .ok text

/-- The command line with a flag and its value. -/
def withValue (c : CommandLine) (flag : Flag) (text : String) : Except Refusal CommandLine := do
  match flag with
  | .sut => return { c with program := ← readPath text }
  | .sutArg => return { c with arguments := c.arguments ++ [text] }
  | .profile => return { c with profiles := c.profiles ++ [text] }
  | .reportJson => return { c with reportPath := ← readPath text }
  | flag => return { c with overrides := ← c.overrides.withValue flag text }

/-- The command line with a flag that takes no value. -/
def withSwitch (c : CommandLine) (flag : Flag) : CommandLine :=
  match flag with
  | .list => { c with list := true }
  | .calibrate => { c with calibrate := true }
  | _ => c

/-- Reads the words that are left, when the flags in `seen` were given before. Two dashes alone end
the flags, and nothing may follow them. -/
def readFrom (c : CommandLine) (seen : List Flag) : List String → Except Refusal CommandLine
  | [] => .ok c
  | word :: rest =>
    if word = "--" then (if rest = [] then .ok c else .error .usage)
    else
      match Flag.ofWord? word with
      | none => .error .usage
      | some (flag, attached) =>
        if flag ∈ seen ∧ !flag.isRepeatable then .error .usage
        else if !flag.takesValue then
          if attached.isSome then .error .usage
          else readFrom (c.withSwitch flag) (flag :: seen) rest
        else
          match attached, rest with
          | some text, rest => do readFrom (← c.withValue flag text) (flag :: seen) rest
          | none, [] => .error .usage
          | none, text :: rest =>
            if flag.acceptsWord text then do
              readFrom (← c.withValue flag text) (flag :: seen) rest
            else .error .usage

/-- The command line that the words describe. -/
def read (words : List String) : Except Refusal CommandLine := readFrom {} [] words

end CommandLine

end TierCheck
