import TierCheck.Calibration
import TierCheck.CommandLine.Flags
import TierCheck.FileTree
import TierCheck.Report.Document
import TierCheck.Report.Render
import TierCheck.Run.Suite
import TierCheck.Subject.Process
/-!
# What a command line does

The settings come from the environment, and the command line overrides them. The scenarios are then
listed, or run with each profile of the program. What comes of it is an exit code, a text to print,
a diagnosis or a report; nothing is printed or written here. Whether the report can be written is
up to the machine, and an effect says what is left of it if it cannot. The log that a run keeps is
left out, and so is an output that cannot be printed.

* `CommandLine.execute`: the whole program for a list of words.
* `runEnvironment`: the same for an environment alone, without a command line.
* `Effect.on`: the effect on a machine with a given file tree.
-/

namespace TierCheck

structure ReportFile where
  path : String
  text : String
  /-- Whether the summary is printed before the file is written. -/
  printedFirst : Bool
  /-- What the diagnosis says in front of the cause if the file cannot be written. -/
  complaint : String
deriving DecidableEq, Repr

/-- What the program leaves behind. -/
structure Effect where
  exitCode : Nat
  /-- What is printed. -/
  output : String := ""
  /-- What is wrong, on the error output. -/
  diagnosis : Option String := none
  /-- The file that is written. -/
  report : Option ReportFile := none
deriving DecidableEq, Repr

namespace Effect

/-- The exit code of a failure of the run and of a command line that is refused. -/
def failureCode : Nat := 2

/-- The exit code of a program that stops at once. -/
def stopCode : Nat := 101

def ofMessage (message : String) : Effect :=
  { exitCode := failureCode, diagnosis := some ("tierprobe: " ++ message) }

def stop : Effect := { exitCode := stopCode }

/-- The effect of a report whose summary is printed before the file is written. -/
def ofReport (report : CombinedReport) (path : Option String) : Effect :=
  { exitCode := report.exitCode
    output := report.render
    report := path.map fun path =>
      { path
        text := report.toJson.pretty
        printedFirst := true
        complaint := "write report " ++ path } }

/-- The effect of a report whose summary is printed only after the file is written. -/
def ofStoredReport (report : CombinedReport) (path : Option String) : Effect :=
  { exitCode := report.exitCode
    output := report.render
    report := path.map fun path =>
      { path, text := report.toJson.pretty, printedFirst := false, complaint := "I/O error" } }

/-- What is left of the effect if its file cannot be written. -/
def withoutReport (e : Effect) (cause : String) : Effect :=
  match e.report with
  | none => e
  | some file =>
    { ofMessage (file.complaint ++ ": " ++ cause) with
      output := if file.printedFirst then e.output else "" }

/-- The effect on a machine with the file tree. -/
def on (e : Effect) (tree : FileTree) : Effect :=
  match e.report with
  | none => e
  | some file =>
    match tree.writeFile file.path with
    | .ok _ => e
    | .error fault => e.withoutReport fault.message

end Effect

inductive CommandFailure where
  /-- The settings of the environment cannot be used. -/
  | environment (failure : Failure)
  /-- The number of runs does not fit 32 bits. -/
  | tooManyRuns
  | run (failure : Failure)
deriving DecidableEq, Repr

/-- The failure with the cause under it. -/
def Failure.chain (f : Failure) : String :=
  match f with
  | .unreachable _ cause | .inputOutput cause => f.message ++ ": " ++ cause
  | f => f.message

def CommandFailure.effect : CommandFailure → Effect
  | environment .timeoutOverflow => .stop
  | environment failure => .ofMessage ("read TIERPROBE_* configuration: " ++ failure.chain)
  | tooManyRuns =>
    .ofMessage "--stability-runs is too large: number too large to fit in target type"
  | run .timeoutOverflow => .stop
  | run failure => .ofMessage failure.chain

/-- The settings with those that a command line gives, in range. -/
def Overrides.apply (o : Overrides) (s : Settings) : Except CommandFailure Settings := do
  let runs := o.runs.getD s.runs
  if wordLimit 32 ≤ runs then throw .tooManyRuns
  let settings : Settings :=
    { plan :=
        { schedule := o.schedule.getD s.plan.schedule
          registerLimit := o.registerLimit.getD s.plan.registerLimit
          chunkBytes := o.chunkBytes.getD s.plan.chunkBytes }
      criteria :=
        { tolerance := o.tolerance.getD s.criteria.tolerance
          lengthThreshold := o.lengthThreshold.getD s.criteria.lengthThreshold
          timeout := o.timeout.getD s.criteria.timeout }
      runs
      filter := o.filter.or s.filter
      advisory := o.advisory.or s.advisory }
  settings.check.mapError .run
  return settings

namespace CommandLine

variable {τ : Type}

def listLine (s : Scenario) : String :=
  s.id ++ "\t" ++ s.family.name ++ "\t" ++ s.description ++ "\n"

def settings (c : CommandLine) (env : Environment) : Except CommandFailure Settings := do
  c.overrides.apply (← (Settings.ofEnvironment env).mapError .environment)

/-- The program as it is run with each profile. Without profiles it is run once, as it is. -/
def invocations (c : CommandLine) (env : Environment) : Except SettingFault (List Invocation) := do
  let named ← match c.program with
    | some program => pure (Invocation.ofProgram program)
    | none => Invocation.ofEnvironment env
  let base := named.withArguments c.arguments
  if c.profiles = [] then return [base] else c.profiles.mapM base.derive

/-- The subjects of several invocations, each with a launcher's state of its own. All of them are
there before the first one is used. -/
def subjects (launcher : Launcher τ) (world : τ) :
    List Invocation → Except Failure (List (Subject (ProcessState τ) × ProcessState τ))
  | [] => .ok []
  | invocation :: rest => do
    let state ← launcher.start world
    return (invocation.subject launcher, state) :: (← subjects launcher state.world rest)

/-- The failure of what the program itself waits for. A deadline past the end of the clock then
stops the program. -/
def inProgram : Failure → Failure
  | .pastClock _ => .timeoutOverflow
  | failure => failure

/-- The schedule that timing the first invocation suggests, with the launcher's state after it. If
it suggests none, the schedule stays as it is. -/
def calibrated (launcher : Launcher τ) (world : τ) (invocations : List Invocation)
    (s : Settings) : Except Failure (Settings × τ) :=
  match invocations.head? with
  | none => .ok (s, world)
  | some first => do
    let state ← launcher.start world
    let (result, state) :=
      (Calibration.run s.criteria.timeout).run (first.subject launcher) state
    match ← result.mapError inProgram with
    | some schedule => return ({ s with plan := { s.plan with schedule } }, state.world)
    | none => return (s, state.world)

def runProfiles (c : CommandLine) (launcher : Launcher τ) (world : τ) (env : Environment)
    (s : Settings) : Except Failure CombinedReport := do
  let invocations ← (c.invocations env).mapError .invalidSetting
  let (s, world) ←
    if c.calibrate then calibrated launcher world invocations s else pure (s, world)
  let catalog ← s.selection
  s.runSuites catalog.toList (← subjects launcher world invocations)

def effect (c : CommandLine) (launcher : Launcher τ) (world : τ) (env : Environment) : Effect :=
  let result : Except CommandFailure Effect := do
    let s ← c.settings env
    if c.list then
      let catalog ← s.selection.mapError .run
      return { exitCode := 0, output := String.join (catalog.toList.map listLine) }
    else
      let report ← (c.runProfiles launcher world env s).mapError .run
      return .ofReport report c.reportPath
  match result with
  | .ok effect => effect
  | .error failure => failure.effect

/-- What the program does for a list of words. -/
def execute (launcher : Launcher τ) (world : τ) (env : Environment) (words : List String) :
    Effect :=
  match read words with
  | .ok c => c.effect launcher world env
  | .error .usage => { exitCode := Effect.failureCode }
  | .error .timeoutOverflow => .stop

end CommandLine

/-- The report of the scenarios that an environment selects, run on the program it names. -/
def reportEnvironment {τ : Type} (launcher : Launcher τ) (world : τ) (env : Environment) :
    Except Failure CombinedReport := do
  let invocation ← (Invocation.ofEnvironment env).mapError .invalidSetting
  let s ← Settings.ofEnvironment env
  let catalog ← s.selection
  s.runSuites catalog.toList (← CommandLine.subjects launcher world [invocation])

/-- What the program does for an environment alone. The environment also names the report's
file. -/
def runEnvironment {τ : Type} (launcher : Launcher τ) (world : τ) (env : Environment) : Effect :=
  match reportEnvironment launcher world env with
  | .ok report => .ofStoredReport report (env "TIERPROBE_REPORT_PATH")
  | .error .timeoutOverflow => .stop
  | .error failure => .ofMessage failure.message

end TierCheck
