import TierCheck.Proofs.CommandLine.Overrides
import TierCheck.Proofs.Report.Balance
import TierCheck.Proofs.Run.Mishaps
import TierCheck.Proofs.Settings.Selection

/-!
# What comes of a command line

A run goes through several stages, and at each of them something can be wrong about the run itself:
its settings, its selection, its profiles, the directories for the files of its probes, the timing
of the program, or a call of a suite, which the machine can refuse as well. Then the exit code is
that of a failure and nothing is left behind, also if the suites of other profiles have their
reports. Otherwise the summary is printed, the report is written, and only strict scenarios
count. A listing is made before anything is started and shows the ids that a run would report on.

A deadline can be too large. One of `2 ^ 64` seconds stops the program where it is read. A smaller
one that ends past the clock is a failure of a suite, but stops the program if it waits for the
timing.

* `CommandLine.GoesWrong`, `CommandLine.Stops`: what can be wrong, and when the program stops.
* `CommandLine.listedIds`: the ids that are read off a listing.
* `CommandLine.execute_outcome`: the result, and `CommandLine.execute_timing`: a command line that
  stops the program.
-/
namespace TierCheck

/-! ## Subjects that are programs -/

section

variable {τ : Type} {launcher : Launcher τ}

theorem ProcessRun.transcript_ne_pastClock (r : ProcessRun) (label : String) :
    r.transcript ≠ .error (.pastClock label) := by
  intro h
  rcases bind_eq_error_iff.1 h with h | ⟨_, -, h⟩
  · obtain ⟨_, -, hline⟩ := mapError_eq_error_iff.1 h
    cases hline
  · rcases bind_eq_error_iff.1 h with h | ⟨_, -, h⟩
    · cases hending : r.ending <;> rw [hending] at h <;> cases h
    · cases h

theorem Invocation.execute_eq_pastClock_iff {i : Invocation} {state : ProcessState τ}
    {probe : Probe} {limit : Timespan} :
    (∃ label, (i.execute launcher state probe limit).1 = .error (.pastClock label)) ↔
      ∃ launch, (launcher.launch state.world i probe limit).1 = .ok launch ∧
        Timespan.clockEnd.nanoseconds ≤ launch.clock.nanoseconds + limit.nanoseconds := by
  rw [i.execute_answer]
  rcases (launcher.launch state.world i probe limit).1 with (_ | _) | launch
  · simp
  · simp
  · by_cases hlate : Timespan.clockEnd.nanoseconds ≤ launch.clock.nanoseconds + limit.nanoseconds
    · simp [hlate]
    · have htranscript : ∀ label, launch.transcript ≠ .error (.pastClock label) :=
        ProcessRun.transcript_ne_pastClock _
      simp [hlate, htranscript]

theorem Launcher.exists_of_start {world : τ} {failure : Failure}
    (h : launcher.start world = .error failure) : ∃ cause, failure = .inputOutput cause := by
  unfold start at h
  split at h
  · cases h
  · next cause _ _ =>
    cases h
    exact ⟨cause, rfl⟩

/-- All subjects of a command line are programs, and only their directories can be missing. -/
theorem CommandLine.subjects_cases (launcher : Launcher τ) (world : τ)
    (invocations : List Invocation) :
    (∃ subjects, CommandLine.subjects launcher world invocations = .ok subjects ∧
      ∀ p ∈ subjects, ∃ i ∈ invocations, p.1 = i.subject launcher) ∨
    ∃ cause, CommandLine.subjects launcher world invocations = .error (.inputOutput cause) := by
  induction invocations generalizing world with
  | nil => exact .inl ⟨[], rfl, fun _ hmem => nomatch hmem⟩
  | cons i rest ih =>
    rw [subjects]
    cases hstart : launcher.start world with
    | error failure =>
      obtain ⟨cause, rfl⟩ := Launcher.exists_of_start hstart
      exact .inr ⟨cause, rfl⟩
    | ok state =>
      rcases ih state.world with ⟨others, hothers, hprogram⟩ | ⟨cause, hcause⟩
      · refine .inl ⟨(i.subject launcher, state) :: others, ?_, ?_⟩
        · simp only [bind, Except.bind, hothers]
          rfl
        · refine List.forall_mem_cons.2 ⟨⟨i, List.mem_cons_self, rfl⟩, fun p hp => ?_⟩
          obtain ⟨j, hj, hsubject⟩ := hprogram p hp
          exact ⟨j, List.mem_cons_of_mem _ hj, hsubject⟩
      · refine .inr ⟨cause, ?_⟩
        simp only [bind, Except.bind, hcause]

end

/-! ## Timing -/

/-- The program cannot be timed: there is no directory for the files, or a call fails. -/
inductive Invocation.TimingFails {τ : Type} (i : Invocation) (launcher : Launcher τ) (world : τ)
    (limit : Timespan) : Failure → Prop where
  | scratch {failure : Failure} (h : launcher.start world = .error failure) :
    TimingFails i launcher world limit failure
  | call {state : ProcessState τ} (hstart : launcher.start world = .ok state) {call : Call}
    (hcall : call ∈ (Calibration.run limit).calls (i.subject launcher) state) {failure : Failure}
    (h : call.failure? = some failure) : TimingFails i launcher world limit failure

namespace Calibration

variable {σ : Type} {subject : Subject σ} {state : σ} {limit : Timespan} {failure : Failure}

/-- The timing of a subject fails only with the subject, when it is executed or reset. -/
theorem exists_failure?_of_run (h : ((run limit).run subject state).1 = .error failure) :
    (∃ call ∈ (run limit).calls subject state, call.failure? = some failure) ∧
      ((subject.execute state (Script.timing calls) limit).1 = .error failure ∨
        ∃ after, (subject.reset after).1 = .error failure) := by
  rw [run, Task.run] at h
  rw [run, Task.calls]
  rcases hanswer : subject.execute state (Script.timing calls) limit with ⟨other | t, after⟩
  · rw [hanswer] at h
    obtain rfl := Except.error.inj h
    exact ⟨⟨_, List.mem_singleton_self _, rfl⟩, .inl rfl⟩
  · rw [hanswer] at h
    dsimp only at h ⊢
    by_cases hclean : t.ending.isClean = true
    · rw [if_pos hclean] at h
      cases h
    · rw [if_neg hclean, Task.run] at h
      rw [if_neg hclean, Task.calls]
      rcases hreset : subject.reset after with ⟨other | _, last⟩
      · rw [hreset] at h
        obtain rfl := Except.error.inj h
        refine ⟨⟨_, List.mem_cons_of_mem _ (List.mem_singleton_self _), rfl⟩, .inr ⟨after, ?_⟩⟩
        rw [hreset]
      · rw [hreset] at h
        cases h

end Calibration

namespace Invocation

variable {τ : Type} {i : Invocation} {launcher : Launcher τ} {world : τ} {limit : Timespan}

theorem TimingFails.isOfProgram {failure : Failure}
    (h : i.TimingFails launcher world limit failure) : failure.IsOfProgram := by
  cases h with
  | scratch h =>
    obtain ⟨cause, rfl⟩ := Launcher.exists_of_start h
    exact .inputOutput cause
  | call _ hcall hfailure => exact i.isOfProgram_of_mem_calls _ _ _ hcall _ hfailure

/-- A deadline past the end of the clock is that of the process that is timed. -/
theorem TimingFails.exists_launch {label : String}
    (h : i.TimingFails launcher world limit (.pastClock label)) :
    ∃ state launch, launcher.start world = .ok state ∧
      (launcher.launch state.world i (Script.timing Calibration.calls) limit).1 = .ok launch ∧
      Timespan.clockEnd.nanoseconds ≤ launch.clock.nanoseconds + limit.nanoseconds := by
  cases h with
  | scratch h =>
    obtain ⟨_, hcause⟩ := Launcher.exists_of_start h
    cases hcause
  | @call state hstart call hcall _ h =>
    rcases (Calibration.exists_failure?_of_run (Task.run_of_failure? hcall h)).2 with
      h | ⟨_, h⟩
    · obtain ⟨launch, hlaunch, hlate⟩ := execute_eq_pastClock_iff.1 ⟨label, h⟩
      exact ⟨state, launch, hstart, hlaunch, hlate⟩
    · obtain ⟨_, hcause⟩ := exists_of_reset h
      cases hcause

end Invocation

/-! ## Exit codes and effects -/

namespace CombinedReport

/-- Some suite has a strict scenario that does not pass. -/
def HasStrictFailure (r : CombinedReport) : Prop :=
  ∃ suite ∈ r.suites, ∃ s ∈ suite.scenarios, s.expectation = .strict ∧ s.overall ≠ .pass

variable {r : CombinedReport}

theorem isSuccess_iff (h : ∀ suite ∈ r.suites, ∃ (label : String) (reports : List ScenarioReport),
    suite = .ofScenarios label reports) : r.isSuccess = true ↔ ¬r.HasStrictFailure := by
  have hsuite : ∀ suite ∈ r.suites, suite.isSuccess = true ↔
      ∀ s ∈ suite.scenarios, s.expectation = .strict → s.overall = .pass := by
    intro suite hmem
    obtain ⟨label, reports, rfl⟩ := h suite hmem
    exact SuiteReport.isSuccess_ofScenarios_iff
  rw [isSuccess, List.all_eq_true, forall₂_congr hsuite]
  simp only [HasStrictFailure, not_exists, not_and, Classical.not_not]

end CombinedReport

theorem Effect.on_ofReport {report : CombinedReport} {path : Option String} {tree : FileTree}
    (h : ∀ file, path = some file → ∃ written, tree.writeFile file = .ok written) :
    (ofReport report path).on tree = .ofReport report path := by
  cases path with
  | none => rfl
  | some file =>
    obtain ⟨written, hwritten⟩ := h file rfl
    simp [on, ofReport, hwritten]

/-- A failure of a run is told unless it stops the program. -/
theorem CommandFailure.exists_message {failure : Failure}
    (h : failure ≠ .timeoutOverflow) :
    ∃ message, (CommandFailure.run failure).effect = .ofMessage message := by
  cases failure <;> first | exact absurd rfl h | exact ⟨_, rfl⟩

namespace CommandLine

/-! ## Listings -/

/-- The ids of a listing: of each line what stands before the first tab. -/
def listedIds (output : String) : List String :=
  (lines output).map fun line =>
    ((splitOnce? '\t' line.toList).map fun cut => String.ofList cut.1).getD line

/-- The line of a listed scenario without its end. -/
def listRow (s : Scenario) : String := s.id ++ "\t" ++ s.family.name ++ "\t" ++ s.description

theorem listedIds_join {l : List Scenario}
    (h : ∀ s ∈ l, IsId s.id ∧ IsOneLine s.description) :
    listedIds (String.join (l.map listLine)) = l.map (·.id) := by
  have hrows : ∀ line ∈ l.map listRow, IsOneLine line := by
    intro line hline
    obtain ⟨s, hs, rfl⟩ := List.mem_map.1 hline
    have htab : IsOneLine "\t" := by constructor <;> decide
    have hfamily : IsOneLine s.family.name := by
      cases s.family <;> exact isOneLine_of_eq_ofList rfl (by decide)
    have hid := isOneLine_of_hasBlank (h s hs).1.hasBlank
    exact isOneLine_append (isOneLine_append (isOneLine_append (isOneLine_append hid htab) hfamily)
      htab) (h s hs).2
  have hlines : lines (String.join (l.map listLine)) = l.map listRow := by
    have hlisted : l.map listLine = (l.map listRow).map (· ++ "\n") := by
      rw [List.map_map]
      rfl
    rw [hlisted, ← String.append_empty (s := String.join _), lines_join_append hrows]
    exact List.append_nil _
  rw [listedIds, hlines, List.map_map]
  refine List.map_congr_left fun s hs => ?_
  have htab : '\t' ∉ s.id.toList := fun hmem => absurd ((h s hs).1 _ hmem) (by decide)
  have hrow : (listRow s).toList =
      s.id.toList ++ '\t' :: (s.family.name ++ "\t" ++ s.description).toList := by
    simp [listRow]
  rw [Function.comp_apply, hrow, splitOnce?_append htab]
  exact String.ofList_toList

/-! ## The stages -/

variable {τ : Type}

/-- The settings of the suites, and the launcher's state that they start from. -/
def prepared (c : CommandLine) (launcher : Launcher τ) (world : τ) (invocations : List Invocation)
    (s : Settings) : Except Failure (Settings × τ) :=
  if c.calibrate then calibrated launcher world invocations s else .ok (s, world)

/-- The command line gets as far as its suites. -/
structure Prepares (c : CommandLine) (launcher : Launcher τ) (world : τ) (env : Environment)
    (invocations : List Invocation) (s : Settings) (after : τ) : Prop where
  runs : c.list = false
  program : c.invocations env = .ok invocations
  settings : ∃ original, c.settings env = .ok original ∧
    c.prepared launcher world invocations original = .ok (s, after)

/-- Something is wrong about the run itself. -/
inductive GoesWrong (c : CommandLine) (launcher : Launcher τ) (world : τ) (env : Environment) :
    Prop where
  | settings {failure : CommandFailure} (h : c.settings env = .error failure) :
    GoesWrong c launcher world env
  /-- The selection to be listed is refused. -/
  | listing {s : Settings} {failure : Failure} (hs : c.settings env = .ok s)
    (hlist : c.list = true) (h : s.selection = .error failure) : GoesWrong c launcher world env
  /-- There is no program, or a profile is refused. -/
  | profile {fault : SettingFault} (hlist : c.list = false)
    (h : c.invocations env = .error fault) : GoesWrong c launcher world env
  /-- The program cannot be timed. -/
  | timing {s : Settings} {first : Invocation} {rest : List Invocation} {failure : Failure}
    (hs : c.settings env = .ok s) (hlist : c.list = false) (hcalibrate : c.calibrate = true)
    (hprogram : c.invocations env = .ok (first :: rest))
    (h : first.TimingFails launcher world s.criteria.timeout failure) :
    GoesWrong c launcher world env
  /-- The selection to be run, for which there may be another schedule, is refused. -/
  | selection {invocations : List Invocation} {s : Settings} {after : τ} {failure : Failure}
    (hprepares : c.Prepares launcher world env invocations s after)
    (h : s.selection = .error failure) : GoesWrong c launcher world env
  /-- There is no directory for the files of some profile. -/
  | scratch {invocations : List Invocation} {s : Settings} {after : τ} {catalog : Catalog}
    {failure : Failure} (hprepares : c.Prepares launcher world env invocations s after)
    (hcatalog : s.selection = .ok catalog)
    (h : subjects launcher after invocations = .error failure) : GoesWrong c launcher world env
  /-- A call of the suite of some profile is a mishap. -/
  | suite {invocations : List Invocation} {s : Settings} {after : τ} {catalog : Catalog}
    {profiles : List (Subject (ProcessState τ) × ProcessState τ)}
    (hprepares : c.Prepares launcher world env invocations s after)
    (hcatalog : s.selection = .ok catalog)
    (hprofiles : subjects launcher after invocations = .ok profiles)
    {p : Subject (ProcessState τ) × ProcessState τ} (hp : p ∈ profiles) {call : Call}
    (hcall : call ∈ s.suiteCalls catalog.toList p)
    (h : call.IsMishap s.criteria catalog.toList) : GoesWrong c launcher world env

/-- A deadline stops the program. -/
inductive Stops (c : CommandLine) (launcher : Launcher τ) (world : τ) (env : Environment) :
    Prop where
  /-- It is too large for a time span. -/
  | reading (h : env.StopsAtDeadline) : Stops c launcher world env
  /-- The program waits for the timing, and the deadline is past the end of the clock. -/
  | timing {s : Settings} {first : Invocation} {rest : List Invocation} {state : ProcessState τ}
    {launch : Launch} (hs : c.settings env = .ok s) (hlist : c.list = false)
    (hcalibrate : c.calibrate = true) (hprogram : c.invocations env = .ok (first :: rest))
    (hstart : launcher.start world = .ok state)
    (hlaunch : (launcher.launch state.world first (Script.timing Calibration.calls)
      s.criteria.timeout).1 = .ok launch)
    (hlate : Timespan.clockEnd.nanoseconds ≤
      launch.clock.nanoseconds + s.criteria.timeout.nanoseconds) : Stops c launcher world env

/-- The command line, run on its program, comes to the report. -/
def Reports (c : CommandLine) (launcher : Launcher τ) (world : τ) (env : Environment)
    (report : CombinedReport) : Prop :=
  ∃ s, c.settings env = .ok s ∧ c.runProfiles launcher world env s = .ok report

variable {c : CommandLine} {launcher : Launcher τ} {world : τ} {env : Environment} {s : Settings}

/-! ### Settings -/

theorem effect_of_settings_error {failure : CommandFailure} (h : c.settings env = .error failure) :
    c.effect launcher world env = failure.effect := by
  unfold effect
  rw [h]
  rfl

theorem settings_eq_timeoutOverflow_iff :
    c.settings env = .error (.environment .timeoutOverflow) ↔ env.StopsAtDeadline := by
  rw [← Settings.ofEnvironment_eq_timeoutOverflow_iff, settings, bind_eq_error_iff,
    mapError_eq_error_iff]
  constructor
  · rintro (⟨failure, h, ⟨⟩⟩ | ⟨_, -, h⟩)
    · exact h
    · rcases Overrides.apply_eq_error h with h | ⟨_, h⟩ <;> cases h
  · exact fun h => .inl ⟨_, h, rfl⟩

/-- Any other failure of the settings is told. -/
theorem settings_eq_error {failure : CommandFailure} (h : c.settings env = .error failure) :
    failure = .environment .timeoutOverflow ∨ ∃ message, failure.effect = .ofMessage message := by
  rw [settings, bind_eq_error_iff, mapError_eq_error_iff] at h
  rcases h with ⟨_, h, rfl⟩ | ⟨_, -, h⟩
  · rcases Settings.ofEnvironment_eq_error h with ⟨fault, rfl⟩ | rfl
    · exact .inr ⟨_, rfl⟩
    · exact .inl rfl
  · rcases Overrides.apply_eq_error h with rfl | ⟨fault, rfl⟩ <;> exact .inr ⟨_, rfl⟩

/-! ### Timing -/

section

variable {first : Invocation} {rest : List Invocation}

theorem calibrated_of_run_error {state : ProcessState τ} (hstart : launcher.start world = .ok state)
    {failure : Failure} (h : ((Calibration.run s.criteria.timeout).run (first.subject launcher)
      state).1 = .error failure) :
    calibrated launcher world (first :: rest) s = .error (inProgram failure) := by
  unfold calibrated
  simp only [List.head?_cons, hstart, bind, Except.bind, h]
  rfl

theorem calibrated_of_timingFails {failure : Failure}
    (h : first.TimingFails launcher world s.criteria.timeout failure) :
    calibrated launcher world (first :: rest) s = .error (inProgram failure) := by
  cases h with
  | scratch h =>
    obtain ⟨cause, rfl⟩ := Launcher.exists_of_start h
    unfold calibrated
    simp only [List.head?_cons, h]
    rfl
  | call hstart hcall h => exact calibrated_of_run_error hstart (Task.run_of_failure? hcall h)

/-- Timing changes no setting but the schedule. -/
theorem calibrated_of_run_ok {state : ProcessState τ} (hstart : launcher.start world = .ok state)
    {schedule? : Option Schedule} (h : ((Calibration.run s.criteria.timeout).run
      (first.subject launcher) state).1 = .ok schedule?) :
    ∃ schedule after, calibrated launcher world (first :: rest) s =
      .ok ({ s with plan := { s.plan with schedule } }, after) := by
  unfold calibrated
  simp only [List.head?_cons, hstart, bind, Except.bind, h]
  cases schedule? with
  | none => exact ⟨s.plan.schedule, _, rfl⟩
  | some schedule => exact ⟨schedule, _, rfl⟩

end

/-- The settings of the suites are those of the command line but for the schedule. -/
theorem prepared_cases (c : CommandLine) (launcher : Launcher τ) (world : τ)
    (invocations : List Invocation) (s : Settings) :
    (∃ schedule after, c.prepared launcher world invocations s =
      .ok ({ s with plan := { s.plan with schedule } }, after)) ∨
    ∃ first rest failure, c.calibrate = true ∧ invocations = first :: rest ∧
      first.TimingFails launcher world s.criteria.timeout failure ∧
      c.prepared launcher world invocations s = .error (inProgram failure) := by
  unfold prepared
  by_cases hcalibrate : c.calibrate = true
  · rw [if_pos hcalibrate]
    cases invocations with
    | nil => exact .inl ⟨s.plan.schedule, world, rfl⟩
    | cons first rest =>
      refine (em (∃ failure, first.TimingFails launcher world s.criteria.timeout failure)).elim
        (fun ⟨failure, h⟩ => .inr ⟨first, rest, failure, hcalibrate, rfl, h,
          calibrated_of_timingFails h⟩) fun hnone => .inl ?_
      cases hstart : launcher.start world with
      | error failure => exact absurd ⟨failure, .scratch hstart⟩ hnone
      | ok state =>
        cases hrun : ((Calibration.run s.criteria.timeout).run (first.subject launcher) state).1 with
        | ok schedule? => exact calibrated_of_run_ok hstart hrun
        | error failure =>
          obtain ⟨⟨call, hcall, hfailure⟩, -⟩ := Calibration.exists_failure?_of_run hrun
          exact absurd ⟨failure, .call hstart hcall hfailure⟩ hnone
  · rw [if_neg hcalibrate]
    exact .inl ⟨s.plan.schedule, world, rfl⟩

/-! ### Runs -/

theorem runProfiles_eq (c : CommandLine) (launcher : Launcher τ) (world : τ) (env : Environment)
    (s : Settings) : c.runProfiles launcher world env s = (do
      let invocations ← (c.invocations env).mapError .invalidSetting
      let (s, after) ← c.prepared launcher world invocations s
      let catalog ← s.selection
      s.runSuites catalog.toList (← subjects launcher after invocations)) := by
  unfold runProfiles prepared
  cases c.invocations env <;> cases c.calibrate <;> rfl

theorem runProfiles_of_invocations_error {fault : SettingFault}
    (h : c.invocations env = .error fault) :
    c.runProfiles launcher world env s = .error (.invalidSetting fault) := by
  rw [runProfiles_eq, h]
  rfl

theorem runProfiles_of_prepared_error {invocations : List Invocation} {failure : Failure}
    (hprogram : c.invocations env = .ok invocations)
    (h : c.prepared launcher world invocations s = .error failure) :
    c.runProfiles launcher world env s = .error failure := by
  have hnext : (c.invocations env).mapError Failure.invalidSetting = .ok invocations :=
    mapError_eq_ok_iff.2 hprogram
  rw [runProfiles_eq, hnext]
  change (c.prepared launcher world invocations s >>= _) = _
  rw [h]
  rfl

theorem Prepares.runProfiles_eq {invocations : List Invocation} {s' : Settings} {after : τ}
    (h : c.Prepares launcher world env invocations s' after) (hs : c.settings env = .ok s) :
    c.runProfiles launcher world env s = (do
      let catalog ← s'.selection
      s'.runSuites catalog.toList (← subjects launcher after invocations)) := by
  obtain ⟨original, horiginal, hprepared⟩ := h.settings
  obtain rfl := Except.ok.inj (hs.symm.trans horiginal)
  have hnext : (c.invocations env).mapError Failure.invalidSetting = .ok invocations :=
    mapError_eq_ok_iff.2 h.program
  rw [CommandLine.runProfiles_eq, hnext]
  change (c.prepared launcher world invocations s >>= _) = _
  rw [hprepared]
  rfl

theorem Prepares.runProfiles_of_subjects {invocations : List Invocation} {s' : Settings} {after : τ}
    (h : c.Prepares launcher world env invocations s' after) (hs : c.settings env = .ok s)
    {catalog : Catalog} (hcatalog : s'.selection = .ok catalog)
    {profiles : List (Subject (ProcessState τ) × ProcessState τ)}
    (hprofiles : subjects launcher after invocations = .ok profiles) :
    c.runProfiles launcher world env s = s'.runSuites catalog.toList profiles := by
  rw [h.runProfiles_eq hs, hcatalog]
  change (subjects launcher after invocations >>= _) = _
  rw [hprofiles]
  rfl

/-- What the suites of the profiles call are programs. -/
theorem isOfProgram_of_subjects {invocations : List Invocation}
    {profiles : List (Subject (ProcessState τ) × ProcessState τ)}
    (h : subjects launcher world invocations = .ok profiles) (s : Settings)
    (scenarios : List Scenario) :
    ∀ p ∈ profiles, ∀ call ∈ s.suiteCalls scenarios p, call.IsOfProgram := by
  intro p hp
  rcases subjects_cases launcher world invocations with ⟨_, hok, hprogram⟩ | ⟨_, hcause⟩
  · obtain rfl := Except.ok.inj (h.symm.trans hok)
    obtain ⟨i, -, hsubject⟩ := hprogram p hp
    rw [Settings.suiteCalls, hsubject]
    exact i.isOfProgram_of_mem_calls _ _
  · cases h.symm.trans hcause

/-! ### Effects -/

theorem effect_of_listing (hs : c.settings env = .ok s) (hlist : c.list = true) :
    c.effect launcher world env =
      match s.selection with
      | .ok catalog => { exitCode := 0, output := String.join (catalog.toList.map listLine) }
      | .error failure => (CommandFailure.run failure).effect := by
  unfold effect
  rw [hs, hlist]
  simp only [bind, Except.bind]
  cases s.selection <;> rfl

theorem effect_of_run (hs : c.settings env = .ok s) (hlist : c.list = false) :
    c.effect launcher world env =
      match c.runProfiles launcher world env s with
      | .ok report => .ofReport report c.reportPath
      | .error failure => (CommandFailure.run failure).effect := by
  unfold effect
  rw [hs, hlist]
  simp only [bind, Except.bind]
  cases c.runProfiles launcher world env s <;> rfl

theorem effect_of_run_error {failure : Failure} (hs : c.settings env = .ok s)
    (hlist : c.list = false) (h : c.runProfiles launcher world env s = .error failure)
    (hne : failure ≠ .timeoutOverflow) :
    ∃ message, c.effect launcher world env = .ofMessage message := by
  rw [effect_of_run hs hlist, h]
  exact CommandFailure.exists_message hne

/-! ## What can happen -/

theorem Stops.effect_eq (h : c.Stops launcher world env) :
    c.effect launcher world env = .stop := by
  cases h with
  | reading h =>
    rw [effect_of_settings_error (settings_eq_timeoutOverflow_iff.2 h)]
    rfl
  | @timing s first rest state launch hs hlist hcalibrate hprogram hstart hlaunch hlate =>
    obtain ⟨label, hanswer⟩ : ∃ label, (first.execute launcher state
        (Script.timing Calibration.calls) s.criteria.timeout).1 = .error (.pastClock label) :=
      Invocation.execute_eq_pastClock_iff.2 ⟨launch, hlaunch, hlate⟩
    have hrun : ((Calibration.run s.criteria.timeout).run (first.subject launcher) state).1 =
        .error (.pastClock label) := Task.run_execute_of_error hanswer _
    have hprepared : c.prepared launcher world (first :: rest) s = .error .timeoutOverflow := by
      rw [prepared, if_pos hcalibrate, calibrated_of_run_error hstart hrun]
      rfl
    rw [effect_of_run hs hlist, runProfiles_of_prepared_error hprogram hprepared]
    rfl

/-- Whatever is wrong about a run is told, and nothing else is left of it. -/
theorem GoesWrong.effect_eq (h : c.GoesWrong launcher world env)
    (hstops : ¬c.Stops launcher world env) :
    ∃ message, c.effect launcher world env = .ofMessage message := by
  cases hs : c.settings env with
  | error failure =>
    rw [effect_of_settings_error hs]
    rcases settings_eq_error hs with rfl | hmessage
    · exact absurd (.reading (settings_eq_timeoutOverflow_iff.1 hs)) hstops
    · exact hmessage
  | ok original =>
    have hselection {s : Settings} {failure : Failure} (h : s.selection = .error failure) :
        failure ≠ .timeoutOverflow := by
      rintro rfl
      cases Settings.selection_eq_error h
    cases h with
    | settings h =>
      rw [hs] at h
      cases h
    | listing hs' hlist h =>
      rw [effect_of_listing hs' hlist, h]
      exact CommandFailure.exists_message (hselection h)
    | profile hlist h =>
      exact effect_of_run_error hs hlist (runProfiles_of_invocations_error h) nofun
    | @timing s first rest failure hs' hlist hcalibrate hprogram h =>
      have hprepared : c.prepared launcher world (first :: rest) s =
          .error (inProgram failure) := by
        rw [prepared, if_pos hcalibrate, calibrated_of_timingFails h]
      have hrun := runProfiles_of_prepared_error hprogram hprepared
      refine effect_of_run_error hs' hlist hrun ?_
      cases h.isOfProgram with
      | unreachable | inputOutput | malformedLine => nofun
      | pastClock label =>
        obtain ⟨state, launch, hstart, hlaunch, hlate⟩ := h.exists_launch
        exact absurd (.timing hs' hlist hcalibrate hprogram hstart hlaunch hlate) hstops
    | @selection invocations s after failure hprepares h =>
      refine effect_of_run_error hs hprepares.runs ?_ (hselection h)
      rw [hprepares.runProfiles_eq hs, h]
      rfl
    | @scratch invocations s after catalog failure hprepares hcatalog h =>
      have hne : failure ≠ .timeoutOverflow := by
        rcases subjects_cases launcher after invocations with ⟨_, hok, -⟩ | ⟨cause, hcause⟩
        · cases h.symm.trans hok
        · cases h.symm.trans hcause
          nofun
      refine effect_of_run_error hs hprepares.runs ?_ hne
      rw [hprepares.runProfiles_eq hs, hcatalog]
      change (subjects launcher after invocations >>= _) = _
      rw [h]
      rfl
    | @suite invocations s after catalog profiles hprepares hcatalog hprofiles p hp call hcall h =>
      have hvalid := (Settings.toList_of_selection hcatalog).1.valid
      rcases s.runSuites_cases hvalid (isOfProgram_of_subjects hprofiles s catalog.toList) with
        ⟨-, hnone⟩ | ⟨⟨failure, hfailure, hne⟩, -⟩
      · exact absurd h (hnone p hp call hcall)
      · refine effect_of_run_error hs hprepares.runs ?_ hne
        rw [hprepares.runProfiles_of_subjects hs hcatalog hprofiles, hfailure]

/-- A run of which nothing is wrong has a report. -/
theorem exists_report (h : ¬c.GoesWrong launcher world env) (hlist : c.list = false) :
    ∃ report, c.Reports launcher world env report := by
  cases hs : c.settings env with
  | error failure => exact absurd (.settings hs) h
  | ok s =>
    cases hprogram : c.invocations env with
    | error fault => exact absurd (.profile hlist hprogram) h
    | ok invocations =>
      rcases c.prepared_cases launcher world invocations s with
        ⟨schedule, after, hprepared⟩ | ⟨first, rest, failure, hcalibrate, rfl, htiming, -⟩
      · have hprepares : c.Prepares launcher world env invocations _ after :=
          ⟨hlist, hprogram, s, hs, hprepared⟩
        cases hcatalog : ({ s with plan := { s.plan with schedule } } : Settings).selection with
        | error failure => exact absurd (.selection hprepares hcatalog) h
        | ok catalog =>
          have hvalid := (Settings.toList_of_selection hcatalog).1.valid
          cases hprofiles : subjects launcher after invocations with
          | error failure => exact absurd (.scratch hprepares hcatalog hprofiles) h
          | ok profiles =>
            rcases Settings.runSuites_cases _ hvalid
                (isOfProgram_of_subjects hprofiles _ catalog.toList) with
              ⟨⟨report, hreport⟩, -⟩ | ⟨-, p, hp, call, hcall, hmishap⟩
            · refine ⟨report, s, hs, ?_⟩
              rw [hprepares.runProfiles_of_subjects hs hcatalog hprofiles, hreport]
            · exact absurd (.suite hprepares hcatalog hprofiles hp hcall hmishap) h
      · exact absurd (.timing hs hlist hcalibrate hprogram htiming) h

theorem Reports.effect_eq {report : CombinedReport} (h : c.Reports launcher world env report)
    (hlist : c.list = false) : c.effect launcher world env = .ofReport report c.reportPath := by
  obtain ⟨s, hs, hrun⟩ := h
  rw [effect_of_run hs hlist, hrun]

/-- A listing of which nothing is wrong shows the selection, and does not depend on the program. -/
theorem exists_listing (h : ¬c.GoesWrong launcher world env) (hlist : c.list = true) :
    ∃ s catalog, c.settings env = .ok s ∧ s.selection = .ok catalog ∧
      ∀ {σ : Type} (launcher' : Launcher σ) (world' : σ), c.effect launcher' world' env =
        { exitCode := 0, output := String.join (catalog.toList.map listLine) } := by
  cases hs : c.settings env with
  | error failure => exact absurd (.settings hs) h
  | ok s =>
    cases hcatalog : s.selection with
    | error failure => exact absurd (.listing hs hlist hcatalog) h
    | ok catalog =>
      refine ⟨s, catalog, rfl, hcatalog, fun launcher' world' => ?_⟩
      rw [effect_of_listing hs hlist, hcatalog]

/-- The suites of a run report on what its settings select, but for another schedule. -/
theorem Reports.exists_catalog {report : CombinedReport} (h : c.Reports launcher world env report) :
    ∃ (s s' : Settings) (catalog : Catalog), c.settings env = .ok s ∧ s'.filter = s.filter ∧
      s'.plan = { s.plan with schedule := s'.plan.schedule } ∧ s'.selection = .ok catalog ∧
      ∀ suite ∈ report.suites, ∃ (label : String) (reports : List ScenarioReport),
        suite = .ofScenarios label reports ∧ reports.map (·.id) = catalog.ids := by
  obtain ⟨s, hs, h⟩ := h
  rw [runProfiles_eq] at h
  obtain ⟨invocations, -, h⟩ := bind_eq_ok_iff.1 h
  obtain ⟨⟨s', after⟩, hprepared, h⟩ := bind_eq_ok_iff.1 h
  obtain ⟨catalog, hcatalog, h⟩ := bind_eq_ok_iff.1 h
  obtain ⟨profiles, -, h⟩ := bind_eq_ok_iff.1 h
  have hdistinct := (Settings.toList_of_selection hcatalog).1.distinct
  have hsuites := s'.exists_of_runSuites_eq_ok hdistinct h
  rcases c.prepared_cases launcher world invocations s with
    ⟨schedule, _, hcase⟩ | ⟨_, _, _, _, _, _, hcase⟩
  · obtain ⟨rfl, rfl⟩ := Prod.mk.inj (Except.ok.inj (hprepared.symm.trans hcase))
    exact ⟨s, { s with plan := { s.plan with schedule } }, catalog, hs, rfl, rfl, hcatalog, hsuites⟩
  · rw [hprepared] at hcase
    cases hcase

theorem Reports.exitCode_eq {report : CombinedReport} (h : c.Reports launcher world env report) :
    (report.exitCode = 1 ↔ report.HasStrictFailure) ∧
      (report.exitCode = 0 ↔ ¬report.HasStrictFailure) := by
  obtain ⟨_, _, _, -, -, -, -, hsuites⟩ := h.exists_catalog
  have hsuccess := CombinedReport.isSuccess_iff fun suite hmem =>
    let ⟨label, reports, hsuite, _⟩ := hsuites suite hmem
    ⟨label, reports, hsuite⟩
  rw [report.exitCode_eq]
  by_cases h : report.HasStrictFailure <;> simp [h, hsuccess]

/-- The ids that are listed are those that a run reports on. -/
theorem Reports.ids_eq {report : CombinedReport} (h : c.Reports launcher world env report)
    {catalog : Catalog} (hs : c.settings env = .ok s) (hcatalog : s.selection = .ok catalog) :
    ∀ suite ∈ report.suites, suite.scenarios.map (·.id) = catalog.ids := by
  obtain ⟨original, s', catalog', horiginal, hfilter, hplan, hcatalog', hsuites⟩ :=
    h.exists_catalog
  obtain rfl := Except.ok.inj (hs.symm.trans horiginal)
  intro suite hsuite
  obtain ⟨label, reports, rfl, hids⟩ := hsuites suite hsuite
  exact hids.trans (Settings.ids_of_selection hfilter hplan hcatalog hcatalog')

/-! ## The outcome -/

/-- **What comes of a command line.** On a machine where the report can be written:

* A deadline that is too large stops the program.
* Whatever else is wrong about the run, at any stage and in the suite of any profile, it has the
  exit code of a failure, prints nothing and writes no report.
* Otherwise a run prints the summary of its report, writes the report where it is asked for, and the
  exit code tells whether a strict scenario of some suite does not pass.
* Otherwise a listing succeeds, whatever the program would do, and the ids on it are in order those
  of every suite that the same command line reports on without it, if that run has a report. -/
theorem execute_outcome {words : List String} {tree : FileTree} (hread : read words = .ok c)
    (hpath : ∀ file, c.reportPath = some file → ∃ written, tree.writeFile file = .ok written) :
    let effect := (execute launcher world env words).on tree
    (c.Stops launcher world env → effect = .stop) ∧
    (¬c.Stops launcher world env → c.GoesWrong launcher world env →
      effect.exitCode = 2 ∧ effect.output = "" ∧ effect.report = none) ∧
    (¬c.GoesWrong launcher world env → c.list = false →
      ∃ report, c.Reports launcher world env report ∧ effect.output = report.render ∧
        effect.report.map (fun file => (file.path, file.text)) =
          c.reportPath.map (fun path => (path, report.toJson.pretty)) ∧
        (effect.exitCode = 1 ↔ report.HasStrictFailure) ∧
        (effect.exitCode = 0 ↔ ¬report.HasStrictFailure)) ∧
    (¬c.GoesWrong launcher world env → c.list = true →
      effect.exitCode = 0 ∧ effect.report = none ∧
      (∀ (σ : Type) (launcher' : Launcher σ) (world' : σ),
        (execute launcher' world' env words).on tree = effect) ∧
      ∀ report, Reports { c with list := false } launcher world env report →
        ∀ suite ∈ report.suites, suite.scenarios.map (·.id) = listedIds effect.output) := by
  intro effect
  have hexecute {σ : Type} (launcher' : Launcher σ) (world' : σ) :
      execute launcher' world' env words = c.effect launcher' world' env := by
    rw [execute, hread]
  have heffect : effect = (c.effect launcher world env).on tree := by
    rw [← hexecute launcher world]
  refine ⟨fun h => ?_, fun hstops h => ?_, fun h hlist => ?_, fun h hlist => ?_⟩
  · rw [heffect, h.effect_eq]
    rfl
  · obtain ⟨message, hmessage⟩ := h.effect_eq hstops
    rw [heffect, hmessage]
    exact ⟨rfl, rfl, rfl⟩
  · obtain ⟨report, hreports⟩ := exists_report h hlist
    rw [heffect, hreports.effect_eq hlist, Effect.on_ofReport hpath]
    refine ⟨report, hreports, rfl, ?_, hreports.exitCode_eq⟩
    rw [Effect.ofReport, Option.map_map]
    rfl
  · obtain ⟨s, catalog, hs, hcatalog, hlisting⟩ := exists_listing h hlist
    have hids : listedIds effect.output = catalog.ids := by
      rw [heffect, hlisting]
      exact listedIds_join fun t ht => Settings.isOneLine_of_selection hcatalog ht
    rw [hids, heffect, hlisting]
    refine ⟨rfl, rfl, fun σ launcher' world' => ?_, fun report h => h.ids_eq hs hcatalog⟩
    rw [hexecute, hlisting]

/-- A profile without an equals sign is refused before anything is started, and the report that is
asked for is not written. -/
theorem execute_profile :
    let launcher : Launcher Unit :=
      { launch := fun world _ _ _ => (.error (.unspawned "not found"), world) }
    let words := ["--sut=/bin/js", "--profile=plain", "--report-json=out.json"]
    let effect := (execute launcher () (fun _ => none) words).on ⟨[], []⟩
    effect.exitCode = 2 ∧ effect.output = "" ∧ effect.report = none := by
  intro launcher words
  let c : CommandLine :=
    { program := some "/bin/js", profiles := ["plain"], reportPath := some "out.json" }
  have hread : read words = .ok c := by decide +kernel
  have hpath : ∀ file, c.reportPath = some file →
      ∃ written, FileTree.writeFile ⟨[], []⟩ file = .ok written := by
    rintro _ ⟨⟩
    exact ⟨⟨[(["out.json"], .file)], []⟩, by decide +kernel⟩
  have hprofile : c.invocations (fun _ => none) = .error (.profileShape "plain") := by
    decide +kernel
  refine (execute_outcome hread hpath).2.1 (fun hstops => ?_) (.profile rfl hprofile)
  cases hstops with
  | reading h =>
    obtain ⟨_, htext, -⟩ := h.timeout
    cases htext
  | timing _ _ hcalibrate => cases hcalibrate

/-- A deadline of `10 ^ 19` seconds is no longer than others that can be given, but it ends past the
clock. Where the program waits for the timing, it has neither a failure's exit code nor a report. -/
theorem execute_timing :
    let launcher : Launcher Unit :=
      { launch := fun world _ _ _ => (.ok { run := ⟨[], [], .clean⟩ }, world) }
    let words := ["--sut=/bin/js", "--calibrate", "--timeout-secs=1e19"]
    ∃ c s, read words = .ok c ∧ c.settings (fun _ => none) = .ok s ∧
      s.criteria.timeout.seconds < wordLimit 64 ∧
      execute launcher () (fun _ => none) words = .stop := by
  intro launcher words
  let limit : Timespan := .ofSeconds 10000000000000000000
  let c : CommandLine :=
    { program := some "/bin/js", overrides := { timeout := some limit }, calibrate := true }
  let s : Settings := { criteria := { timeout := limit } }
  have hread : read words = .ok c := by decide +kernel
  have hsettings : c.settings (fun _ => none) = .ok s := by decide +kernel
  have hprogram : c.invocations (fun _ => none) = .ok [⟨"js", "/bin/js", []⟩] := by decide +kernel
  have hstops : c.Stops launcher () (fun _ => none) :=
    .timing hsettings rfl rfl hprogram rfl rfl (by decide)
  refine ⟨c, s, hread, hsettings, by decide, ?_⟩
  rw [execute, hread]
  exact hstops.effect_eq

end CommandLine

end TierCheck
