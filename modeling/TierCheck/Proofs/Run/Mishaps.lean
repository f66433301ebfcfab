import TierCheck.CommandLine.Run
import TierCheck.Proofs.Run.CleanState
import TierCheck.Proofs.Run.Interleaving
import TierCheck.Proofs.Run.Soundness

/-!
# When a suite has no report

Whatever a program does gets a verdict, with few exceptions: it cannot be started or waited for, its
files or its output fail, it prints a line that cannot be read, or an event of it comes out of
order. One such call ends its suite and all suites with it, and without one every suite has its
report, on all of its scenarios.

* `Transcript.IsOutOfOrder`: what the grammar of transcripts leaves out.
* `Call.IsMishap`: the exceptions.
* `Invocation.isOfProgram_of_mem_calls`: what a call of a program can fail with.
* `SuiteCalls.not_isMishap`, `SuiteCalls.exists_isMishap`: how the calls of a suite end.
* `Settings.runSuites_cases`: what the suites of several programs come to.
* `Settings.exists_of_runSuites_eq_ok`: the scenarios that their reports are about.
-/
namespace TierCheck

/-! ## Transcripts that are out of order -/

section

variable {c : Criteria} {s : Scenario} {t : Transcript}

/-- Behind the readings the transcript is neither finished nor does it stop at the first pending
checkpoint. -/
def Transcript.IsOutOfOrder (c : Criteria) (s : Scenario) (t : Transcript) : Prop :=
  ∃ readings pending rest, IsProgress s.checkpoints t.scriptEvents readings pending rest ∧
    ((pending = [] ∧ ¬IsFinished rest) ∨
      ∃ checkpoint later, pending = checkpoint :: later ∧
        ∀ verdict, ¬StopsAt c t checkpoint rest verdict)

theorem Transcript.IsOutOfOrder.classify_eq (h : t.IsOutOfOrder c s) :
    ∃ expected actual, c.classify s t = .error (.outOfOrder s.id expected actual) := by
  obtain ⟨readings, pending, rest, hprogress, h⟩ := h
  rw [c.classify_of_isProgress s t hprogress]
  rcases h with ⟨rfl, hfinished⟩ | ⟨checkpoint, later, rfl, hstop⟩
  · obtain ⟨actual, hactual⟩ := c.classifyFrom_unfinished s t hfinished
    exact ⟨_, actual, by rw [hactual]; rfl⟩
  · obtain ⟨actual, hactual⟩ := c.classifyFrom_astray s t hprogress.isStuck hstop
    exact ⟨_, actual, by rw [hactual]; rfl⟩

theorem Criteria.isOutOfOrder_of_classify_eq {failure : Failure}
    (h : c.classify s t = .error failure) : t.IsOutOfOrder c s := by
  obtain ⟨readings, pending, rest, hprogress⟩ := exists_isProgress s.checkpoints t.scriptEvents
  refine ⟨readings, pending, rest, hprogress, ?_⟩
  rw [c.classify_of_isProgress s t hprogress] at h
  cases pending with
  | nil =>
    refine .inl ⟨rfl, fun hfinished => ?_⟩
    rw [c.classifyFrom_finished s t hfinished] at h
    cases h
  | cons checkpoint later =>
    refine .inr ⟨checkpoint, later, rfl, fun verdict hstop => ?_⟩
    rw [c.classifyFrom_stopsAt s t hstop] at h
    cases h

end

/-! ## Calls -/

/-- The failures of a program and of the machine that it runs on, none of which is a verdict. -/
inductive Failure.IsOfProgram : Failure → Prop where
  /-- It cannot be started. -/
  | unreachable (program cause : String) : IsOfProgram (.unreachable program cause)
  /-- Its files cannot be written or cleared away, or its output cannot be read. -/
  | inputOutput (cause : String) : IsOfProgram (.inputOutput cause)
  /-- A line of its output cannot be read. -/
  | malformedLine (line : MalformedLine) : IsOfProgram (.malformedLine line)
  /-- It cannot be waited for. -/
  | pastClock (label : String) : IsOfProgram (.pastClock label)

namespace Call

/-- The failure that the call was answered with. -/
def failure? : Call → Option Failure
  | execute _ _ answer => failureOf answer
  | reset answer => failureOf answer

/-- The call gives no verdicts, as it fails or the transcript is out of order. -/
inductive IsMishap (c : Criteria) (scenarios : List Scenario) : Call → Prop where
  | failed {call : Call} {failure : Failure} (h : call.failure? = some failure) :
    IsMishap c scenarios call
  | outOfOrder {s : Scenario} (hs : s ∈ scenarios) (limit : Timespan) {t : Transcript}
    (h : t.IsOutOfOrder c s) : IsMishap c scenarios (.execute (.ofScenario s) limit (.ok t))

/-- The call is answered as a program can answer it. -/
def IsOfProgram (call : Call) : Prop :=
  ∀ failure, call.failure? = some failure → failure.IsOfProgram

end Call

/-- A call that fails is the last one, and the task fails with it. -/
theorem Task.run_of_failure? {α σ : Type} {subject : Subject σ} {t : Task α} {state : σ}
    {call : Call} {failure : Failure} (hcall : call ∈ t.calls subject state)
    (h : call.failure? = some failure) : (t.run subject state).1 = .error failure := by
  induction t generalizing state with
  | done result => cases hcall
  | execute probe limit next ih =>
    rw [calls] at hcall
    rw [run]
    rcases hanswer : subject.execute state probe limit with ⟨other | transcript, after⟩
    · rw [hanswer, List.mem_singleton] at hcall
      subst hcall
      exact congrArg Except.error (Option.some.inj h)
    · rw [hanswer] at hcall
      rcases List.mem_cons.1 hcall with rfl | hcall
      · cases h
      · exact ih transcript hcall
  | reset next ih =>
    rw [calls] at hcall
    rw [run]
    rcases hanswer : subject.reset state with ⟨other | _, after⟩
    · rw [hanswer, List.mem_singleton] at hcall
      subst hcall
      exact congrArg Except.error (Option.some.inj h)
    · rw [hanswer] at hcall
      rcases List.mem_cons.1 hcall with rfl | hcall
      · cases h
      · exact ih hcall

/-! ## Programs -/

theorem ProcessRun.isOfProgram_of_transcript {r : ProcessRun} {failure : Failure}
    (h : r.transcript = .error failure) : failure.IsOfProgram := by
  rw [transcript, bind_eq_error_iff] at h
  rcases h with h | ⟨events, -, h⟩
  · obtain ⟨line, -, rfl⟩ := mapError_eq_error_iff.1 h
    exact .malformedLine line
  · rcases bind_eq_error_iff.1 h with h | ⟨_, -, h⟩
    · cases hending : r.ending with
      | exited | lingering | timedOut => rw [hending] at h; cases h
      | unreadable cause | unwaited cause =>
        rw [hending] at h
        cases h
        exact .inputOutput cause
    · cases h

namespace Invocation

variable {τ : Type} (i : Invocation) {launcher : Launcher τ} {failure : Failure}

/-- The answer to an execution is settled by that of the launch. -/
theorem execute_answer (launcher : Launcher τ) (state : ProcessState τ) (probe : Probe)
    (limit : Timespan) : (i.execute launcher state probe limit).1 =
      match (launcher.launch state.world i probe limit).1 with
      | .error (.unwritten cause) => .error (.inputOutput cause)
      | .error (.unspawned cause) => .error (.unreachable i.program cause)
      | .ok launch =>
        if Timespan.clockEnd.nanoseconds ≤ launch.clock.nanoseconds + limit.nanoseconds then
          .error (.pastClock i.label)
        else launch.transcript := by
  unfold execute
  rcases launcher.launch state.world i probe limit with ⟨(_ | _) | launch, world⟩
  · rfl
  · rfl
  · dsimp only
    split <;> rfl

/-- Only failures of a program keep it from giving a transcript. -/
theorem isOfProgram_of_execute {state : ProcessState τ} {probe : Probe} {limit : Timespan}
    (h : (i.execute launcher state probe limit).1 = .error failure) : failure.IsOfProgram := by
  rw [execute_answer] at h
  split at h
  · next cause _ =>
    cases h
    exact .inputOutput cause
  · next cause _ =>
    cases h
    exact .unreachable i.program cause
  · split at h
    · cases h
      exact .pastClock i.label
    · exact ProcessRun.isOfProgram_of_transcript h

theorem exists_of_reset {state : ProcessState τ} (h : (reset launcher state).1 = .error failure) :
    ∃ cause, failure = .inputOutput cause := by
  obtain ⟨cause, -, rfl⟩ := mapError_eq_error_iff.1 h
  exact ⟨cause, rfl⟩

theorem isOfProgram_of_mem_calls {α : Type} (t : Task α) (state : ProcessState τ) :
    ∀ call ∈ t.calls (i.subject launcher) state, call.IsOfProgram := by
  refine t.forall_mem_calls (fun state probe limit failure h => ?_)
    (fun state failure h => ?_) state
  · exact i.isOfProgram_of_execute (eq_error_of_failureOf h)
  · obtain ⟨cause, rfl⟩ := exists_of_reset (eq_error_of_failureOf h)
    exact .inputOutput cause

end Invocation

/-! ## Suites -/

section

variable {c : Criteria} {scenarios : List Scenario} {calls : List Call}

/-- A transcript with verdicts is in order for every scenario that it may come from. -/
theorem Call.not_isMishap_execute {s : Scenario} {t : Transcript} {verdicts : List Verdict}
    (h : c.classify s t = .ok verdicts) (limit : Timespan) :
    ¬IsMishap c scenarios (.execute (.ofScenario s) limit (.ok t)) := by
  intro hmishap
  generalize hprobe : Probe.ofScenario s = probe at hmishap
  cases hmishap with
  | failed h => cases h
  | outOfOrder _ _ horder =>
    obtain ⟨_, _, hother⟩ := horder.classify_eq
    have hsame := c.endsEarly_classify_congr hprobe t
    rw [h, hother] at hsame
    cases hsame

theorem SuiteCalls.not_isMishap (h : SuiteCalls c scenarios calls none) :
    ∀ call ∈ calls, ¬call.IsMishap c scenarios := by
  generalize hstop : (none : Option Failure) = stop at h
  induction h with
  | finished => exact fun _ hmem => nomatch hmem
  | through s t verdicts later stop _ _ hclassify _ _ ih =>
    exact List.forall_mem_cons.2 ⟨Call.not_isMishap_execute hclassify _, ih hstop⟩
  | aborted s t verdicts later stop _ _ hclassify _ _ ih =>
    have hreset : ¬(Call.reset (.ok ())).IsMishap c scenarios := by
      rintro (h | _)
      cases h
    exact List.forall_mem_cons.2
      ⟨Call.not_isMishap_execute hclassify _, List.forall_mem_cons.2 ⟨hreset, ih hstop⟩⟩
  | refused | unanswered | astray | stuck => cases hstop

/-- The failure that ends a suite of a program is that of one of its calls. -/
theorem SuiteCalls.exists_isMishap {failure : Failure}
    (h : SuiteCalls c scenarios calls (some failure)) (hvalid : ∀ s ∈ scenarios, s.IsValid)
    (hprogram : ∀ call ∈ calls, call.IsOfProgram) :
    failure ≠ .timeoutOverflow ∧ ∃ call ∈ calls, call.IsMishap c scenarios := by
  generalize hstop : some failure = stop at h
  induction h with
  | finished => cases hstop
  | refused s failure hs hcheck =>
    rw [s.check_eq_ok_iff.2 (hvalid s hs)] at hcheck
    cases hcheck
  | unanswered s other hs _ =>
    obtain rfl := Option.some.inj hstop
    have hfailure : failure.IsOfProgram := hprogram _ List.mem_cons_self failure rfl
    refine ⟨?_, _, List.mem_cons_self, .failed rfl⟩
    rintro rfl
    cases hfailure
  | astray s t other hs _ hclassify =>
    obtain rfl := Option.some.inj hstop
    have horder := c.isOutOfOrder_of_classify_eq hclassify
    refine ⟨?_, _, List.mem_cons_self, .outOfOrder hs _ horder⟩
    obtain ⟨_, _, hfailure⟩ := horder.classify_eq
    rw [hfailure] at hclassify
    rintro rfl
    cases hclassify
  | through s t verdicts later stop _ _ _ _ _ ih =>
    obtain ⟨hne, call, hmem, hcall⟩ := ih (List.forall_mem_cons.1 hprogram).2 hstop
    exact ⟨hne, call, List.mem_cons_of_mem _ hmem, hcall⟩
  | aborted s t verdicts later stop _ _ _ _ _ ih =>
    have hlater := (List.forall_mem_cons.1 (List.forall_mem_cons.1 hprogram).2).2
    obtain ⟨hne, call, hmem, hcall⟩ := ih hlater hstop
    exact ⟨hne, call, List.mem_cons_of_mem _ (List.mem_cons_of_mem _ hmem), hcall⟩
  | stuck s t verdicts other =>
    obtain rfl := Option.some.inj hstop
    have hmem := List.mem_cons_of_mem (Call.execute (.ofScenario s) c.timeout (.ok t))
      (List.mem_cons_self (a := Call.reset (.error failure)) (l := []))
    have hfailure : failure.IsOfProgram := hprogram _ hmem failure rfl
    refine ⟨?_, _, hmem, .failed rfl⟩
    rintro rfl
    cases hfailure

end

namespace Settings

variable {σ : Type} (c : Settings) {scenarios : List Scenario}

/-- The calls that the suite of a subject makes. -/
def suiteCalls (scenarios : List Scenario) (p : Subject σ × σ) : List Call :=
  (c.runSuite p.1.label scenarios).calls p.1 p.2

/-- A suite has a report unless one of its calls is a mishap. -/
theorem alone_cases (hvalid : ∀ s ∈ scenarios, s.IsValid) {p : Subject σ × σ}
    (hprogram : ∀ call ∈ c.suiteCalls scenarios p, call.IsOfProgram) :
    ((∃ report, c.alone scenarios p = .ok report) ∧
      ∀ call ∈ c.suiteCalls scenarios p, ¬call.IsMishap c.criteria scenarios) ∨
    ((∃ failure, c.alone scenarios p = .error failure ∧ failure ≠ .timeoutOverflow) ∧
      ∃ call ∈ c.suiteCalls scenarios p, call.IsMishap c.criteria scenarios) := by
  have hcalls := c.runSuite_asksFor p.1.label scenarios _ p.1 p.2
  change SuiteCalls c.criteria scenarios (c.suiteCalls scenarios p)
    (failureOf (c.alone scenarios p)) at hcalls
  cases hresult : c.alone scenarios p with
  | ok report =>
    rw [hresult] at hcalls
    exact .inl ⟨⟨report, rfl⟩, hcalls.not_isMishap⟩
  | error failure =>
    rw [hresult] at hcalls
    obtain ⟨hne, hmishap⟩ := hcalls.exists_isMishap hvalid hprogram
    exact .inr ⟨⟨failure, rfl, hne⟩, hmishap⟩

/-- The suites have reports unless a call of one of them is a mishap. -/
theorem runSuites_cases (hvalid : ∀ s ∈ scenarios, s.IsValid) {subjects : List (Subject σ × σ)}
    (hprogram : ∀ p ∈ subjects, ∀ call ∈ c.suiteCalls scenarios p, call.IsOfProgram) :
    ((∃ report, c.runSuites scenarios subjects = .ok report) ∧
      ∀ p ∈ subjects, ∀ call ∈ c.suiteCalls scenarios p,
        ¬call.IsMishap c.criteria scenarios) ∨
    ((∃ failure, c.runSuites scenarios subjects = .error failure ∧
        failure ≠ .timeoutOverflow) ∧
      ∃ p ∈ subjects, ∃ call ∈ c.suiteCalls scenarios p,
        call.IsMishap c.criteria scenarios) := by
  induction subjects with
  | nil => exact .inl ⟨⟨⟨[]⟩, rfl⟩, fun _ hmem => nomatch hmem⟩
  | cons p rest ih =>
    obtain ⟨hfirst, hrest⟩ := List.forall_mem_cons.1 hprogram
    rcases c.alone_cases hvalid hfirst with
      ⟨⟨report, hreport⟩, hnone⟩ | ⟨⟨failure, hfailure, hne⟩, call, hcall, hmishap⟩
    · rw [c.runSuites_cons_ok scenarios hreport]
      rcases ih hrest with
        ⟨⟨combined, hcombined⟩, hall⟩ | ⟨⟨failure, hfailure, hne⟩, q, hq, hmishap⟩
      · rw [hcombined]
        exact .inl ⟨⟨_, rfl⟩, List.forall_mem_cons.2 ⟨hnone, hall⟩⟩
      · rw [hfailure]
        exact .inr ⟨⟨failure, rfl, hne⟩, q, List.mem_cons_of_mem _ hq, hmishap⟩
    · rw [c.runSuites_cons_error scenarios hfailure]
      exact .inr ⟨⟨failure, rfl, hne⟩, p, List.mem_cons_self, call, hcall, hmishap⟩

/-- A suite reports on its scenarios in order. -/
theorem exists_of_alone_eq_ok {p : Subject σ × σ}
    (hids : (scenarios.map (·.id)).Nodup) {report : SuiteReport}
    (h : c.alone scenarios p = .ok report) : ∃ reports : List ScenarioReport,
      report = .ofScenarios p.1.label reports ∧ reports.map (·.id) = scenarios.map (·.id) := by
  obtain ⟨outcomes, hscenarios, rfl, -⟩ :=
    c.runFrom_eq_ok hids (Prod.ext h rfl : _ = (Except.ok report, _))
  have houtcomes : outcomes.map (·.1.id) = scenarios.map (·.id) := by
    rw [← hscenarios, List.map_map]
    rfl
  refine ⟨_, Collection.report_recordOutcomes p.1.label (by rwa [houtcomes]), ?_⟩
  rw [← houtcomes, List.map_map]
  rfl

theorem exists_of_runSuites_eq_ok {subjects : List (Subject σ × σ)}
    (hids : (scenarios.map (·.id)).Nodup) {report : CombinedReport}
    (h : c.runSuites scenarios subjects = .ok report) :
    ∀ suite ∈ report.suites, ∃ (label : String) (reports : List ScenarioReport),
      suite = .ofScenarios label reports ∧ reports.map (·.id) = scenarios.map (·.id) := by
  obtain ⟨reports⟩ := report
  intro suite hsuite
  have hmem : Except.ok suite ∈ subjects.map (c.alone scenarios) := by
    rw [(c.runSuites_eq_ok_iff scenarios subjects).1 h]
    exact List.mem_map_of_mem hsuite
  obtain ⟨p, -, hp⟩ := List.mem_map.1 hmem
  exact ⟨p.1.label, c.exists_of_alone_eq_ok hids hp⟩

end Settings

end TierCheck
