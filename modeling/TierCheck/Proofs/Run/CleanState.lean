import TierCheck.Proofs.Run.Classification
import TierCheck.Proofs.Run.Repetition
import TierCheck.Run.Suite
import TierCheck.Subject.Mimic

/-!
# The clean state between runs

What a suite asks of its subject follows a grammar: a run executes a probe, and if its verdicts end
in an abort the next call is a reset; then the next run may follow. A failure, of the subject, of
the classification or of the scenario's check, ends the calls and the suite.

* `SuiteCalls`: the grammar, with the failure that ended the calls.
* `ResetsCleanly`: what the grammar means for each single call.
* `Settings.runSuite_asksFor`: the calls of a suite follow the grammar.
* `Settings.runFrom_refused`: a scenario that is refused ends the suite without a call.
* `Settings.runSuite_resetsCleanly`: the result, for the calls that the subject sees.
-/
namespace TierCheck

def failureOf {α : Type} : Except Failure α → Option Failure
  | .ok _ => none
  | .error failure => some failure

/-- The last verdict says that the subject did not get through. -/
def EndInAbort (verdicts : List Verdict) : Prop :=
  ∃ verdict, verdicts.getLast? = some verdict ∧
    (verdict.kind = .crashed ∨ verdict.kind = .timeout)

theorem Criteria.endsEarly_iff {verdicts : List Verdict} :
    endsEarly verdicts = true ↔ EndInAbort verdicts := by
  unfold endsEarly EndInAbort
  cases verdicts.getLast? <;> simp [VerdictKind.endsScenario]

/-! ## What a verdict list's end depends on -/

namespace Criteria

variable (c : Criteria)

/-- The verdict of a result does not end the list early. -/
theorem endsEarly_classifyFrom_result (s : Scenario) (t : Transcript) (checkpoint : Checkpoint)
    (later : List Checkpoint) (value : Value) (raw : String) (events : List Event) :
    (c.classifyFrom s t (checkpoint :: later)
        (.checkpoint checkpoint.name :: .result value raw :: events)).map endsEarly =
      (c.classifyFrom s t later events).map endsEarly := by
  have hjudge : ∀ verdicts,
      endsEarly (c.judge s checkpoint value raw :: verdicts) = endsEarly verdicts := by
    intro verdicts
    cases verdicts with
    | nil =>
      rcases c.judge_kind s checkpoint value raw with h | h | h <;>
        simp [endsEarly, h, VerdictKind.endsScenario]
    | cons verdict verdicts => rw [endsEarly, endsEarly, List.getLast?_cons_cons]
  rw [c.classifyFrom_reading s t ⟨checkpoint, value, raw⟩ later events]
  cases c.classifyFrom s t later events with
  | error failure => rfl
  | ok verdicts => exact congrArg Except.ok (hjudge verdicts)

/-- Whether the verdicts of a transcript end early, and the failure if there are none, depends on
the scenario's id and the names of its checkpoints alone. -/
theorem endsEarly_classifyFrom_congr {s s' : Scenario} (hid : s.id = s'.id) (t : Transcript)
    {checkpoints checkpoints' : List Checkpoint}
    (hnames : checkpoints.map (·.name) = checkpoints'.map (·.name)) (events : List Event) :
    (c.classifyFrom s t checkpoints events).map endsEarly =
      (c.classifyFrom s' t checkpoints' events).map endsEarly := by
  induction checkpoints generalizing checkpoints' events with
  | nil =>
    obtain rfl := List.map_eq_nil_iff.1 hnames.symm
    rcases events with _ | ⟨_ | _, _⟩ <;> simp [classifyFrom, hid]
  | cons checkpoint later ih =>
    obtain ⟨checkpoint', later', rfl, hsame, hlater⟩ := List.map_eq_cons_iff.1 hnames.symm
    have hname : checkpoint.name = checkpoint'.name := hsame.symm
    have hmissing : endsEarly [c.missing t checkpoint] = endsEarly [c.missing t checkpoint'] := by
      simp [endsEarly, missing_kind]
    have hthrown : ∀ message,
        endsEarly [thrown checkpoint message] = endsEarly [thrown checkpoint' message] :=
      fun _ => rfl
    cases events with
    | nil => simpa [classifyFrom, Except.map] using hmissing
    | cons event events =>
      cases event with
      | fault name message =>
        by_cases h : name = checkpoint'.name <;>
          simp [classifyFrom, hname, hid, h, Except.map, hthrown]
      | checkpoint name =>
        by_cases h : name = checkpoint'.name
        · cases events with
          | nil => simpa [classifyFrom, Except.map, hname, h] using hmissing
          | cons event events =>
            cases event with
            | result value raw =>
              rw [h, endsEarly_classifyFrom_result, ← hname, endsEarly_classifyFrom_result]
              exact ih hlater.symm events
            | _ => simp [classifyFrom, hname, hid, h, Except.map]
        · simp [classifyFrom, hname, hid, h, Except.map]
      | _ => simp [classifyFrom, hname, hid, Except.map]

theorem endsEarly_classify_congr {s s' : Scenario} (h : Probe.ofScenario s = Probe.ofScenario s')
    (t : Transcript) :
    (c.classify s t).map endsEarly = (c.classify s' t).map endsEarly :=
  c.endsEarly_classifyFrom_congr (congrArg Probe.id h) t (congrArg Probe.checkpoints h) _

end Criteria

/-! ## The grammar of calls -/

/-- The calls of a suite over scenarios, with the failure that ended them, if one did. -/
inductive SuiteCalls (c : Criteria) (scenarios : List Scenario) : List Call → Option Failure → Prop
  | finished : SuiteCalls c scenarios [] none
  /-- The check refuses a scenario. -/
  | refused (s : Scenario) (failure : Failure) : s ∈ scenarios → s.check = .error failure →
    SuiteCalls c scenarios [] (some failure)
  /-- The subject fails to run the probe. -/
  | unanswered (s : Scenario) (failure : Failure) : s ∈ scenarios → s.IsValid →
    SuiteCalls c scenarios [.execute (.ofScenario s) c.timeout (.error failure)] (some failure)
  /-- The transcript has no verdicts. -/
  | astray (s : Scenario) (t : Transcript) (failure : Failure) : s ∈ scenarios → s.IsValid →
    c.classify s t = .error failure →
    SuiteCalls c scenarios [.execute (.ofScenario s) c.timeout (.ok t)] (some failure)
  /-- The subject got through. -/
  | through (s : Scenario) (t : Transcript) (verdicts : List Verdict) (later : List Call)
    (stop : Option Failure) : s ∈ scenarios → s.IsValid → c.classify s t = .ok verdicts →
    ¬EndInAbort verdicts → SuiteCalls c scenarios later stop →
    SuiteCalls c scenarios (.execute (.ofScenario s) c.timeout (.ok t) :: later) stop
  /-- The subject did not get through and is reset. -/
  | aborted (s : Scenario) (t : Transcript) (verdicts : List Verdict) (later : List Call)
    (stop : Option Failure) : s ∈ scenarios → s.IsValid → c.classify s t = .ok verdicts →
    EndInAbort verdicts → SuiteCalls c scenarios later stop →
    SuiteCalls c scenarios
      (.execute (.ofScenario s) c.timeout (.ok t) :: .reset (.ok ()) :: later) stop
  /-- The subject did not get through and cannot be reset. -/
  | stuck (s : Scenario) (t : Transcript) (verdicts : List Verdict) (failure : Failure) :
    s ∈ scenarios → s.IsValid → c.classify s t = .ok verdicts → EndInAbort verdicts →
    SuiteCalls c scenarios
      [.execute (.ofScenario s) c.timeout (.ok t), .reset (.error failure)] (some failure)

theorem SuiteCalls.append {c : Criteria} {scenarios : List Scenario} {a b : List Call}
    {stop : Option Failure} (ha : SuiteCalls c scenarios a none)
    (hb : SuiteCalls c scenarios b stop) : SuiteCalls c scenarios (a ++ b) stop := by
  generalize hstop : (none : Option Failure) = first at ha
  induction ha with
  | finished => exact hb
  | through s t verdicts later _ hs hvalid hclassify hend _ ih =>
    exact .through s t verdicts _ stop hs hvalid hclassify hend (ih hstop)
  | aborted s t verdicts later _ hs hvalid hclassify hend _ ih =>
    exact .aborted s t verdicts _ stop hs hvalid hclassify hend (ih hstop)
  | refused => cases hstop
  | unanswered => cases hstop
  | astray => cases hstop
  | stuck => cases hstop

/-- A run does not start with a reset. -/
theorem SuiteCalls.head_ne_reset {c : Criteria} {scenarios : List Scenario} {calls : List Call}
    {stop : Option Failure} (h : SuiteCalls c scenarios calls stop) (answer : Except Failure Unit) :
    calls.head? ≠ some (.reset answer) := by
  cases h <;> simp

section

variable {c : Criteria} {scenarios : List Scenario} {before after : List Call}
  {stop : Option Failure}

/-- A run starts at every execution. -/
theorem SuiteCalls.from_execute {calls : List Call} {probe : Probe} {limit : Timespan}
    {answer : Except Failure Transcript} (h : SuiteCalls c scenarios calls stop)
    (hcalls : calls = before ++ .execute probe limit answer :: after) :
    SuiteCalls c scenarios (.execute probe limit answer :: after) stop := by
  cases before with
  | nil => rwa [hcalls] at h
  | cons first before =>
    induction h generalizing first before with
    | through s t verdicts later stop _ _ _ _ hlater ih =>
      have hrest := (List.cons.inj hcalls).2
      cases before with
      | nil => rwa [hrest] at hlater
      | cons second before => exact ih second before hrest
    | aborted s t verdicts later stop _ _ _ _ hlater ih =>
      have hrest := (List.cons.inj hcalls).2
      rcases before with _ | ⟨second, _ | ⟨third, before⟩⟩
      · simp at hrest
      · rwa [(List.cons.inj hrest).2] at hlater
      · exact ih third before (List.cons.inj hrest).2
    | stuck => rcases before with _ | ⟨second, before⟩ <;> simp at hcalls
    | _ => simp at hcalls

/-- Every reset comes right after the execution that it belongs to. -/
theorem SuiteCalls.from_reset {calls : List Call} {answer : Except Failure Unit}
    (h : SuiteCalls c scenarios calls stop) (hcalls : calls = before ++ .reset answer :: after) :
    ∃ earlier probe limit t, before = earlier ++ [.execute probe limit (.ok t)] ∧
      SuiteCalls c scenarios (.execute probe limit (.ok t) :: .reset answer :: after) stop := by
  induction h generalizing before with
  | finished => simp at hcalls
  | refused => simp at hcalls
  | unanswered => rcases before with _ | ⟨first, before⟩ <;> simp at hcalls
  | astray => rcases before with _ | ⟨first, before⟩ <;> simp at hcalls
  | through s t verdicts later stop hs hvalid hclassify hend hlater ih =>
    rcases before with _ | ⟨first, before⟩
    · simp at hcalls
    · obtain ⟨earlier, probe, limit, t', rfl, hrun⟩ := ih (List.cons.inj hcalls).2
      exact ⟨first :: earlier, probe, limit, t', rfl, hrun⟩
  | aborted s t verdicts later stop hs hvalid hclassify hend hlater ih =>
    rcases before with _ | ⟨first, _ | ⟨second, before⟩⟩
    · simp at hcalls
    · obtain ⟨rfl, hreset⟩ := List.cons.inj hcalls
      refine ⟨[], _, _, t, rfl, ?_⟩
      rw [show Call.reset answer :: after = .reset (.ok ()) :: later from hreset.symm]
      exact .aborted s t verdicts later stop hs hvalid hclassify hend hlater
    · obtain ⟨earlier, probe, limit, t', rfl, hrun⟩ :=
        ih (List.cons.inj (List.cons.inj hcalls).2).2
      exact ⟨first :: second :: earlier, probe, limit, t', rfl, hrun⟩
  | stuck s t verdicts failure hs hvalid hclassify hend =>
    rcases before with _ | ⟨first, _ | ⟨second, before⟩⟩
    · simp at hcalls
    · obtain ⟨rfl, hreset⟩ := List.cons.inj hcalls
      refine ⟨[], _, _, t, rfl, ?_⟩
      rw [show Call.reset answer :: after = [.reset (.error failure)] from hreset.symm]
      exact .stuck s t verdicts failure hs hvalid hclassify hend
    · simp at hcalls

/-- What can follow an execution that gave a transcript. -/
theorem SuiteCalls.after_execute {probe : Probe} {limit : Timespan} {t : Transcript}
    (h : SuiteCalls c scenarios (.execute probe limit (.ok t) :: after) stop) :
    ∃ s ∈ scenarios, probe = .ofScenario s ∧
      ((∃ failure, c.classify s t = .error failure ∧ after = [] ∧ stop = some failure) ∨
        (∃ verdicts, c.classify s t = .ok verdicts ∧ ¬EndInAbort verdicts ∧
          SuiteCalls c scenarios after stop) ∨
        ∃ verdicts answer later, c.classify s t = .ok verdicts ∧ EndInAbort verdicts ∧
          after = .reset answer :: later ∧ (∀ again, later.head? ≠ some (.reset again)) ∧
          ∀ failure, answer = .error failure → later = [] ∧ stop = some failure) := by
  cases h with
  | astray s t failure hs _ hclassify =>
    exact ⟨s, hs, rfl, .inl ⟨failure, hclassify, rfl, rfl⟩⟩
  | through s t verdicts later stop hs _ hclassify hend hlater =>
    exact ⟨s, hs, rfl, .inr (.inl ⟨verdicts, hclassify, hend, hlater⟩)⟩
  | aborted s t verdicts later stop hs _ hclassify hend hlater =>
    refine ⟨s, hs, rfl, .inr (.inr ⟨verdicts, _, later, hclassify, hend, rfl, ?_, ?_⟩)⟩
    · exact hlater.head_ne_reset
    · intro failure hanswer
      cases hanswer
  | stuck s t verdicts failure hs _ hclassify hend =>
    refine ⟨s, hs, rfl, .inr (.inr ⟨verdicts, _, [], hclassify, hend, rfl, by simp, ?_⟩)⟩
    intro other hanswer
    cases hanswer
    exact ⟨rfl, rfl⟩

end

/-! ## What the grammar means for each call -/

/-- Every call of a suite has its place. -/
structure ResetsCleanly (c : Criteria) (scenarios : List Scenario) (calls : List Call)
    (result : Except Failure SuiteReport) : Prop where
  /-- A run that ends in an abort is followed by one reset. -/
  reset_next : ∀ before s limit t verdicts after,
    calls = before ++ .execute (.ofScenario s) limit (.ok t) :: after →
    c.classify s t = .ok verdicts → EndInAbort verdicts →
    ∃ answer later, after = .reset answer :: later ∧ ∀ again, later.head? ≠ some (.reset again)
  /-- There is no other reset. -/
  reset_only : ∀ before answer after, calls = before ++ .reset answer :: after →
    ∃ earlier s limit t verdicts, s ∈ scenarios ∧
      before = earlier ++ [.execute (.ofScenario s) limit (.ok t)] ∧
      c.classify s t = .ok verdicts ∧ EndInAbort verdicts
  /-- Only valid scenarios are executed. -/
  execute_valid : ∀ probe limit answer, .execute probe limit answer ∈ calls →
    ∃ s ∈ scenarios, s.IsValid ∧ probe = .ofScenario s ∧ limit = c.timeout
  /-- A failure of an execution ends the calls and the suite. -/
  execute_failure : ∀ before probe limit failure after,
    calls = before ++ .execute probe limit (.error failure) :: after →
    after = [] ∧ result = .error failure
  /-- A transcript that has no verdicts ends the calls and the suite. -/
  classify_failure : ∀ before s limit t failure after,
    calls = before ++ .execute (.ofScenario s) limit (.ok t) :: after →
    c.classify s t = .error failure → after = [] ∧ result = .error failure
  /-- A failure of a reset ends the calls and the suite. -/
  reset_failure : ∀ before failure after, calls = before ++ .reset (.error failure) :: after →
    after = [] ∧ result = .error failure

theorem eq_error_of_failureOf {α : Type} {result : Except Failure α} {failure : Failure}
    (h : failureOf result = some failure) : result = .error failure := by
  cases result with
  | ok _ => cases h
  | error other => rw [Option.some.inj h]

theorem SuiteCalls.resetsCleanly {c : Criteria} {scenarios : List Scenario} {calls : List Call}
    {result : Except Failure SuiteReport} (h : SuiteCalls c scenarios calls (failureOf result)) :
    ResetsCleanly c scenarios calls result where
  reset_next := by
    intro before s limit t verdicts after hcalls hclassify hend
    -- the run was one of a scenario `s'` of the suite, which may be another one with this probe
    obtain ⟨s', -, hprobe, hcases⟩ := (h.from_execute hcalls).after_execute
    have hcongr := c.endsEarly_classify_congr hprobe t
    rcases hcases with ⟨failure, herror, -⟩ | ⟨verdicts', hok, hnot, -⟩ |
      ⟨verdicts', answer, later, -, -, hafter, hhead, -⟩
    · rw [hclassify, herror] at hcongr
      cases hcongr
    · rw [hclassify, hok] at hcongr
      have hsame : Criteria.endsEarly verdicts = Criteria.endsEarly verdicts' :=
        Except.ok.inj hcongr
      rw [← Criteria.endsEarly_iff, hsame, Criteria.endsEarly_iff] at hend
      exact absurd hend hnot
    · exact ⟨answer, later, hafter, hhead⟩
  reset_only := by
    intro before answer after hcalls
    obtain ⟨earlier, probe, limit, t, hbefore, hrun⟩ := h.from_reset hcalls
    obtain ⟨s, hs, rfl, hcases⟩ := hrun.after_execute
    rcases hcases with ⟨_, -, hafter, -⟩ | ⟨_, -, -, hlater⟩ | ⟨verdicts, _, _, hok, hend, -⟩
    · cases hafter
    · exact absurd rfl (hlater.head_ne_reset answer)
    · exact ⟨earlier, s, limit, t, verdicts, hs, hbefore, hok, hend⟩
  execute_valid := by
    intro probe limit answer hmem
    obtain ⟨before, after, hcalls⟩ := List.append_of_mem hmem
    have hrun := h.from_execute hcalls
    generalize failureOf result = stop at hrun
    cases hrun with
    | unanswered s failure hs hvalid => exact ⟨s, hs, hvalid, rfl, rfl⟩
    | astray s t failure hs hvalid => exact ⟨s, hs, hvalid, rfl, rfl⟩
    | through s t verdicts later stop hs hvalid => exact ⟨s, hs, hvalid, rfl, rfl⟩
    | aborted s t verdicts later stop hs hvalid => exact ⟨s, hs, hvalid, rfl, rfl⟩
    | stuck s t verdicts failure hs hvalid => exact ⟨s, hs, hvalid, rfl, rfl⟩
  execute_failure := by
    intro before probe limit failure after hcalls
    have hrun := h.from_execute hcalls
    generalize hstop : failureOf result = stop at hrun
    cases hrun with
    | unanswered s failure hs hvalid => exact ⟨rfl, eq_error_of_failureOf hstop⟩
  classify_failure := by
    intro before s limit t failure after hcalls hclassify
    obtain ⟨s', -, hprobe, hcases⟩ := (h.from_execute hcalls).after_execute
    have hcongr := c.endsEarly_classify_congr hprobe t
    rw [hclassify] at hcongr
    rcases hcases with ⟨failure', herror, hafter, hstop⟩ | ⟨_, hok, -, -⟩ | ⟨_, _, _, hok, -, -⟩
    · rw [herror] at hcongr
      cases hcongr
      exact ⟨hafter, eq_error_of_failureOf hstop⟩
    · rw [hok] at hcongr
      cases hcongr
    · rw [hok] at hcongr
      cases hcongr
  reset_failure := by
    intro before failure after hcalls
    obtain ⟨_, _, _, _, -, hrun⟩ := h.from_reset hcalls
    obtain ⟨_, -, -, hcases⟩ := hrun.after_execute
    rcases hcases with ⟨_, -, hafter, -⟩ | ⟨_, -, -, hlater⟩ |
      ⟨_, answer, later, -, -, hafter, -, hfailure⟩
    · cases hafter
    · exact absurd rfl (hlater.head_ne_reset _)
    · obtain ⟨hanswer, rfl⟩ := List.cons.inj hafter
      obtain ⟨rfl, hstop⟩ := hfailure failure (Call.reset.inj hanswer).symm
      exact ⟨rfl, eq_error_of_failureOf hstop⟩

/-! ## Tasks that follow the grammar -/

/-- The task asks every subject for calls of the grammar. -/
def Task.AsksFor {α : Type} (c : Criteria) (scenarios : List Scenario) (t : Task α) : Prop :=
  ∀ (σ : Type) (subject : Subject σ) (state : σ),
    SuiteCalls c scenarios (t.calls subject state) (failureOf (t.run subject state).1)

theorem Task.AsksFor.pure {α : Type} {c : Criteria} {scenarios : List Scenario} (a : α) :
    (Pure.pure a : Task α).AsksFor c scenarios := by
  intro σ subject state
  exact .finished

theorem Task.AsksFor.bind {α β : Type} {c : Criteria} {scenarios : List Scenario} {t : Task α}
    {f : α → Task β} (ht : t.AsksFor c scenarios) (hf : ∀ a, (f a).AsksFor c scenarios) :
    (t >>= f).AsksFor c scenarios := by
  intro σ subject state
  have hfirst := ht σ subject state
  rw [Task.run_bind, Task.calls_bind]
  rcases hrun : t.run subject state with ⟨failure | a, middle⟩
  · rw [hrun] at hfirst
    simpa [failureOf] using hfirst
  · rw [hrun] at hfirst
    exact hfirst.append (hf a σ subject middle)

/-! ## The calls of a suite -/

namespace Criteria

variable (c : Criteria) {scenarios : List Scenario} {s : Scenario}

/-- The calls of one run. -/
theorem runOnce_asksFor (hs : s ∈ scenarios) : (c.runOnce s).AsksFor c scenarios := by
  intro σ subject state
  unfold runOnce
  rw [Task.run_bind, Task.calls_bind]
  cases hcheck : s.check with
  | error failure => exact .refused s failure hs hcheck
  | ok _ =>
    have hvalid := s.check_eq_ok_iff.1 hcheck
    simp only [Task.ofExcept, Task.run, Task.calls, List.nil_append]
    rcases subject.execute state (.ofScenario s) c.timeout with ⟨failure | t, middle⟩
    · exact .unanswered s failure hs hvalid
    · simp only
      rw [Task.run_bind, Task.calls_bind]
      cases hclassify : c.classify s t with
      | error failure => exact .astray s t failure hs hvalid hclassify
      | ok verdicts =>
        simp only [Task.run, Task.calls, List.nil_append]
        by_cases hend : endsEarly verdicts
        · have habort := endsEarly_iff.1 hend
          simp only [if_pos hend, Task.run, Task.calls]
          rcases subject.reset middle with ⟨failure | _, last⟩
          · exact .stuck s t verdicts failure hs hvalid hclassify habort
          · exact .aborted s t verdicts [] none hs hvalid hclassify habort .finished
        · have habort := fun h => hend (endsEarly_iff.2 h)
          rw [if_neg hend]
          exact .through s t verdicts [] none hs hvalid hclassify habort .finished

theorem repeatFrom_asksFor (hs : s ∈ scenarios) (first : List Verdict) (attempt remaining : Nat) :
    (c.repeatFrom s first attempt remaining).AsksFor c scenarios := by
  induction remaining generalizing attempt with
  | zero => exact .pure first
  | succ remaining ih =>
    apply Task.AsksFor.bind (c.runOnce_asksFor hs)
    intro again
    split
    · exact .pure _
    · exact ih (attempt + 1)

theorem runRepeated_asksFor (hs : s ∈ scenarios) (runs : Nat) :
    (c.runRepeated s runs).AsksFor c scenarios :=
  (c.runOnce_asksFor hs).bind fun first => c.repeatFrom_asksFor hs first 2 (runs - 1)

end Criteria

namespace Settings

variable (c : Settings)

theorem runFrom_asksFor {scenarios all : List Scenario} (hall : scenarios ⊆ all)
    (collection : Collection) : (c.runFrom collection scenarios).AsksFor c.criteria all := by
  induction scenarios generalizing collection with
  | nil => exact .pure _
  | cons s rest ih =>
    apply Task.AsksFor.bind (c.criteria.runRepeated_asksFor (hall List.mem_cons_self) c.runs)
    intro verdicts
    exact ih (fun s' hs' => hall (List.mem_cons_of_mem _ hs')) _

/-- The calls of a suite follow the grammar. -/
theorem runSuite_asksFor (name : String) (scenarios : List Scenario) :
    (c.runSuite name scenarios).AsksFor c.criteria scenarios :=
  c.runFrom_asksFor (List.Subset.refl scenarios) _

/-- A scenario that is refused ends the suite: what comes before it runs, and the rest is the
failure of its check. -/
theorem runFrom_refused {s : Scenario} {failure : Failure} (hs : s.check = .error failure)
    (before after : List Scenario) (collection : Collection) :
    c.runFrom collection (before ++ s :: after) =
      c.runFrom collection before >>= fun _ => Task.ofExcept (.error failure) := by
  induction before generalizing collection with
  | nil =>
    have hrun : c.criteria.runRepeated s c.runs = Task.ofExcept (.error failure) := by
      unfold Criteria.runRepeated Criteria.runOnce
      rw [hs]
      rfl
    rw [List.nil_append, show c.runFrom collection (s :: after) = _ >>= _ from rfl, hrun]
    rfl
  | cons first before ih =>
    rw [List.cons_append, runFrom, runFrom, Task.bind_assoc]
    exact congrArg _ (funext fun verdicts => ih _)

/-- Whatever the subject, it is reset after each run that ends in an abort and at no other time,
and a failure ends its calls and the suite. A scenario that is refused adds no call to those of the
scenarios before it, and its fault is the failure of the suite unless they have one. -/
theorem runSuite_resetsCleanly {σ : Type} (subject : Subject σ) (name : String)
    (scenarios : List Scenario) (state : σ) :
    let suite := (c.runSuite name scenarios).run subject.recorded (state, [])
    ResetsCleanly c.criteria scenarios suite.2.2 suite.1 ∧
      ∀ before s after fault, scenarios = before ++ s :: after → s.fault? = some fault →
        let earlier := (c.runSuite name before).run subject.recorded (state, [])
        suite.2.2 = earlier.2.2 ∧
          failureOf suite.1 =
            some ((failureOf earlier.1).getD (.invalidScenario s.id fault)) := by
  intro suite
  constructor
  · have hcalls := c.runSuite_asksFor name scenarios σ subject state
    simp only [suite, Task.run_recorded, List.nil_append]
    exact hcalls.resetsCleanly
  · intro before s after fault hscenarios hfault earlier
    have hcheck : s.check = .error (.invalidScenario s.id fault) := by
      rw [Scenario.check, hfault]
    have hsuite : c.runSuite name scenarios =
        c.runSuite name before >>= fun _ =>
          Task.ofExcept (.error (.invalidScenario s.id fault)) := by
      rw [hscenarios]
      exact c.runFrom_refused hcheck before after _
    simp only [suite, earlier, hsuite, Task.run_recorded, Task.run_bind, Task.calls_bind]
    rcases (c.runSuite name before).run subject state with ⟨failure | report, middle⟩
    · simp [failureOf]
    · simp [failureOf, Task.ofExcept, Task.run, Task.calls]

/-- A mimic that gives right results but exits in every second run, on the way to the second
checkpoint. -/
def exitsInSecondRun (scenarios : List Scenario) : Mimic Unit :=
  { known := Mimic.knowledge scenarios
    behaviour := fun memory call =>
      if call.run = 2 ∧ call.index = 1 then (.exit 139, memory)
      else Mimic.giveExpected memory call }

/-- Of three runs only two are made, as the second one ends in an abort, and the reset after it is
the last call: the next scenario has no id and is refused. -/
theorem runSuite_resetsCleanly_exit :
    let run scenarios := (({ runs := 3 } : Settings).runSuite "fake" scenarios).run
      (exitsInSecondRun [sumScenario]).subject.recorded (⟨(), [], 0⟩, [])
    let scenarios := [sumScenario, { sumScenario with id := "" }]
    (run scenarios).2.1.executed = ["arity/sum2", "arity/sum2"] ∧
      (run scenarios).2.1.resets = 1 ∧
      ResetsCleanly {} scenarios (run scenarios).2.2 (run scenarios).1 ∧
      (run scenarios).2.2 = (run [sumScenario]).2.2 ∧ (run scenarios).2.2.length = 3 ∧
      failureOf (run scenarios).1 = some (.invalidScenario "" .invalidId) := by
  intro run scenarios
  obtain ⟨hclean, hrefused⟩ := runSuite_resetsCleanly { runs := 3 }
    (exitsInSecondRun [sumScenario]).subject "fake" scenarios ⟨(), [], 0⟩
  obtain ⟨hcalls, hfailure⟩ := hrefused [sumScenario] { sumScenario with id := "" } [] .invalidId
    rfl (by decide)
  have hearlier : failureOf (run [sumScenario]).1 = none := by decide +kernel
  rw [show failureOf _ = none from hearlier] at hfailure
  exact ⟨by decide +kernel, by decide +kernel, hclean, hcalls, by decide +kernel, hfailure⟩

end Settings
end TierCheck
