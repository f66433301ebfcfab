import TierCheck.Proofs.Run.Completeness
import TierCheck.Run.Concurrent

/-!
# Suites side by side are as good as one after another

A turn of one suite changes nothing for the others, and it leaves open only what was open before:
what the suite comes to is settled when it starts. So at any time the suites, those that were
started and those that are waiting, come to what they come to alone. The coordinator collects that
in the order of the subjects. Every turn uses up one of finitely many steps, and until the
coordinator has returned there is a turn to take, so it does return.

* `Settings.alone`: what a suite comes to alone.
* `Settings.runSuites_eq_ok_iff`, `Settings.runSuites_eq_error_iff`: all suites, one after another.
* `SideBySide.Takes`: what a turn can change.
* `SideBySide.IsOnCourse`: what no turn changes.
* `SideBySide.turnsLeft`: what every turn uses up.
* `Settings.runSuites_interleaved`: the result.
-/
namespace TierCheck

/-! ## One after another -/

namespace Settings

variable {σ : Type} (c : Settings) (scenarios : List Scenario)

/-- What the suite of a subject comes to alone. -/
def alone (p : Subject σ × σ) : Except Failure SuiteReport :=
  ((c.runSuite p.1.label scenarios).run p.1 p.2).1

theorem runSuites_eq (subjects : List (Subject σ × σ)) :
    c.runSuites scenarios subjects =
      (CombinedReport.mk <$> subjects.mapM (c.alone scenarios) : Except Failure CombinedReport) :=
  rfl

theorem runSuites_cons_ok {p : Subject σ × σ} {report : SuiteReport}
    (h : c.alone scenarios p = .ok report) (rest : List (Subject σ × σ)) :
    c.runSuites scenarios (p :: rest) =
      (c.runSuites scenarios rest).map fun combined => ⟨report :: combined.suites⟩ := by
  rw [runSuites_eq, runSuites_eq, List.mapM_cons, h]
  cases rest.mapM (c.alone scenarios) <;> rfl

theorem runSuites_cons_error {p : Subject σ × σ} {failure : Failure}
    (h : c.alone scenarios p = .error failure) (rest : List (Subject σ × σ)) :
    c.runSuites scenarios (p :: rest) = .error failure := by
  rw [runSuites_eq, List.mapM_cons, h]
  rfl

variable {c scenarios} {subjects : List (Subject σ × σ)} {reports : List SuiteReport}

theorem runSuites_of_ok (h : subjects.map (c.alone scenarios) = reports.map .ok) :
    c.runSuites scenarios subjects = .ok ⟨reports⟩ := by
  induction reports generalizing subjects with
  | nil =>
    obtain rfl := List.map_eq_nil_iff.1 h
    rfl
  | cons report reports ih =>
    obtain ⟨p, rest, rfl, hp, hrest⟩ := List.map_eq_cons_iff.1 h
    rw [c.runSuites_cons_ok scenarios hp, ih hrest]
    rfl

theorem runSuites_of_error {failure : Failure} {later : List (Except Failure SuiteReport)}
    (h : subjects.map (c.alone scenarios) = reports.map .ok ++ .error failure :: later) :
    c.runSuites scenarios subjects = .error failure := by
  induction reports generalizing subjects with
  | nil =>
    obtain ⟨p, rest, rfl, hp, -⟩ := List.map_eq_cons_iff.1 h
    exact c.runSuites_cons_error scenarios hp rest
  | cons report reports ih =>
    obtain ⟨p, rest, rfl, hp, hrest⟩ := List.map_eq_cons_iff.1 h
    rw [c.runSuites_cons_ok scenarios hp, ih hrest]
    rfl

end Settings

/-- A list of results is a list of successes, or it has a first failure. -/
theorem exists_first_failure {ε α : Type} (results : List (Except ε α)) :
    (∃ successes : List α, results = successes.map .ok) ∨
      ∃ (successes : List α) (failure : ε) (later : List (Except ε α)),
        results = successes.map .ok ++ .error failure :: later := by
  induction results with
  | nil => exact .inl ⟨[], rfl⟩
  | cons result results ih =>
    cases result with
    | error failure => exact .inr ⟨[], failure, results, rfl⟩
    | ok a =>
      obtain ⟨successes, rfl⟩ | ⟨successes, failure, later, rfl⟩ := ih
      · exact .inl ⟨a :: successes, rfl⟩
      · exact .inr ⟨a :: successes, failure, later, rfl⟩

namespace Settings

variable {σ : Type} (c : Settings) (scenarios : List Scenario) (subjects : List (Subject σ × σ))

/-- The suites succeed if each of them does, with their reports in the order of the subjects. -/
theorem runSuites_eq_ok_iff {reports : List SuiteReport} :
    c.runSuites scenarios subjects = .ok ⟨reports⟩ ↔
      subjects.map (c.alone scenarios) = reports.map .ok := by
  refine ⟨fun h => ?_, runSuites_of_ok⟩
  obtain ⟨reports', hall⟩ | ⟨reports', failure, later, hfirst⟩ :=
    exists_first_failure (subjects.map (c.alone scenarios))
  · rw [runSuites_of_ok hall] at h
    cases h
    exact hall
  · rw [runSuites_of_error hfirst] at h
    cases h

/-- The suites fail as the first one does that fails, in the order of the subjects. -/
theorem runSuites_eq_error_iff {failure : Failure} :
    c.runSuites scenarios subjects = .error failure ↔
      ∃ (reports : List SuiteReport) (later : List (Except Failure SuiteReport)),
        subjects.map (c.alone scenarios) = reports.map .ok ++ .error failure :: later := by
  refine ⟨fun h => ?_, fun ⟨_, _, h⟩ => runSuites_of_error h⟩
  obtain ⟨reports, hall⟩ | ⟨reports, failure', later, hfirst⟩ :=
    exists_first_failure (subjects.map (c.alone scenarios))
  · rw [runSuites_of_ok hall] at h
    cases h
  · rw [runSuites_of_error hfirst] at h
    cases h
    exact ⟨reports, later, hfirst⟩

end Settings

/-! ## Single turns -/

/-- The next operation of a task uses up one of its calls and changes nothing about its result. -/
theorem Task.step?_eq_some {α σ : Type} {subject : Subject σ} {t t' : Task α} {state state' : σ}
    (h : t.step? subject state = some (t', state')) :
    t'.run subject state' = t.run subject state ∧
      (t.calls subject state).length = (t'.calls subject state').length + 1 := by
  cases t with
  | done result => cases h
  | execute probe limit next =>
    simp only [step?] at h
    simp only [run, calls]
    rcases hexecute : subject.execute state probe limit with ⟨failure | transcript, after⟩
    · simp only [hexecute] at h ⊢
      cases h
      exact ⟨rfl, rfl⟩
    · simp only [hexecute] at h ⊢
      cases h
      exact ⟨rfl, rfl⟩
  | reset next =>
    simp only [step?] at h
    simp only [run, calls]
    rcases hreset : subject.reset state with ⟨failure | _, after⟩
    · simp only [hreset] at h ⊢
      cases h
      exact ⟨rfl, rfl⟩
    · simp only [hreset] at h ⊢
      cases h
      exact ⟨rfl, rfl⟩

namespace Running

variable {σ : Type}

/-- What the suite comes to from here. -/
def outcome (r : Running σ) : Except Failure SuiteReport := (r.task.run r.subject r.state).1

def operations (r : Running σ) : Nat := (r.task.calls r.subject r.state).length

theorem outcome_start (c : Settings) (scenarios : List Scenario) (p : Subject σ × σ) :
    (start c scenarios p).outcome = c.alone scenarios p := rfl

theorem step?_eq_some {r r' : Running σ} (h : r.step? = some r') :
    r'.outcome = r.outcome ∧ r.operations = r'.operations + 1 := by
  obtain ⟨⟨task, state⟩, hstep, rfl⟩ := Option.map_eq_some_iff.1 h
  obtain ⟨hrun, hcalls⟩ := Task.step?_eq_some hstep
  exact ⟨congrArg Prod.fst hrun, hcalls⟩

theorem step?_eq_none {r : Running σ} (h : r.step? = none) : r.task = .done r.outcome := by
  obtain ⟨subject, task, state⟩ := r
  have hnone : task.step? subject state = none := Option.map_eq_none_iff.1 h
  cases task with
  | done result => rfl
  | execute probe limit next =>
    simp only [Task.step?] at hnone
    split at hnone <;> cases hnone
  | reset next =>
    simp only [Task.step?] at hnone
    split at hnone <;> cases hnone

theorem outcome_of_done {r : Running σ} {result : Except Failure SuiteReport}
    (h : r.task = .done result) : r.outcome = result := by
  rw [outcome, h]
  rfl

/-! ### One suite among others -/

/-- The step of a suite does not change what the suites come to. -/
theorem map_outcome_set {started : List (Running σ)} {place : Nat} {running running' : Running σ}
    (hrunning : started[place]? = some running) (hstep : running.step? = some running') :
    (started.set place running').map outcome = started.map outcome := by
  induction started generalizing place with
  | nil => cases hrunning
  | cons first rest ih =>
    cases place with
    | zero =>
      obtain rfl := Option.some.inj hrunning
      rw [List.set_cons_zero, List.map_cons, List.map_cons, (step?_eq_some hstep).1]
    | succ place => rw [List.set_cons_succ, List.map_cons, List.map_cons, ih hrunning]

def operationsLeft (running : List (Running σ)) : Nat :=
  running.foldr (fun r sum => r.operations + sum) 0

theorem operationsLeft_set {started : List (Running σ)} {place : Nat} {running running' : Running σ}
    (hrunning : started[place]? = some running) (hstep : running.step? = some running') :
    operationsLeft started = operationsLeft (started.set place running') + 1 := by
  induction started generalizing place with
  | nil => cases hrunning
  | cons first rest ih =>
    cases place with
    | zero =>
      obtain rfl := Option.some.inj hrunning
      have := (step?_eq_some hstep).2
      simp only [operationsLeft, List.set_cons_zero, List.foldr_cons]
      omega
    | succ place =>
      have := ih hrunning
      simp only [operationsLeft, List.set_cons_succ, List.foldr_cons] at this ⊢
      omega

end Running

/-! ## Turns -/

namespace Coordinator

variable {σ : Type}

/-- The subjects whose suites are still to be started. -/
def waiting : Coordinator σ → List (Subject σ × σ)
  | starting waiting => waiting
  | _ => []

def reports : Coordinator σ → List SuiteReport
  | joining reports => reports
  | _ => []

/-- The number of turns that the coordinator has left if `started` suites were started. -/
def turnsLeft (started : Nat) : Coordinator σ → Nat
  | starting waiting => 2 * waiting.length + started + 2
  | joining reports => started - reports.length + 1
  | returned _ => 0

end Coordinator

namespace SideBySide

section

variable {σ : Type} (c : Settings) (scenarios : List Scenario)

/-- What a turn can change. -/
inductive Takes : SideBySide σ → SideBySide σ → Prop
  | launch (started : List (Running σ)) (first : Subject σ × σ) (waiting : List (Subject σ × σ)) :
    Takes ⟨started, .starting (first :: waiting)⟩
      ⟨started ++ [.start c scenarios first], .starting waiting⟩
  | join (started : List (Running σ)) : Takes ⟨started, .starting []⟩ ⟨started, .joining []⟩
  | collect {started : List (Running σ)} {reports : List SuiteReport} {running : Running σ}
    {report : SuiteReport} : started[reports.length]? = some running →
    running.task = .done (.ok report) →
    Takes ⟨started, .joining reports⟩ ⟨started, .joining (reports ++ [report])⟩
  | fail {started : List (Running σ)} {reports : List SuiteReport} {running : Running σ}
    {failure : Failure} : started[reports.length]? = some running →
    running.task = .done (.error failure) →
    Takes ⟨started, .joining reports⟩ ⟨started, .returned (.error failure)⟩
  | finish {started : List (Running σ)} {reports : List SuiteReport} :
    started[reports.length]? = none →
    Takes ⟨started, .joining reports⟩ ⟨started, .returned (.ok ⟨reports⟩)⟩
  | operate {started : List (Running σ)} {place : Nat} {running running' : Running σ}
    (coordinator : Coordinator σ) : started[place]? = some running → running.step? = some running' →
    Takes ⟨started, coordinator⟩ ⟨started.set place running', coordinator⟩

variable {c scenarios} {system system' : SideBySide σ}

theorem takes_of_coordinate? (h : system.coordinate? c scenarios = some system') :
    Takes c scenarios system system' := by
  obtain ⟨started, waiting | reports | result⟩ := system
  · cases waiting with
    | nil =>
      cases h
      exact .join started
    | cons first waiting =>
      cases h
      exact .launch started first waiting
  · simp only [coordinate?] at h
    split at h
    · next hnone =>
      cases h
      exact .finish hnone
    · next running hrunning =>
      split at h
      · next report hdone =>
        cases h
        exact .collect hrunning hdone
      · next failure hdone =>
        cases h
        exact .fail hrunning hdone
      · cases h
  · cases h

theorem takes_of_step? {turn : Turn} (h : system.step? c scenarios turn = some system') :
    Takes c scenarios system system' := by
  cases turn with
  | coordinator => exact takes_of_coordinate? h
  | suite place =>
    obtain ⟨running, hrunning, h⟩ := Option.bind_eq_some_iff.1 h
    obtain ⟨running', hstep, h⟩ := Option.bind_eq_some_iff.1 h
    cases h
    exact .operate system.coordinator hrunning hstep

/-- Until the coordinator has returned there is a turn to take: its own, or that of the suite for
which it waits. -/
theorem result?_ne_none (h : ∀ turn, system.step? c scenarios turn = none) :
    system.coordinator.result? ≠ none := by
  intro hresult
  have hlaunch := h .coordinator
  obtain ⟨started, waiting | reports | result⟩ := system
  · cases waiting <;> cases hlaunch
  · simp only [step?, coordinate?] at hlaunch
    split at hlaunch
    · cases hlaunch
    · next running hrunning =>
      have hstep : running.step? = none := by
        have hsuite := h (.suite reports.length)
        simp only [step?, hrunning] at hsuite
        cases hnext : running.step? with
        | none => rfl
        | some running' => simp [hnext] at hsuite
      rw [Running.step?_eq_none hstep] at hlaunch
      cases houtcome : running.outcome <;> simp [houtcome] at hlaunch
  · cases hresult

end

/-! ## What no turn changes -/

section

variable {σ : Type} {c : Settings} {scenarios : List Scenario} {subjects : List (Subject σ × σ)}
  {system system' : SideBySide σ}

/-- All suites come to what they come to alone, the reports that were collected are those of the
first suites, and what the coordinator returned is what the suites come to one after another. -/
structure IsOnCourse (c : Settings) (scenarios : List Scenario) (subjects : List (Subject σ × σ))
    (system : SideBySide σ) : Prop where
  outcomes_eq : system.started.map Running.outcome ++
    system.coordinator.waiting.map (c.alone scenarios) = subjects.map (c.alone scenarios)
  reports_prefix : system.coordinator.reports.map .ok <+: subjects.map (c.alone scenarios)
  result_eq : ∀ result, system.coordinator.result? = some result →
    result = c.runSuites scenarios subjects

theorem isOnCourse_start (subjects : List (Subject σ × σ)) :
    IsOnCourse c scenarios subjects (.start subjects) :=
  ⟨rfl, List.nil_prefix, fun _ h => nomatch h⟩

/-- What comes after the reports that were collected. -/
theorem IsOnCourse.exists_rest {started : List (Running σ)} {reports : List SuiteReport}
    (h : IsOnCourse c scenarios subjects ⟨started, .joining reports⟩) :
    ∃ rest, subjects.map (c.alone scenarios) = reports.map .ok ++ rest ∧
      rest.head? = started[reports.length]?.map Running.outcome := by
  obtain ⟨rest, hrest⟩ := h.reports_prefix
  have houtcomes : started.map Running.outcome = subjects.map (c.alone scenarios) := by
    rw [← h.outcomes_eq]
    exact (List.append_nil _).symm
  refine ⟨rest, hrest.symm, ?_⟩
  rw [← List.getElem?_map, houtcomes, ← hrest, List.head?_eq_getElem?, Coordinator.reports,
    List.getElem?_append_right (by simp)]
  simp

theorem IsOnCourse.takes (h : IsOnCourse c scenarios subjects system)
    (hturn : Takes c scenarios system system') : IsOnCourse c scenarios subjects system' := by
  cases hturn with
  | launch started first waiting =>
    refine ⟨?_, List.nil_prefix, fun _ h => nomatch h⟩
    rw [← h.outcomes_eq]
    simp [Coordinator.waiting, Running.outcome_start]
  | join started => exact ⟨h.outcomes_eq, List.nil_prefix, fun _ h => nomatch h⟩
  | collect hrunning hdone =>
    obtain ⟨rest, hrest, hhead⟩ := h.exists_rest
    rw [hrunning, Option.map_some, Running.outcome_of_done hdone] at hhead
    obtain ⟨later, rfl⟩ := List.head?_eq_some_iff.1 hhead
    refine ⟨h.outcomes_eq, ⟨later, ?_⟩, fun _ h => nomatch h⟩
    rw [hrest]
    simp [Coordinator.reports]
  | fail hrunning hdone =>
    obtain ⟨rest, hrest, hhead⟩ := h.exists_rest
    rw [hrunning, Option.map_some, Running.outcome_of_done hdone] at hhead
    obtain ⟨later, rfl⟩ := List.head?_eq_some_iff.1 hhead
    refine ⟨h.outcomes_eq, List.nil_prefix, ?_⟩
    rintro _ ⟨⟩
    exact (Settings.runSuites_of_error hrest).symm
  | finish hnone =>
    obtain ⟨rest, hrest, hhead⟩ := h.exists_rest
    rw [hnone, Option.map_none, List.head?_eq_none_iff] at hhead
    rw [hhead, List.append_nil] at hrest
    refine ⟨h.outcomes_eq, List.nil_prefix, ?_⟩
    rintro _ ⟨⟩
    exact (Settings.runSuites_of_ok hrest).symm
  | operate coordinator hrunning hstep =>
    refine ⟨?_, h.reports_prefix, h.result_eq⟩
    rw [Running.map_outcome_set hrunning hstep]
    exact h.outcomes_eq

end

/-! ## What every turn uses up -/

section

variable {σ : Type} (c : Settings) (scenarios : List Scenario)

def turnsLeft (system : SideBySide σ) : Nat :=
  Running.operationsLeft
      (system.started ++ system.coordinator.waiting.map (Running.start c scenarios)) +
    system.coordinator.turnsLeft system.started.length

variable {c scenarios} {subjects : List (Subject σ × σ)} {system system' : SideBySide σ}

theorem Takes.turnsLeft_lt (h : Takes c scenarios system system') :
    system'.turnsLeft c scenarios < system.turnsLeft c scenarios := by
  cases h with
  | launch started first waiting =>
    simp only [turnsLeft, Coordinator.waiting, Coordinator.turnsLeft, List.append_assoc,
      List.map_cons, List.singleton_append, List.length_append, List.length_cons, List.length_nil]
    omega
  | join started => simp [turnsLeft, Coordinator.waiting, Coordinator.turnsLeft]
  | @collect started reports _ _ hrunning hdone =>
    have hlength : reports.length < started.length := (List.getElem?_eq_some_iff.1 hrunning).1
    simp only [turnsLeft, Coordinator.waiting, Coordinator.turnsLeft, List.length_append,
      List.length_singleton]
    omega
  | fail hrunning hdone => simp [turnsLeft, Coordinator.waiting, Coordinator.turnsLeft]
  | finish hnone => simp [turnsLeft, Coordinator.waiting, Coordinator.turnsLeft]
  | @operate started place running running' coordinator hrunning hstep =>
    have hlength : place < started.length := (List.getElem?_eq_some_iff.1 hrunning).1
    have hplace : (started ++ coordinator.waiting.map (Running.start c scenarios))[place]? =
        some running := (List.getElem?_append_left hlength).trans hrunning
    have hleft := Running.operationsLeft_set hplace hstep
    rw [List.set_append_left _ _ hlength] at hleft
    simp only [turnsLeft, List.length_set]
    omega

/-- Several turns. -/
theorem after?_eq_some {turns : List Turn} (h : system.after? c scenarios turns = some system')
    (hsystem : IsOnCourse c scenarios subjects system) :
    IsOnCourse c scenarios subjects system' ∧
      turns.length + system'.turnsLeft c scenarios ≤ system.turnsLeft c scenarios := by
  induction turns generalizing system with
  | nil =>
    obtain rfl := Option.some.inj h
    exact ⟨hsystem, by simp⟩
  | cons turn turns ih =>
    obtain ⟨middle, hfirst, hrest⟩ := Option.bind_eq_some_iff.1 h
    have htakes := takes_of_step? hfirst
    obtain ⟨hsystem', hleft⟩ := ih hrest (hsystem.takes htakes)
    have := htakes.turnsLeft_lt
    exact ⟨hsystem', by rw [List.length_cons]; omega⟩

end

end SideBySide

namespace Settings

/-- In whatever order the turns are taken, suites side by side come to what they come to one after
another. There are only so many turns. What the coordinator has returned, if it has, is the result
of the suites one after another, and when there is no turn left it has returned. The result is the
reports that the suites have alone, in the order of the subjects, or else the failure of the first
suite in that order that fails alone. -/
theorem runSuites_interleaved {σ : Type} (c : Settings) (scenarios : List Scenario)
    (subjects : List (Subject σ × σ)) (turns : List Turn) (system : SideBySide σ)
    (h : (SideBySide.start subjects).after? c scenarios turns = some system) :
    turns.length ≤ Running.operationsLeft (subjects.map (Running.start c scenarios)) +
        2 * subjects.length + 2 ∧
      (∀ result, system.coordinator.result? = some result →
        result = c.runSuites scenarios subjects) ∧
      ((∀ turn, system.step? c scenarios turn = none) →
        system.coordinator.result? = some (c.runSuites scenarios subjects)) ∧
      (∀ reports : List SuiteReport, c.runSuites scenarios subjects = .ok ⟨reports⟩ ↔
        subjects.map (c.alone scenarios) = reports.map .ok) ∧
      ∀ failure, c.runSuites scenarios subjects = .error failure ↔
        ∃ (reports : List SuiteReport) (later : List (Except Failure SuiteReport)),
          subjects.map (c.alone scenarios) = reports.map .ok ++ .error failure :: later := by
  obtain ⟨hcourse, hturns⟩ := SideBySide.after?_eq_some h (SideBySide.isOnCourse_start subjects)
  refine ⟨Nat.le_trans (Nat.le_add_right _ _) hturns, hcourse.result_eq, fun hstuck => ?_,
    fun _ => c.runSuites_eq_ok_iff scenarios subjects,
    fun _ => c.runSuites_eq_error_iff scenarios subjects⟩
  obtain ⟨result, hresult⟩ := Option.ne_none_iff_exists'.1 (SideBySide.result?_ne_none hstuck)
  rw [hresult, hcourse.result_eq result hresult]

/-- A subject that plays back these lines once, and nothing after them. -/
def playing (label : String) (lines : List String) : Subject Playback × Playback :=
  (Playback.subject label, { recordings := [{ lines }] })

/-- Three suites, two of them under one label. The last one fails before the others have made a
step, and the second one before the first one is done. The failure of the second one counts. -/
theorem runSuites_interleaved_failing :
    let subjects := [playing "first" [], playing "other" ["CHECKPOINT:elsewhere"],
      playing "other" ["FAULT:warm"]]
    let turns : List Turn := [.coordinator, .coordinator, .coordinator, .suite 2, .coordinator,
      .suite 1, .suite 0, .suite 0, .coordinator, .coordinator]
    let failure := Failure.outOfOrder "arity/sum2" "warm" "elsewhere"
    ∃ system, (SideBySide.start subjects).after? {} [sumScenario] turns = some system ∧
      system.coordinator.result? = some (.error failure) ∧
      ({} : Settings).runSuites [sumScenario] subjects = .error failure ∧
      (∃ (reports : List SuiteReport) (later : List (Except Failure SuiteReport)),
        subjects.map (({} : Settings).alone [sumScenario]) =
          reports.map .ok ++ .error failure :: later) ∧
      ∃ other, ({} : Settings).alone [sumScenario] (playing "other" ["FAULT:warm"]) =
        .error (.malformedLine other) := by
  intro subjects turns failure
  have hreturned : (((SideBySide.start subjects).after? {} [sumScenario] turns).bind
      (·.coordinator.result?)) = some (.error failure) := rfl
  obtain ⟨system, hsystem, hresult⟩ := Option.bind_eq_some_iff.1 hreturned
  obtain ⟨-, hequal, -, -, herror⟩ :=
    runSuites_interleaved {} [sumScenario] subjects turns system hsystem
  have hsuites := (hequal _ hresult).symm
  exact ⟨system, hsystem, hresult, hsuites, (herror failure).1 hsuites, _, rfl⟩

end Settings

end TierCheck
