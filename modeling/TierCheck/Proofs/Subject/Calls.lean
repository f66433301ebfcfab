import TierCheck.Subject.Basic

/-!
# What a task asks of its subject

`Task.calls` is the record of a run: every operation that the task asked for, in order, with the
subject's answer. It follows `Task.run` step by step, so the record ends where the run does, and a
failure of the subject is the last thing in it.

Two tasks are coupled by a relation of their results if they ask for the same operations in the
same order, whatever is answered, and end in the same failure or in related results. On one subject
they make the same calls then, and leave it in the same state.

* `run_recorded`: the record is what a subject that writes its calls down has written.
* `forall_mem_calls`: what the subject's answers say about all calls.
* `run_bind`, `calls_bind`: a task after another one.
* `Executes`: the probes that a task can ask for, whatever the subject answers;
  `Executes.transcriptsOf_calls` carries that over to every run.
* `transcriptsOf`: the transcripts that were given for one scenario, in order.
* `executions`: how many of the calls are executions.
* `Matches`, `Coupled.bind`: results that match, and coupled tasks with coupled tasks behind them.
* `Coupled.run`: coupled tasks on a subject. On one that writes its calls down, as
  `Subject.recorded` does, the same state means the same calls.
-/
namespace TierCheck

/-- One operation that a subject was asked for, with its answer. -/
inductive Call where
  | execute (probe : Probe) (limit : Timespan) (answer : Except Failure Transcript)
  | reset (answer : Except Failure Unit)

/-- The transcript that the call gave for the scenario. -/
def Call.transcript? (id : String) : Call → Option Transcript
  | execute probe _ (.ok transcript) => if probe.id = id then some transcript else none
  | _ => none

def transcriptsOf (id : String) (calls : List Call) : List Transcript :=
  calls.filterMap (·.transcript? id)

@[simp] theorem transcriptsOf_nil (id : String) : transcriptsOf id [] = [] := rfl

@[simp] theorem transcriptsOf_append (id : String) (a b : List Call) :
    transcriptsOf id (a ++ b) = transcriptsOf id a ++ transcriptsOf id b :=
  List.filterMap_append

@[simp] theorem transcriptsOf_reset (id : String) (answer : Except Failure Unit)
    (calls : List Call) : transcriptsOf id (.reset answer :: calls) = transcriptsOf id calls := rfl

theorem transcriptsOf_execute (probe : Probe) (limit : Timespan) (t : Transcript)
    (calls : List Call) :
    transcriptsOf probe.id (.execute probe limit (.ok t) :: calls) =
      t :: transcriptsOf probe.id calls := by
  simp [transcriptsOf, Call.transcript?]

def executions (calls : List Call) : Nat :=
  calls.countP fun
    | .execute .. => true
    | .reset _ => false

@[simp] theorem executions_append (a b : List Call) :
    executions (a ++ b) = executions a + executions b :=
  List.countP_append

/-- The subject that also writes down its calls. -/
def Subject.recorded {σ : Type} (subject : Subject σ) : Subject (σ × List Call) :=
  { label := subject.label
    execute := fun (state, written) probe limit =>
      let (answer, state) := subject.execute state probe limit
      (answer, state, written ++ [.execute probe limit answer])
    reset := fun (state, written) =>
      let (answer, state) := subject.reset state
      (answer, state, written ++ [.reset answer]) }

theorem Subject.recorded_execute {σ : Type} (subject : Subject σ) (state : σ)
    (written : List Call) (probe : Probe) (limit : Timespan) :
    subject.recorded.execute (state, written) probe limit =
      ((subject.execute state probe limit).1, (subject.execute state probe limit).2,
        written ++ [.execute probe limit (subject.execute state probe limit).1]) := rfl

theorem Subject.recorded_reset {σ : Type} (subject : Subject σ) (state : σ)
    (written : List Call) :
    subject.recorded.reset (state, written) =
      ((subject.reset state).1, (subject.reset state).2,
        written ++ [.reset (subject.reset state).1]) := rfl

namespace Task

variable {α β σ : Type}

/-- The operations that the task asks a subject for, from a state on. -/
def calls (subject : Subject σ) : Task α → σ → List Call
  | done _, _ => []
  | execute probe limit next, state =>
    match subject.execute state probe limit with
    | (.ok transcript, state) =>
      .execute probe limit (.ok transcript) :: calls subject (next transcript) state
    | (.error failure, _) => [.execute probe limit (.error failure)]
  | reset next, state =>
    match subject.reset state with
    | (.ok (), state) => .reset (.ok ()) :: calls subject next state
    | (.error failure, _) => [.reset (.error failure)]

/-- What holds of every operation with the subject's answer to it holds of all calls. -/
theorem forall_mem_calls {P : Call → Prop} {subject : Subject σ}
    (hexecute : ∀ state probe limit,
      P (.execute probe limit (subject.execute state probe limit).1))
    (hreset : ∀ state, P (.reset (subject.reset state).1)) (t : Task α) (state : σ) :
    ∀ call ∈ t.calls subject state, P call := by
  induction t generalizing state with
  | done result => exact fun _ hmem => nomatch hmem
  | execute probe limit next ih =>
    have hfirst := hexecute state probe limit
    rw [calls]
    rcases hanswer : subject.execute state probe limit with ⟨failure | transcript, after⟩
    · rw [hanswer] at hfirst
      exact List.forall_mem_singleton.2 hfirst
    · rw [hanswer] at hfirst
      exact List.forall_mem_cons.2 ⟨hfirst, ih transcript after⟩
  | reset next ih =>
    have hfirst := hreset state
    rw [calls]
    rcases hanswer : subject.reset state with ⟨failure | _, after⟩
    · rw [hanswer] at hfirst
      exact List.forall_mem_singleton.2 hfirst
    · rw [hanswer] at hfirst
      exact List.forall_mem_cons.2 ⟨hfirst, ih after⟩

theorem run_execute_of_error {subject : Subject σ} {probe : Probe} {limit : Timespan} {state : σ}
    {failure : Failure} (h : (subject.execute state probe limit).1 = .error failure)
    (next : Transcript → Task α) :
    ((execute probe limit next).run subject state).1 = .error failure := by
  rw [run]
  rcases hanswer : subject.execute state probe limit with ⟨answer, after⟩
  obtain rfl : answer = .error failure := by rw [← h, hanswer]
  rfl

/-- Writing down the calls changes nothing else. -/
theorem run_recorded (subject : Subject σ) (t : Task α) (state : σ) (written : List Call) :
    t.run subject.recorded (state, written) =
      ((t.run subject state).1, (t.run subject state).2, written ++ t.calls subject state) := by
  induction t generalizing state written with
  | done result => simp [run, calls]
  | execute probe limit next ih =>
    simp only [run, calls, Subject.recorded_execute]
    rcases subject.execute state probe limit with ⟨_ | transcript, state'⟩
    · rfl
    · exact (ih transcript state' _).trans (by simp)
  | reset next ih =>
    simp only [run, calls, Subject.recorded_reset]
    rcases subject.reset state with ⟨_ | _, state'⟩
    · rfl
    · exact (ih state' _).trans (by simp)

/-- Sequences may be grouped as one likes. -/
theorem bind_assoc {γ : Type} (t : Task α) (f : α → Task β) (g : β → Task γ) :
    t >>= f >>= g = t >>= fun a => f a >>= g := by
  change (t.bind f).bind g = t.bind fun a => (f a).bind g
  induction t with
  | done result => cases result <;> rfl
  | execute probe limit next ih => exact congrArg (execute probe limit) (funext ih)
  | reset next ih => exact congrArg reset ih

theorem run_bind (subject : Subject σ) (t : Task α) (f : α → Task β) (state : σ) :
    (t >>= f).run subject state =
      match t.run subject state with
      | (.ok a, state) => (f a).run subject state
      | (.error failure, state) => (.error failure, state) := by
  change (t.bind f).run subject state = _
  induction t generalizing state with
  | done result => cases result <;> rfl
  | execute probe limit next ih =>
    simp only [bind, run]
    split
    · next transcript state' h => exact ih transcript state'
    · rfl
  | reset next ih =>
    simp only [bind, run]
    split
    · next state' h => exact ih state'
    · rfl

theorem calls_bind (subject : Subject σ) (t : Task α) (f : α → Task β) (state : σ) :
    (t >>= f).calls subject state = t.calls subject state ++
      match t.run subject state with
      | (.ok a, state) => (f a).calls subject state
      | (.error _, _) => [] := by
  change (t.bind f).calls subject state = _
  induction t generalizing state with
  | done result => cases result <;> rfl
  | execute probe limit next ih =>
    simp only [bind, run, calls]
    rcases subject.execute state probe limit with ⟨_ | transcript, state'⟩
    · rfl
    · exact congrArg _ (ih transcript state')
  | reset next ih =>
    simp only [bind, run, calls]
    rcases subject.reset state with ⟨_ | _, state'⟩
    · rfl
    · exact congrArg _ (ih state')

/-- A sequence gives a result only if both its parts do. -/
theorem run_bind_eq_ok {subject : Subject σ} {t : Task α} {f : α → Task β} {state state' : σ}
    {b : β} (h : (t >>= f).run subject state = (.ok b, state')) :
    ∃ a middle, t.run subject state = (.ok a, middle) ∧
      (f a).run subject middle = (.ok b, state') ∧
      (t >>= f).calls subject state = t.calls subject state ++ (f a).calls subject middle := by
  rw [run_bind] at h
  rw [calls_bind]
  split at h
  · next a middle hrun => exact ⟨a, middle, hrun, h, rfl⟩
  · cases h

/-- The task executes no other probe than this one, whatever the subject answers. -/
def Executes (probe : Probe) : Task α → Prop
  | done _ => True
  | execute p _ next => p = probe ∧ ∀ transcript, Executes probe (next transcript)
  | reset next => Executes probe next

theorem Executes.bind {probe : Probe} {t : Task α} {f : α → Task β} (ht : t.Executes probe)
    (hf : ∀ a, (f a).Executes probe) : (t >>= f).Executes probe := by
  change (t.bind f).Executes probe
  induction t with
  | done result =>
    cases result with
    | ok a => exact hf a
    | error failure => exact trivial
  | execute p limit next ih => exact ⟨ht.1, fun transcript => ih transcript (ht.2 transcript)⟩
  | reset next ih => exact ih ht

theorem Executes.transcriptsOf_calls {probe : Probe} {t : Task α} (ht : t.Executes probe)
    {id : String} (hid : probe.id ≠ id) (subject : Subject σ) (state : σ) :
    transcriptsOf id (t.calls subject state) = [] := by
  induction t generalizing state with
  | done result => rfl
  | execute p limit next ih =>
    obtain ⟨rfl, hnext⟩ := ht
    simp only [calls]
    split
    · next transcript state' h =>
      rw [← ih transcript (hnext transcript) state']
      simp [transcriptsOf, Call.transcript?, hid]
    · rfl
  | reset next ih =>
    simp only [calls]
    split
    · next state' h => exact ih ht state'
    · rfl

end Task

/-! ## Tasks that ask for the same -/

variable {α β γ δ σ : Type}

/-- The same failure on both sides, or results that are related. -/
inductive Matches (R : α → β → Prop) : Except Failure α → Except Failure β → Prop
  | ok {a : α} {b : β} : R a b → Matches R (.ok a) (.ok b)
  | error (failure : Failure) : Matches R (.error failure) (.error failure)

theorem Matches.refl {R : α → α → Prop} (h : ∀ a, R a a) (result : Except Failure α) :
    Matches R result result := by
  cases result with
  | ok a => exact .ok (h a)
  | error failure => exact .error failure

/-- Related values are put into both results. -/
theorem Matches.map {R : α → β → Prop} {S : γ → δ → Prop} {x : Except Failure α}
    {y : Except Failure β} {f : α → γ} {g : β → δ} (h : Matches R x y)
    (hfg : ∀ a b, R a b → S (f a) (g b)) : Matches S (x.map f) (y.map g) := by
  cases h with
  | ok hab => exact .ok (hfg _ _ hab)
  | error failure => exact .error failure

namespace Task

/-- The tasks ask for the same operations and end in results that match. -/
inductive Coupled (R : α → β → Prop) : Task α → Task β → Prop
  | done {x : Except Failure α} {y : Except Failure β} : Matches R x y →
    Coupled R (.done x) (.done y)
  | execute (probe : Probe) (limit : Timespan) {t : Transcript → Task α}
    {u : Transcript → Task β} : (∀ transcript, Coupled R (t transcript) (u transcript)) →
    Coupled R (.execute probe limit t) (.execute probe limit u)
  | reset {t : Task α} {u : Task β} : Coupled R t u → Coupled R (.reset t) (.reset u)

namespace Coupled

variable {R : α → β → Prop} {S : γ → δ → Prop} {t : Task α} {u : Task β}

theorem pure {a : α} {b : β} (h : R a b) : Coupled R (pure a) (pure b) := .done (.ok h)

theorem bind {f : α → Task γ} {g : β → Task δ} (h : Coupled R t u)
    (hfg : ∀ a b, R a b → Coupled S (f a) (g b)) : Coupled S (t >>= f) (u >>= g) := by
  change Coupled S (t.bind f) (u.bind g)
  induction h with
  | done hmatch =>
    cases hmatch with
    | ok hab => exact hfg _ _ hab
    | error failure => exact .done (.error failure)
  | execute probe limit _ ih => exact .execute probe limit ih
  | reset _ ih => exact .reset ih

/-- On one subject coupled tasks come to the same state and to results that match. -/
theorem run (h : Coupled R t u) (subject : Subject σ) (state : σ) :
    (t.run subject state).2 = (u.run subject state).2 ∧
      Matches R (t.run subject state).1 (u.run subject state).1 := by
  induction h generalizing state with
  | done hmatch => exact ⟨rfl, hmatch⟩
  | execute probe limit _ ih =>
    simp only [Task.run]
    rcases subject.execute state probe limit with ⟨failure | transcript, state'⟩
    · exact ⟨rfl, .error failure⟩
    · exact ih transcript state'
  | reset _ ih =>
    simp only [Task.run]
    rcases subject.reset state with ⟨failure | _, state'⟩
    · exact ⟨rfl, .error failure⟩
    · exact ih state'

end Coupled
end Task

end TierCheck
