import TierCheck.Proofs.Subject.Calls
import TierCheck.Run.Suite

/-!
# Single and repeated runs of a scenario

What is known of a run that gives verdicts, for any subject: a single run executed the scenario's
probe once and classified the transcript, and reset the subject if it did not get through. A
repeated run gives the verdicts of the first run; either every further run agreed with it in kind,
or one more verdict says that one did not.

* `firstDivergence?_eq_none_iff`: two lists of verdicts do not diverge if their kinds are equal.
* `runOnce_run`: a run whose transcript has verdicts, on a subject that can be reset.
* `runOnce_eq_ok`, `repeatFrom_eq_ok`, `runRepeated_eq_ok`: the runs that give verdicts.
-/
namespace TierCheck

theorem firstDivergence?_eq_none_iff {a b : List Verdict} :
    firstDivergence? a b = none ↔ a.map (·.kind) = b.map (·.kind) := by
  induction a generalizing b with
  | nil => cases b <;> simp [firstDivergence?]
  | cons x a ih =>
    cases b with
    | nil => simp [firstDivergence?]
    | cons y b =>
      rw [firstDivergence?]
      split
      · next h => simp [h, ih]
      · next h => simp [h]

namespace Criteria

variable {σ : Type} (c : Criteria) (s : Scenario) {subject : Subject σ} {state state' : σ}

theorem runOnce_executes : (c.runOnce s).Executes (.ofScenario s) := by
  refine Task.Executes.bind (by unfold Task.ofExcept; exact trivial) fun _ => ⟨rfl, fun t => ?_⟩
  refine Task.Executes.bind (by unfold Task.ofExcept; exact trivial) fun verdicts => ?_
  split
  · exact trivial
  · exact trivial

theorem repeatFrom_executes (first : List Verdict) (attempt remaining : Nat) :
    (c.repeatFrom s first attempt remaining).Executes (.ofScenario s) := by
  induction remaining generalizing attempt with
  | zero => exact trivial
  | succ remaining ih =>
    refine Task.Executes.bind (c.runOnce_executes s) fun again => ?_
    split
    · exact trivial
    · exact ih (attempt + 1)

theorem runRepeated_executes (runs : Nat) : (c.runRepeated s runs).Executes (.ofScenario s) :=
  Task.Executes.bind (c.runOnce_executes s) fun first => c.repeatFrom_executes s first 2 (runs - 1)

/-- The end of a run: the subject is reset if it did not get through. -/
theorem run_end_eq_ok {verdicts given : List Verdict}
    (h : (if endsEarly given then Task.reset (pure given) else pure given).run subject state =
      (.ok verdicts, state')) :
    verdicts = given ∧
      (if endsEarly given then Task.reset (pure given) else pure given).calls subject state =
        if endsEarly verdicts then [.reset (.ok ())] else [] := by
  by_cases hends : endsEarly given
  · simp only [if_pos hends, Task.run, Task.calls] at h ⊢
    rcases hsub : subject.reset state with ⟨_ | _, last⟩
    · simp [hsub] at h
    · simp only [hsub, pure, Task.run, Prod.mk.injEq, Except.ok.injEq] at h
      obtain ⟨rfl, -⟩ := h
      exact ⟨rfl, by rw [if_pos hends]; rfl⟩
  · simp only [if_neg hends, pure, Task.run, Prod.mk.injEq, Except.ok.injEq] at h ⊢
    obtain ⟨rfl, -⟩ := h
    exact ⟨rfl, by rw [if_neg hends]; rfl⟩

/-- A run that gives verdicts is one execution of the probe, whose transcript has these verdicts,
and a reset if the subject did not get through. -/
theorem runOnce_eq_ok {verdicts : List Verdict}
    (h : (c.runOnce s).run subject state = (.ok verdicts, state')) :
    s.IsValid ∧ ∃ t, c.classify s t = .ok verdicts ∧
      (c.runOnce s).calls subject state =
        .execute (.ofScenario s) c.timeout (.ok t) ::
          if endsEarly verdicts then [.reset (.ok ())] else [] := by
  obtain ⟨_, start, hcheck, hexec, hcalls⟩ := Task.run_bind_eq_ok h
  simp only [Task.ofExcept, Task.run, Prod.mk.injEq] at hcheck
  obtain ⟨hcheck, rfl⟩ := hcheck
  refine ⟨(s.check_eq_ok_iff).1 hcheck, ?_⟩
  rw [show (c.runOnce s).calls subject state = _ from hcalls]
  simp only [Task.run] at hexec
  simp only [Task.ofExcept, Task.calls, List.nil_append]
  rcases hsub : subject.execute state (.ofScenario s) c.timeout with ⟨failure | t, middle⟩
  · simp [hsub] at hexec
  · simp only [hsub] at hexec
    obtain ⟨given, after, hclassify, hend, hmore⟩ := Task.run_bind_eq_ok hexec
    simp only [Task.ofExcept, Task.run, Prod.mk.injEq] at hclassify
    obtain ⟨hclassify, rfl⟩ := hclassify
    obtain ⟨rfl, hcalls⟩ := run_end_eq_ok hend
    exact ⟨t, hclassify, congrArg (Call.execute _ _ (.ok t) :: ·) (hmore.trans hcalls)⟩

/-- A valid scenario whose transcript has verdicts gives them, with a reset after them if the
subject did not get through. -/
theorem runOnce_run (hs : s.IsValid) {t : Transcript} {verdicts : List Verdict} {middle last : σ}
    (hexecute : subject.execute state (.ofScenario s) c.timeout = (.ok t, middle))
    (hclassify : c.classify s t = .ok verdicts) (hreset : subject.reset middle = (.ok (), last)) :
    (c.runOnce s).run subject state =
      (.ok verdicts, if endsEarly verdicts then last else middle) := by
  have hcheck : s.check = .ok () := s.check_eq_ok_iff.2 hs
  unfold runOnce
  rw [Task.run_bind, hcheck]
  simp only [Task.ofExcept, Task.run, hexecute]
  rw [Task.run_bind, hclassify]
  by_cases hend : endsEarly verdicts
  · simp only [if_pos hend, Task.run, hreset]
    rfl
  · simp only [if_neg hend, Task.run]
    rfl

theorem runOnce_transcripts {verdicts : List Verdict}
    (h : (c.runOnce s).run subject state = (.ok verdicts, state')) :
    ∃ t, c.classify s t = .ok verdicts ∧
      transcriptsOf s.id ((c.runOnce s).calls subject state) = [t] := by
  obtain ⟨-, t, hclassify, hcalls⟩ := c.runOnce_eq_ok s h
  refine ⟨t, hclassify, ?_⟩
  rw [hcalls, show s.id = (Probe.ofScenario s).id from rfl, transcriptsOf_execute]
  split <;> simp

theorem repeatFrom_eq_ok {first verdicts : List Verdict} {attempt remaining : Nat}
    (h : (c.repeatFrom s first attempt remaining).run subject state = (.ok verdicts, state')) :
    (verdicts = first ∧
      (transcriptsOf s.id
        ((c.repeatFrom s first attempt remaining).calls subject state)).length = remaining ∧
      ∀ t ∈ transcriptsOf s.id ((c.repeatFrom s first attempt remaining).calls subject state),
        ∃ again, c.classify s t = .ok again ∧ again.map (·.kind) = first.map (·.kind)) ∨
    ∃ again number place, verdicts = first ++ [unstable first again number place] := by
  induction remaining generalizing attempt state with
  | zero =>
    simp only [repeatFrom, pure, Task.run, Prod.mk.injEq, Except.ok.injEq] at h
    exact .inl ⟨h.1.symm, rfl, fun _ hmem => absurd hmem List.not_mem_nil⟩
  | succ remaining ih =>
    obtain ⟨again, middle, honce, hrest, hcalls⟩ := Task.run_bind_eq_ok h
    rw [show (c.repeatFrom s first attempt (remaining + 1)).calls subject state = _ from hcalls]
    obtain ⟨t, hclassify, htranscripts⟩ := c.runOnce_transcripts s honce
    cases hplace : firstDivergence? first again with
    | some place =>
      simp only [hplace, pure, Task.run, Prod.mk.injEq, Except.ok.injEq] at hrest
      exact .inr ⟨again, attempt, place, hrest.1.symm⟩
    | none =>
      simp only [hplace, transcriptsOf_append, htranscripts] at hrest ⊢
      refine (ih hrest).imp ?_ id
      rintro ⟨rfl, hlength, hagree⟩
      refine ⟨rfl, by simp [hlength], fun t' hmem => ?_⟩
      rcases List.mem_append.1 hmem with hmem | hmem
      · rw [List.mem_singleton.1 hmem]
        exact ⟨again, hclassify, (firstDivergence?_eq_none_iff.1 hplace).symm⟩
      · exact hagree t' hmem

/-- If a repeated run gives verdicts none of which is `unstable`, then all runs were made and every
one has verdicts of the same kinds. -/
theorem runRepeated_eq_ok {runs : Nat} {verdicts : List Verdict}
    (h : (c.runRepeated s runs).run subject state = (.ok verdicts, state'))
    (hstable : ∀ verdict ∈ verdicts, verdict.kind ≠ .unstable) :
    (transcriptsOf s.id ((c.runRepeated s runs).calls subject state)).length = max 1 runs ∧
      ∀ t ∈ transcriptsOf s.id ((c.runRepeated s runs).calls subject state),
        ∃ again, c.classify s t = .ok again ∧ again.map (·.kind) = verdicts.map (·.kind) := by
  obtain ⟨first, middle, honce, hrest, hcalls⟩ := Task.run_bind_eq_ok h
  obtain ⟨t, hclassify, htranscripts⟩ := c.runOnce_transcripts s honce
  rw [show (c.runRepeated s runs).calls subject state = _ from hcalls, transcriptsOf_append,
    htranscripts]
  rcases c.repeatFrom_eq_ok s hrest with ⟨rfl, hlength, hagree⟩ | ⟨again, number, place, rfl⟩
  · refine ⟨by simp only [List.length_append, List.length_singleton, hlength]; omega, ?_⟩
    intro t' hmem
    rcases List.mem_append.1 hmem with hmem | hmem
    · rw [List.mem_singleton.1 hmem]
      exact ⟨verdicts, hclassify, rfl⟩
    · exact hagree t' hmem
  · exact absurd rfl (hstable (unstable first again number place) (by simp))

end Criteria
end TierCheck
