import TierCheck.Proofs.Run.CleanState

/-!
# Runs that do not agree

A repeated run compares the kinds of each run's verdicts with those of the first run and stops at
the first difference. Two lists of verdicts can differ in length only if the shorter one ends in an
abort, and an abort stands nowhere but at the end of a list. So the lists of two runs that agree as
far as the shorter one goes are equally long, and a difference always has a place in both of them.

* `firstDivergence?_eq_some`: what a difference of two lists is.
* `Criteria.length_le_of_agree`: lists of runs that agree are equally long.
* `Criteria.exists_of_firstDivergence?`: a difference of runs has a place in both.
* `Successive`: runs one after another. `Criteria.repeatFrom_agreeing` goes past those that agree.
* `Criteria.runRepeated_flapping`: the result.
-/
namespace TierCheck

/-! ## Differences of lists -/

/-- Up to the place of a difference the kinds are the same. At the place they differ, or one of the
lists has come to its end. -/
theorem firstDivergence?_eq_some {a b : List Verdict} {place : Nat}
    (h : firstDivergence? a b = some place) :
    (a.take place).map (·.kind) = (b.take place).map (·.kind) ∧
      ((∃ x y, a[place]? = some x ∧ b[place]? = some y ∧ x.kind ≠ y.kind) ∨
        (a.length = place ∧ place < b.length) ∨ (b.length = place ∧ place < a.length)) := by
  induction a generalizing b place with
  | nil =>
    cases b with
    | nil => cases h
    | cons y b =>
      obtain rfl := Option.some.inj h
      exact ⟨rfl, .inr (.inl ⟨rfl, Nat.zero_lt_succ _⟩)⟩
  | cons x a ih =>
    cases b with
    | nil =>
      obtain rfl := Option.some.inj h
      exact ⟨rfl, .inr (.inr ⟨rfl, Nat.zero_lt_succ _⟩)⟩
    | cons y b =>
      rw [firstDivergence?] at h
      split at h
      · next hkind =>
        obtain ⟨earlier, hearlier, rfl⟩ := Option.map_eq_some_iff.1 h
        obtain ⟨htake, hplace⟩ := ih hearlier
        refine ⟨by simp [hkind, htake], ?_⟩
        simpa using hplace
      · next hkind =>
        obtain rfl := Option.some.inj h
        exact ⟨rfl, .inl ⟨x, y, rfl, rfl, hkind⟩⟩

namespace Criteria

variable (c : Criteria) (s : Scenario) {t t' : Transcript} {a b : List Verdict}

/-! ## Differences of runs -/

theorem classify_length_le (h : c.classify s t = .ok a) : a.length ≤ s.checkpoints.length := by
  simpa using (c.classify_names s t h).length_le

/-- Verdicts that do not reach the last checkpoint end in an abort. -/
theorem endInAbort_of_length_lt (h : c.classify s t = .ok a)
    (hlt : a.length < s.checkpoints.length) : EndInAbort a := by
  obtain ⟨readings, pending, rest, hprogress, hcases⟩ := c.classify_eq_ok s t h
  rcases hcases with ⟨rfl, rfl⟩ | ⟨_, _, verdict, -, hstop, rfl⟩
  · rw [hprogress.checkpoints_eq] at hlt
    simp at hlt
  · exact ⟨verdict, List.getLast?_concat, hstop.kind_eq⟩

/-- If the verdicts of one run agree with those of another one as far as they go, they go as far. -/
theorem length_le_of_agree (ha : c.classify s t = .ok a) (hb : c.classify s t' = .ok b)
    (h : a.map (·.kind) <+: b.map (·.kind)) : b.length ≤ a.length := by
  refine Nat.le_of_not_lt fun hlt => ?_
  -- the last verdict of the shorter list says that it was cut off, but the longer one goes on
  obtain ⟨last, hlast, hkind⟩ :=
    c.endInAbort_of_length_lt s ha (Nat.lt_of_lt_of_le hlt (c.classify_length_le s hb))
  obtain ⟨before, rfl⟩ := List.getLast?_eq_some_iff.1 hlast
  obtain ⟨rest, hrest⟩ := h
  rw [List.map_append, List.append_assoc] at hrest
  obtain ⟨before', others, rfl, hbefore, hothers⟩ := List.map_eq_append_iff.1 hrest.symm
  obtain ⟨same, later, rfl, hsame, -⟩ := List.map_eq_cons_iff.1 hothers
  have hlater : later ≠ [] := by
    rintro rfl
    have hlength : before'.length = before.length := by simpa using congrArg List.length hbefore
    simp [hlength] at hlt
  have hmem : same ∈ (before' ++ same :: later).dropLast := by
    rw [List.dropLast_append_of_ne_nil (List.cons_ne_nil _ _),
      List.dropLast_cons_of_ne_nil hlater]
    simp
  obtain ⟨hcrashed, htimeout⟩ := c.classify_dropLast s t' hb same hmem
  rw [hsame] at hcrashed htimeout
  exact hkind.elim hcrashed htimeout

/-- Two runs that differ do so at a place of both. -/
theorem exists_of_firstDivergence? (ha : c.classify s t = .ok a) (hb : c.classify s t' = .ok b)
    {place : Nat} (h : firstDivergence? a b = some place) :
    ∃ x y, a[place]? = some x ∧ b[place]? = some y ∧ x.kind ≠ y.kind ∧
      (a.take place).map (·.kind) = (b.take place).map (·.kind) := by
  obtain ⟨htake, ⟨x, y, hx, hy, hkind⟩ | ⟨hend, hlt⟩ | ⟨hend, hlt⟩⟩ := firstDivergence?_eq_some h
  · exact ⟨x, y, hx, hy, hkind, htake⟩
  · have hagree : a.map (·.kind) <+: b.map (·.kind) := by
      rw [List.take_of_length_le (Nat.le_of_eq hend)] at htake
      exact htake ▸ (List.take_prefix place b).map _
    have := c.length_le_of_agree s ha hb hagree
    omega
  · have hagree : b.map (·.kind) <+: a.map (·.kind) := by
      rw [List.take_of_length_le (l := b) (Nat.le_of_eq hend)] at htake
      exact htake ▸ (List.take_prefix place a).map _
    have := c.length_le_of_agree s hb ha hagree
    omega

/-- A verdict is named for the checkpoint at its place. -/
theorem classify_checkpoint (h : c.classify s t = .ok a) {place : Nat} {verdict : Verdict}
    (hverdict : a[place]? = some verdict) :
    ∃ checkpoint, s.checkpoints[place]? = some checkpoint ∧
      verdict.checkpoint = checkpoint.name := by
  obtain ⟨rest, hrest⟩ := c.classify_names s t h
  have hname : (s.checkpoints.map (·.name))[place]? = some verdict.checkpoint := by
    rw [← hrest, List.getElem?_append_left]
    · simp [hverdict]
    · simpa using (List.getElem?_eq_some_iff.1 hverdict).1
  rw [List.getElem?_map] at hname
  obtain ⟨checkpoint, hcheckpoint, hsame⟩ := Option.map_eq_some_iff.1 hname
  exact ⟨checkpoint, hcheckpoint, hsame.symm⟩

end Criteria

/-! ## Runs one after another -/

/-- Runs of the scenario one after another, none of which fails: their verdicts in order, and the
subject's state before and after them. -/
inductive Successive (c : Criteria) (s : Scenario) {σ : Type} (subject : Subject σ) :
    σ → List (List Verdict) → σ → Prop
  | nil (state : σ) : Successive c s subject state [] state
  | cons {state middle after : σ} {verdicts : List Verdict} {later : List (List Verdict)} :
    (c.runOnce s).run subject state = (.ok verdicts, middle) →
    Successive c s subject middle later after →
    Successive c s subject state (verdicts :: later) after

section

variable {c : Criteria} {s : Scenario} {σ : Type} {subject : Subject σ} {state after : σ}

theorem Successive.append_split {a b : List (List Verdict)}
    (h : Successive c s subject state (a ++ b) after) :
    ∃ middle, Successive c s subject state a middle ∧ Successive c s subject middle b after := by
  induction a generalizing state with
  | nil => exact ⟨state, .nil state, h⟩
  | cons verdicts a ih =>
    cases h with
    | cons hrun hlater =>
      obtain ⟨middle, ha, hb⟩ := ih hlater
      exact ⟨middle, .cons hrun ha, hb⟩

/-- The verdicts of each of the runs are those of a transcript. -/
theorem Successive.classify_eq_ok {results : List (List Verdict)}
    (h : Successive c s subject state results after) :
    ∀ verdicts ∈ results, ∃ t, c.classify s t = .ok verdicts := by
  induction h with
  | nil => simp
  | cons hrun _ ih =>
    obtain ⟨-, t, hclassify, -⟩ := c.runOnce_eq_ok s hrun
    exact List.forall_mem_cons.2 ⟨⟨t, hclassify⟩, ih⟩

namespace Criteria

theorem executions_runOnce {verdicts : List Verdict}
    (h : (c.runOnce s).run subject state = (.ok verdicts, after)) :
    executions ((c.runOnce s).calls subject state) = 1 := by
  obtain ⟨-, t, -, hcalls⟩ := c.runOnce_eq_ok s h
  rw [hcalls]
  split <;> rfl

/-- Runs that agree with the first one are made and left behind. -/
theorem repeatFrom_agreeing {first : List Verdict} {agreeing : List (List Verdict)}
    (hruns : Successive c s subject state agreeing after)
    (hagree : ∀ again ∈ agreeing, again.map (·.kind) = first.map (·.kind))
    (attempt remaining : Nat) :
    (c.repeatFrom s first attempt (remaining + agreeing.length)).run subject state =
        (c.repeatFrom s first (attempt + agreeing.length) remaining).run subject after ∧
      executions
          ((c.repeatFrom s first attempt (remaining + agreeing.length)).calls subject state) =
        agreeing.length + executions
          ((c.repeatFrom s first (attempt + agreeing.length) remaining).calls subject after) := by
  induction hruns generalizing attempt with
  | nil state => simp
  | @cons state middle after again later hrun hlater ih =>
    have hnone : firstDivergence? first again = none :=
      firstDivergence?_eq_none_iff.2 (hagree again List.mem_cons_self).symm
    obtain ⟨hresult, hcount⟩ := ih (fun again' h => hagree again' (List.mem_cons_of_mem _ h))
      (attempt + 1)
    rw [List.length_cons, ← Nat.add_assoc, repeatFrom, Task.run_bind, Task.calls_bind,
      executions_append, executions_runOnce hrun, hrun]
    simp only [hnone]
    rw [hresult, hcount, Nat.add_right_comm attempt, Nat.add_assoc attempt]
    exact ⟨rfl, by omega⟩

/-- What a repeated run does when the first run and those that agree with it are made. -/
theorem runRepeated_agreeing {first : List Verdict} {agreeing : List (List Verdict)}
    (hruns : Successive c s subject state (first :: agreeing) after)
    (hagree : ∀ again ∈ agreeing, again.map (·.kind) = first.map (·.kind)) {runs remaining : Nat}
    (hremaining : runs - 1 = remaining + agreeing.length) :
    (c.runRepeated s runs).run subject state =
        (c.repeatFrom s first (agreeing.length + 2) remaining).run subject after ∧
      executions ((c.runRepeated s runs).calls subject state) = agreeing.length + 1 + executions
        ((c.repeatFrom s first (agreeing.length + 2) remaining).calls subject after) := by
  cases hruns with
  | cons hfirst hlater =>
    obtain ⟨hresult, hcount⟩ := repeatFrom_agreeing hlater hagree 2 remaining
    rw [runRepeated, Task.run_bind, Task.calls_bind, executions_append, executions_runOnce hfirst,
      hfirst]
    simp only [hremaining, hresult, hcount, Nat.add_comm 2, true_and]
    omega

/-- A run that differs from the first one is the last one. -/
theorem repeatFrom_differing {first other : List Verdict}
    (hrun : (c.runOnce s).run subject state = (.ok other, after)) {place : Nat}
    (hplace : firstDivergence? first other = some place) (attempt remaining : Nat) :
    (c.repeatFrom s first attempt (remaining + 1)).run subject state =
        (.ok (first ++ [unstable first other attempt place]), after) ∧
      executions ((c.repeatFrom s first attempt (remaining + 1)).calls subject state) = 1 := by
  rw [repeatFrom, Task.run_bind, Task.calls_bind, executions_append, executions_runOnce hrun, hrun]
  simp only [hplace]
  exact ⟨rfl, rfl⟩

theorem unstable_eq {first again : List Verdict} {place : Nat} {x : Verdict}
    (hx : first[place]? = some x) (attempt : Nat) :
    unstable first again attempt place =
      { kind := .unstable
        checkpoint := x.checkpoint
        detail := "run 1: [" ++ kindList first ++ "]; run " ++ naturalText attempt ++ ": [" ++
          kindList again ++ "]" } := by
  simp [unstable, hx]

end Criteria
end

namespace Criteria

variable (c : Criteria) (s : Scenario) {σ : Type} (subject : Subject σ) (state : σ)

/-- If all runs agree, the verdicts are those of the first one. Otherwise the first run that does
not agree is the last one that is made, and one more verdict says so. It is named for the checkpoint
at which the kinds first differ, and both runs have a verdict there. -/
theorem runRepeated_flapping (runs : Nat) (first : List Verdict) (agreeing : List (List Verdict))
    (hagree : ∀ again ∈ agreeing, again.map (·.kind) = first.map (·.kind)) :
    (∀ after, agreeing.length + 1 = max 1 runs →
      Successive c s subject state (first :: agreeing) after →
      (c.runRepeated s runs).run subject state = (.ok first, after) ∧
      executions ((c.runRepeated s runs).calls subject state) = max 1 runs ∧
      ∀ verdict ∈ first, verdict.kind ≠ .unstable) ∧
    ∀ other after, agreeing.length + 2 ≤ runs →
      Successive c s subject state (first :: agreeing ++ [other]) after →
      other.map (·.kind) ≠ first.map (·.kind) →
      ∃ place x y checkpoint, first[place]? = some x ∧ other[place]? = some y ∧ x.kind ≠ y.kind ∧
        (first.take place).map (·.kind) = (other.take place).map (·.kind) ∧
        s.checkpoints[place]? = some checkpoint ∧
        (c.runRepeated s runs).run subject state =
          (.ok (first ++
            [{ kind := .unstable
               checkpoint := checkpoint.name
               detail := "run 1: [" ++ kindList first ++ "]; run " ++
                naturalText (agreeing.length + 2) ++ ": [" ++ kindList other ++ "]" }]), after) ∧
        executions ((c.runRepeated s runs).calls subject state) = agreeing.length + 2 := by
  constructor
  · intro after hlength hruns
    have hremaining : runs - 1 = 0 + agreeing.length := by omega
    obtain ⟨hresult, hcount⟩ := runRepeated_agreeing hruns hagree hremaining
    obtain ⟨t, hclassify⟩ := hruns.classify_eq_ok first List.mem_cons_self
    exact ⟨hresult, hcount.trans hlength, c.classify_ne_unstable s t hclassify⟩
  · intro other after hlength hruns hother
    obtain ⟨t, hclassify⟩ := hruns.classify_eq_ok first (by simp)
    obtain ⟨t', hclassify'⟩ := hruns.classify_eq_ok other (by simp)
    obtain ⟨middle, hagreeing, hlast⟩ := hruns.append_split
    cases hplace : firstDivergence? first other with
    | none => exact absurd (firstDivergence?_eq_none_iff.1 hplace).symm hother
    | some place =>
      obtain ⟨x, y, hx, hy, hkind, htake⟩ :=
        c.exists_of_firstDivergence? s hclassify hclassify' hplace
      obtain ⟨checkpoint, hcheckpoint, hname⟩ := c.classify_checkpoint s hclassify hx
      obtain ⟨remaining, hremaining⟩ := Nat.exists_eq_add_of_le hlength
      have hmore : runs - 1 = remaining + 1 + agreeing.length := by omega
      obtain ⟨hresult, hcount⟩ := runRepeated_agreeing hagreeing hagree hmore
      cases hlast with
      | cons hrun hnil =>
        cases hnil
        obtain ⟨hend, hone⟩ :=
          repeatFrom_differing hrun hplace (agreeing.length + 2) remaining
        refine ⟨place, x, y, checkpoint, hx, hy, hkind, htake, hcheckpoint, ?_, ?_⟩
        · rw [hresult, hend, unstable_eq hx, hname]
        · rw [hcount, hone]

/-- A mimic that gives right results, but exits at once in the third run. -/
def exitsInThirdRun : Mimic Unit :=
  { known := Mimic.knowledge [sumScenario]
    behaviour := fun memory call =>
      if call.run = 3 then (.exit 139, memory) else Mimic.giveExpected memory call }

/-- Two runs that agree, and a third one that has no verdict at the second checkpoint: the
difference is at the first one. Of four runs three are made. -/
theorem runRepeated_flapping_exit :
    let right (checkpoint : String) : Verdict :=
      { kind := .pass, checkpoint, expected := "3", actual := "3", raw := "3" }
    let first := [right "warm", right "retype:hot"]
    let crashed : Verdict :=
      { kind := .crashed
        checkpoint := "warm"
        detail := "SUT ended (exit code 139) before reporting; stderr: fake runtime exited with 139" }
    let start : MimicState Unit := ⟨(), [], 0⟩
    let task runs := ({} : Criteria).runRepeated sumScenario runs
    (∃ after, Successive {} sumScenario exitsInThirdRun.subject start [first, first] after) ∧
      (∃ after,
        Successive {} sumScenario exitsInThirdRun.subject start [first, first, [crashed]] after) ∧
      ((task 2).run exitsInThirdRun.subject start).1 = .ok first ∧
      executions ((task 2).calls exitsInThirdRun.subject start) = 2 ∧
      ((task 4).run exitsInThirdRun.subject start).1 =
        .ok (first ++
          [{ kind := .unstable
             checkpoint := "warm"
             detail := "run 1: [Pass, Pass]; run 3: [Crashed]" }]) ∧
      executions ((task 4).calls exitsInThirdRun.subject start) = 3 := by
  intro right first crashed start task
  have htwo : Successive {} sumScenario exitsInThirdRun.subject start [first, first]
      ⟨(), ["arity/sum2", "arity/sum2"], 0⟩ :=
    .cons (by rfl) (.cons (by rfl) (.nil _))
  have hthree : Successive {} sumScenario exitsInThirdRun.subject start [first, first, [crashed]]
      ⟨(), ["arity/sum2", "arity/sum2", "arity/sum2"], 1⟩ :=
    .cons (by rfl) (.cons (by rfl) (.cons (by rfl) (.nil _)))
  have hagree : ∀ again ∈ [first], again.map (·.kind) = first.map (·.kind) := by simp
  obtain ⟨hstable, hflapping⟩ :=
    runRepeated_flapping {} sumScenario exitsInThirdRun.subject start 2 first [first] hagree
  obtain ⟨hrun, hcount, -⟩ := hstable _ rfl htwo
  obtain ⟨-, hflapping⟩ :=
    runRepeated_flapping {} sumScenario exitsInThirdRun.subject start 4 first [first] hagree
  obtain ⟨place, x, y, checkpoint, hx, hy, hkind, htake, hcheckpoint, hrun', hcount'⟩ :=
    hflapping [crashed] _ (by decide) hthree (by decide)
  refine ⟨⟨_, htwo⟩, ⟨_, hthree⟩, by rw [hrun], hcount, ?_, hcount'⟩
  -- the third run has one verdict, so that is the place
  cases place with
  | zero =>
    obtain rfl := Option.some.inj hcheckpoint
    have hdetail : "run 1: [" ++ kindList first ++ "]; run " ++ naturalText 3 ++ ": [" ++
        kindList [crashed] ++ "]" = "run 1: [Pass, Pass]; run 3: [Crashed]" := by
      decide +kernel
    rw [hrun', ← hdetail]
    rfl
  | succ place => cases hy

end Criteria

end TierCheck
