import TierCheck.Proofs.Run.Completeness

/-!
# Scenarios that do not influence each other

A mimic may go by the call alone, whatever it remembers. What it answers in the next run of a
scenario then depends on how often that scenario ran, and the runs of other scenarios do not count.
So in a suite every scenario fares as it does alone, and the order of the scenarios is only the
order in which they are reported.

* `Mimic.exists_nextAnswers`: the answers in the next run of a scenario.
* `Mimic.ComesTo`: what a task comes to, whatever other scenarios did before.
* `Criteria.exists_comesTo_runRepeated`: a scenario comes to something.
* `Settings.runFrom_comesTo`: a suite comes to what its scenarios come to.
* `Settings.runSuite_independent`: the result.
-/
namespace TierCheck

/-! ## What a task comes to -/

namespace Mimic

variable {α β μ : Type} {m : Mimic μ}

/-- The task has this result on the mimic if the scenario with the id was executed `earlier` times
before. It executes only that scenario, `times` times, and resets the mimic `resets` times. The
memory and the runs of other scenarios do not matter. -/
def ComesTo (m : Mimic μ) (id : String) (earlier : Nat) (t : Task α) (result : α)
    (times resets : Nat) : Prop :=
  ∀ state : MimicState μ, state.executed.count id = earlier →
    ∃ memory, t.run m.subject state =
      (.ok result,
        { memory
          executed := List.replicate times id ++ state.executed
          resets := state.resets + resets })

variable {id : String} {earlier times times' resets resets' : Nat} {t : Task α} {f : α → Task β}
  {a : α} {b : β}

theorem ComesTo.pure (a : α) : m.ComesTo id earlier (pure a) a 0 0 :=
  fun state _ => ⟨state.memory, rfl⟩

theorem ComesTo.bind (ht : m.ComesTo id earlier t a times resets)
    (hf : m.ComesTo id (earlier + times) (f a) b times' resets') :
    m.ComesTo id earlier (t >>= f) b (times' + times) (resets + resets') := by
  intro state hcount
  obtain ⟨memory, ht⟩ := ht state hcount
  obtain ⟨memory', hf⟩ := hf
    { memory
      executed := List.replicate times id ++ state.executed
      resets := state.resets + resets }
    (by rw [List.count_append, List.count_replicate_self, hcount, Nat.add_comm])
  refine ⟨memory', ?_⟩
  rw [Task.run_bind, ht]
  simp only [hf, ← List.append_assoc, List.replicate_append_replicate, Nat.add_assoc]

/-! ## Answers by the call alone -/

section

variable {g : MimicCall → MimicResponse}
  (hpure : ∀ memory call, (m.behaviour memory call).1 = g call)
include hpure

theorem exists_answers (id : String) (run index : Nat) (checkpoints : List Checkpoint) :
    ∃ answers, ∀ memory, m.answers id run memory index checkpoints = answers := by
  induction checkpoints generalizing index with
  | nil => exact ⟨[], fun _ => rfl⟩
  | cons checkpoint later ih =>
    obtain ⟨answers, h⟩ := ih (index + 1)
    refine ⟨(checkpoint, g ⟨id, checkpoint.name, index, run, m.expected? id index⟩) :: answers,
      fun memory => ?_⟩
    simp only [Mimic.answers, hpure, h]

/-- What the mimic answers in the next run of a scenario depends on how often that scenario ran. -/
theorem exists_nextAnswers (s : Scenario) (earlier : Nat) :
    ∃ answers, ∀ state : MimicState μ, state.executed.count s.id = earlier →
      m.nextAnswers state s = answers := by
  obtain ⟨answers, h⟩ := exists_answers hpure s.id (earlier + 1) 0 s.checkpoints
  refine ⟨answers, fun state hcount => ?_⟩
  rw [nextAnswers, hcount, h]

end
end Mimic

/-! ## Runs of a scenario -/

namespace Criteria

variable (c : Criteria) {s : Scenario} (hs : s.IsValid) {μ : Type} {m : Mimic μ}
  {g : MimicCall → MimicResponse} (hpure : ∀ memory call, (m.behaviour memory call).1 = g call)
include hs hpure

theorem exists_comesTo_runOnce (earlier : Nat) :
    ∃ verdicts resets, m.ComesTo s.id earlier (c.runOnce s) verdicts 1 resets := by
  obtain ⟨answers, h⟩ := Mimic.exists_nextAnswers hpure s earlier
  refine ⟨(upToStop answers).map (c.answerVerdict s), if (stop? answers).isSome then 1 else 0,
    fun state hcount => ?_⟩
  obtain ⟨memory, hrun⟩ := c.runOnce_mimic m hs state
  rw [h state hcount] at hrun
  exact ⟨memory, hrun⟩

theorem exists_comesTo_repeatFrom (first : List Verdict) (earlier attempt remaining : Nat) :
    ∃ verdicts times resets,
      m.ComesTo s.id earlier (c.repeatFrom s first attempt remaining) verdicts times resets := by
  induction remaining generalizing earlier attempt with
  | zero => exact ⟨first, 0, 0, .pure first⟩
  | succ remaining ih =>
    obtain ⟨again, resets, hagain⟩ := c.exists_comesTo_runOnce hs hpure earlier
    cases hplace : firstDivergence? first again with
    | some place =>
      refine ⟨first ++ [unstable first again attempt place], 0 + 1, resets + 0, hagain.bind ?_⟩
      simp only [hplace]
      exact .pure _
    | none =>
      obtain ⟨verdicts, times, resets', hlater⟩ := ih (earlier + 1) (attempt + 1)
      refine ⟨verdicts, times + 1, resets + resets', hagain.bind ?_⟩
      simpa only [hplace] using hlater

/-- A scenario comes to something, and how often it was executed before is all that decides it. -/
theorem exists_comesTo_runRepeated (runs earlier : Nat) :
    ∃ verdicts times resets,
      m.ComesTo s.id earlier (c.runRepeated s runs) verdicts times resets := by
  obtain ⟨first, resets, hfirst⟩ := c.exists_comesTo_runOnce hs hpure earlier
  obtain ⟨verdicts, times, resets', hlater⟩ :=
    c.exists_comesTo_repeatFrom hs hpure first (earlier + 1) 2 (runs - 1)
  exact ⟨verdicts, times + 1, resets + resets', hfirst.bind hlater⟩

end Criteria

/-! ## Suites -/

section

variable (c : Settings) {μ : Type} {m : Mimic μ} {scenarios : List Scenario}
  {verdicts : Scenario → List Verdict} {times resets : Scenario → Nat}

/-- A suite comes to what its scenarios come to, if each of them runs once in it. -/
theorem Settings.runFrom_comesTo (hids : (scenarios.map (·.id)).Nodup) (state : MimicState μ)
    (h : ∀ s ∈ scenarios, m.ComesTo s.id (state.executed.count s.id)
      (c.criteria.runRepeated s c.runs) (verdicts s) (times s) (resets s))
    (collection : Collection) :
    ∃ memory, (c.runFrom collection scenarios).run m.subject state =
      (.ok (collection.recordOutcomes (scenarios.map fun s => (s, verdicts s))).report,
        { memory
          executed :=
            (scenarios.flatMap fun s => List.replicate (times s) s.id).reverse ++ state.executed
          resets := scenarios.foldl (fun sum s => sum + resets s) state.resets }) := by
  induction scenarios generalizing collection state with
  | nil => exact ⟨state.memory, rfl⟩
  | cons s rest ih =>
    obtain ⟨hnew, hids⟩ := List.nodup_cons.1 hids
    obtain ⟨memory, hfirst⟩ := h s List.mem_cons_self state rfl
    obtain ⟨memory', hrest⟩ := ih hids
      { memory
        executed := List.replicate (times s) s.id ++ state.executed
        resets := state.resets + resets s }
      (fun other hother => by
        -- the executions of the first scenario are none of the other one's
        have hid : s.id ≠ other.id := fun hid => hnew (List.mem_map.2 ⟨other, hother, hid.symm⟩)
        rw [List.count_append, List.count_replicate, if_neg (by simpa using hid), Nat.zero_add]
        exact h other (List.mem_cons_of_mem s hother))
      (collection.recordAll s (verdicts s))
    refine ⟨memory', ?_⟩
    rw [runFrom, Task.run_bind, hfirst]
    simp only
    rw [hrest]
    simp [Collection.recordOutcomes]

theorem Settings.runSuite_comesTo (hids : (scenarios.map (·.id)).Nodup) (state : MimicState μ)
    (h : ∀ s ∈ scenarios, m.ComesTo s.id (state.executed.count s.id)
      (c.criteria.runRepeated s c.runs) (verdicts s) (times s) (resets s)) (name : String) :
    ∃ memory, (c.runSuite name scenarios).run m.subject state =
      (.ok (.ofScenarios name (scenarios.map fun s => (Tally.ofVerdicts s (verdicts s)).report)),
        { memory
          executed :=
            (scenarios.flatMap fun s => List.replicate (times s) s.id).reverse ++ state.executed
          resets := scenarios.foldl (fun sum s => sum + resets s) state.resets }) := by
  obtain ⟨memory, hrun⟩ := c.runFrom_comesTo hids state h (.start name)
  have hids' : ((scenarios.map fun s => (s, verdicts s)).map (·.1.id)).Nodup := by
    rwa [List.map_map]
  rw [Collection.report_recordOutcomes name hids', List.map_map] at hrun
  exact ⟨memory, hrun⟩

end

namespace Settings

/-- On a mimic that goes by the call alone no scenario influences another one. In a suite every
scenario has the report that it has alone. In any other order the scenarios have the same reports,
the numbers of the suite are the same, the same scenarios are executed as often, and the mimic is
reset as often. -/
theorem runSuite_independent {μ : Type} (c : Settings) (name : String) (m : Mimic μ)
    (g : MimicCall → MimicResponse) (hpure : ∀ memory call, (m.behaviour memory call).1 = g call)
    (scenarios : List Scenario) (hids : (scenarios.map (·.id)).Nodup)
    (hvalid : ∀ s ∈ scenarios, s.IsValid) (state : MimicState μ) :
    ∃ (outcome : Scenario → ScenarioReport) (report : SuiteReport) (after : MimicState μ),
      (c.runSuite name scenarios).run m.subject state = (.ok report, after) ∧
      report.scenarios = scenarios.map outcome ∧
      (∀ s ∈ scenarios, ∃ alone, ((c.runSuite name [s]).run m.subject state).1 = .ok alone ∧
        alone.scenarios = [outcome s]) ∧
      ∀ permuted : List Scenario, permuted.Perm scenarios → ∃ after',
        (c.runSuite name permuted).run m.subject state =
          (.ok { report with scenarios := permuted.map outcome }, after') ∧
        after'.executed.Perm after.executed ∧ after'.resets = after.resets := by
  choose! verdicts times resets hcomes using fun (s : Scenario) (hs : s.IsValid) =>
    c.criteria.exists_comesTo_runRepeated hs hpure c.runs (state.executed.count s.id)
  have hcomes : ∀ s ∈ scenarios, m.ComesTo s.id (state.executed.count s.id)
      (c.criteria.runRepeated s c.runs) (verdicts s) (times s) (resets s) :=
    fun s hs => hcomes s (hvalid s hs)
  obtain ⟨memory, hrun⟩ := c.runSuite_comesTo hids state hcomes name
  refine ⟨fun s => (Tally.ofVerdicts s (verdicts s)).report, _, _, hrun, rfl, ?_, ?_⟩
  · intro s hs
    have hid : ([s].map (·.id)).Nodup := List.nodup_singleton _
    obtain ⟨_, halone⟩ :=
      c.runSuite_comesTo hid state (List.forall_mem_singleton.2 (hcomes s hs)) name
    exact ⟨_, congrArg Prod.fst halone, rfl⟩
  · intro permuted hperm
    obtain ⟨memory', hrun'⟩ := c.runSuite_comesTo ((hperm.map _).nodup_iff.2 hids) state
      (fun s hs => hcomes s (hperm.subset hs)) name
    rw [SuiteReport.ofScenarios_perm name (hperm.map _)] at hrun'
    refine ⟨_, hrun', ?_, ?_⟩
    · have hexecuted := hperm.flatMap_right fun s => List.replicate (times s) s.id
      exact (((List.reverse_perm _).trans hexecuted).trans
        (List.reverse_perm _).symm).append_right _
    · exact hperm.foldl_eq' (fun _ _ _ _ _ => Nat.add_right_comm _ _ _) _

/-- Exits in the second run of one scenario and hangs at a checkpoint of another one. -/
def troubledAnswer (call : MimicCall) : MimicResponse :=
  if call.scenario = "arity/sum2" ∧ call.run = 2 then .exit 139
  else if call.checkpoint = "hotter" then .hang
  else .value (call.expected.getD .undefined)

def troubled : Mimic Unit :=
  { known := Mimic.knowledge [sumScenario, awkwardScenario]
    behaviour := fun memory call => (troubledAnswer call, memory) }

/-- Three runs of each of two scenarios, one of which flaps while the other one hangs, in both
orders and alone. -/
theorem runSuite_independent_troubled :
    let scenarios := [sumScenario, awkwardScenario]
    let suite order := (({ runs := 3 } : Settings).runSuite "fake" order).run troubled.subject
      ⟨(), [], 0⟩
    (∀ memory call, (troubled.behaviour memory call).1 = troubledAnswer call) ∧
      (scenarios.map (·.id)).Nodup ∧ (∀ s ∈ scenarios, s.IsValid) ∧
      ∃ flapping hanging report after after',
        flapping.overall = .unstable ∧ hanging.overall = .timeout ∧
        report.scenarios = [flapping, hanging] ∧
        suite [sumScenario, awkwardScenario] = (.ok report, after) ∧
        suite [awkwardScenario, sumScenario] =
          (.ok { report with scenarios := [hanging, flapping] }, after') ∧
        (∃ alone, (suite [awkwardScenario]).1 = .ok alone ∧ alone.scenarios = [hanging]) ∧
        after.executed =
          ["arity/awkward", "arity/awkward", "arity/awkward", "arity/sum2", "arity/sum2"] ∧
        after'.executed.Perm after.executed ∧ after.resets = 4 ∧ after'.resets = 4 := by
  intro scenarios suite
  have hpure : ∀ memory call, (troubled.behaviour memory call).1 = troubledAnswer call :=
    fun _ _ => rfl
  have hids : (scenarios.map (·.id)).Nodup := by decide
  have hvalid : ∀ s ∈ scenarios, s.IsValid := by
    intro s hs
    rcases List.mem_pair.1 hs with rfl | rfl
    · exact sumScenario_isValid
    · rfl
  obtain ⟨outcome, report, after, hrun, hscenarios, halone, hpermuted⟩ :=
    runSuite_independent { runs := 3 } "fake" troubled _ hpure scenarios hids hvalid ⟨(), [], 0⟩
  obtain ⟨after', hrun', hexecuted', hresets'⟩ := hpermuted _ (List.Perm.swap _ _ [])
  have hoverall : (suite scenarios).1.toOption.map (fun r => r.scenarios.map (·.overall)) =
      some [.unstable, .timeout] := by decide +kernel
  have hafter : (suite scenarios).2.executed =
        ["arity/awkward", "arity/awkward", "arity/awkward", "arity/sum2", "arity/sum2"] ∧
      (suite scenarios).2.resets = 4 := by decide +kernel
  have hsuite : suite scenarios = (.ok report, after) := hrun
  rw [hsuite] at hoverall hafter
  have hkinds : report.scenarios.map (·.overall) = [.unstable, .timeout] := Option.some.inj hoverall
  rw [hscenarios] at hkinds
  obtain ⟨hflapping, hrest⟩ := List.cons.inj hkinds
  obtain ⟨hhanging, -⟩ := List.cons.inj hrest
  exact ⟨hpure, hids, hvalid, outcome sumScenario, outcome awkwardScenario, report, after, after',
    hflapping, hhanging, hscenarios, hrun, hrun', halone awkwardScenario (by simp [scenarios]),
    hafter.1, hexecuted', hafter.2, hresets'.trans hafter.2⟩

end Settings

end TierCheck
