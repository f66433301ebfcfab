import TierCheck.Proofs.Event.RoundTrip
import TierCheck.Proofs.Run.Classification
import TierCheck.Proofs.Run.Repetition
import TierCheck.Subject.Mimic

/-!
# Mimics against subjects that print

A mimic hands over events where other subjects print lines. Whatever it answers, the run has
verdicts: one for each answer up to the first that is not a value, by the answer alone. When the
values are such as a script can report, the events may as well be printed, with chatter anywhere
between them, and read again.

* `Mimic.answers`, `upToStop`: what a mimic answers, and how much of it counts.
* `Criteria.answerVerdict`, `transcriptOf`: the verdict of an answer, the transcript of answers.
* `Criteria.runOnce_mimic`: a run on a mimic.
* `IsPrinted`: events as lines, with chatter. `IsPrinted.mapM_read` reads them.
* `Criteria.runOnce_imitates`: the result.
-/
namespace TierCheck

/-! ## Answers -/

/-- Whether the subject goes on after the answer. -/
def MimicResponse.isValue : MimicResponse → Bool
  | value _ => true
  | _ => false

namespace Mimic

variable {μ : Type} (m : Mimic μ)

/-- What the mimic answers if it is asked at every checkpoint. -/
def answers (id : String) (run : Nat) :
    μ → Nat → List Checkpoint → List (Checkpoint × MimicResponse)
  | _, _, [] => []
  | memory, index, checkpoint :: later =>
    let (response, memory) :=
      m.behaviour memory ⟨id, checkpoint.name, index, run, m.expected? id index⟩
    (checkpoint, response) :: answers id run memory (index + 1) later

theorem answers_checkpoints (id : String) (run : Nat) (memory : μ) (index : Nat)
    (checkpoints : List Checkpoint) :
    (m.answers id run memory index checkpoints).map (·.1) = checkpoints := by
  induction checkpoints generalizing memory index with
  | nil => rfl
  | cons checkpoint later ih => rw [answers, List.map_cons, ih]

/-- What the mimic answers in the next run of a scenario. -/
def nextAnswers (state : MimicState μ) (s : Scenario) : List (Checkpoint × MimicResponse) :=
  m.answers s.id (state.executed.count s.id + 1) state.memory 0 s.checkpoints

theorem nextAnswers_checkpoints (state : MimicState μ) (s : Scenario) :
    (m.nextAnswers state s).map (·.1) = s.checkpoints :=
  m.answers_checkpoints _ _ _ _ _

end Mimic

/-- The first answer that is not a value. -/
def stop? (answers : List (Checkpoint × MimicResponse)) : Option (Checkpoint × MimicResponse) :=
  answers.find? fun answer => !answer.2.isValue

/-- The answers before the first one that is not a value, and that one. -/
def upToStop (answers : List (Checkpoint × MimicResponse)) : List (Checkpoint × MimicResponse) :=
  answers.takeWhile (fun answer => answer.2.isValue) ++ (stop? answers).toList

theorem upToStop_value (checkpoint : Checkpoint) (v : Value)
    (later : List (Checkpoint × MimicResponse)) :
    upToStop ((checkpoint, .value v) :: later) = (checkpoint, .value v) :: upToStop later := rfl

theorem upToStop_other (checkpoint : Checkpoint) {response : MimicResponse}
    (h : response.isValue = false) (later : List (Checkpoint × MimicResponse)) :
    upToStop ((checkpoint, response) :: later) = [(checkpoint, response)] := by
  simp [upToStop, stop?, h]

/-! ## Verdicts of answers -/

namespace Criteria

variable (c : Criteria) (s : Scenario)

def answerVerdict : Checkpoint × MimicResponse → Verdict
  | (checkpoint, .value v) => c.judge s checkpoint v v.text
  | (checkpoint, .fault message) => thrown checkpoint message
  | (checkpoint, .hang) => c.missing ⟨[], .timedOut, ""⟩ checkpoint
  | (checkpoint, .exit code) =>
    c.missing
      ⟨[], .exited (some code) none, "fake runtime exited with " ++ Ending.integerText code⟩
      checkpoint

theorem answerVerdict_checkpoint (answer : Checkpoint × MimicResponse) :
    (c.answerVerdict s answer).checkpoint = answer.1.name := by
  obtain ⟨checkpoint, _ | _ | _ | _⟩ := answer
  · exact c.judge_checkpoint s checkpoint _ _
  · rfl
  · rfl
  · rfl

theorem answerVerdict_kind {answer : Checkpoint × MimicResponse} (h : answer.2.isValue = false) :
    (c.answerVerdict s answer).kind = if answer.2 = .hang then .timeout else .crashed := by
  obtain ⟨checkpoint, _ | _ | _ | _⟩ := answer
  · cases h
  · rfl
  · rfl
  · rfl

theorem endsScenario_answerVerdict (answer : Checkpoint × MimicResponse) :
    (c.answerVerdict s answer).kind.endsScenario = !answer.2.isValue := by
  obtain ⟨checkpoint, v | message | _ | code⟩ := answer
  · rcases c.judge_kind s checkpoint v v.text with h | h | h <;>
      simp [answerVerdict, h, VerdictKind.endsScenario, MimicResponse.isValue]
  · rfl
  · rfl
  · rfl

/-- The verdicts end early exactly if there is an answer that is not a value. -/
theorem endsEarly_answerVerdicts (answers : List (Checkpoint × MimicResponse)) :
    endsEarly ((upToStop answers).map (c.answerVerdict s)) = (stop? answers).isSome := by
  unfold endsEarly upToStop
  rw [List.getLast?_map, Option.any_map]
  cases hstop : stop? answers with
  | some answer =>
    have hanswer : answer.2.isValue = false := by simpa using List.find?_some hstop
    simp [endsScenario_answerVerdict, hanswer]
  | none =>
    simp only [Option.toList_none, List.append_nil, endsScenario_answerVerdict]
    cases hlast : (answers.takeWhile fun answer => answer.2.isValue).getLast? with
    | none => rfl
    | some answer =>
      have hvalue := List.mem_takeWhile_imp (List.mem_of_getLast? hlast)
      simp [hvalue]

end Criteria

/-! ## Transcripts of answers -/

/-- The transcript in which the answers are given. -/
def transcriptOf : List (Checkpoint × MimicResponse) → Transcript
  | [] => ⟨[.done], .clean, ""⟩
  | (checkpoint, .value v) :: later =>
    { transcriptOf later with
      events := .checkpoint checkpoint.name :: .result v v.text :: (transcriptOf later).events }
  | (checkpoint, .fault message) :: _ => ⟨[.fault checkpoint.name message], .clean, ""⟩
  | (_, .hang) :: _ => ⟨[], .timedOut, ""⟩
  | (_, .exit code) :: _ =>
    ⟨[], .exited (some code) none, "fake runtime exited with " ++ Ending.integerText code⟩

/-- What the transcript of answers is made of. -/
theorem mem_transcriptOf {answers : List (Checkpoint × MimicResponse)} {e : Event}
    (h : e ∈ (transcriptOf answers).events) :
    e = .done ∨ ∃ checkpoint ∈ answers.map (·.1), e = .checkpoint checkpoint.name ∨
      (∃ message, e = .fault checkpoint.name message) ∨
      ∃ v, (checkpoint, .value v) ∈ upToStop answers ∧ e = .result v v.text := by
  induction answers with
  | nil => exact .inl (List.mem_singleton.1 h)
  | cons answer later ih =>
    obtain ⟨checkpoint, v | message | _ | code⟩ := answer
    · rw [upToStop_value]
      rcases List.mem_cons.1 h with rfl | h
      · exact .inr ⟨checkpoint, List.mem_cons_self, .inl rfl⟩
      rcases List.mem_cons.1 h with rfl | h
      · exact .inr ⟨checkpoint, List.mem_cons_self, .inr (.inr ⟨v, List.mem_cons_self, rfl⟩)⟩
      rcases ih h with hdone | ⟨other, hother, hcheckpoint | hfault | ⟨w, hw, rfl⟩⟩
      · exact .inl hdone
      · exact .inr ⟨other, List.mem_cons_of_mem _ hother, .inl hcheckpoint⟩
      · exact .inr ⟨other, List.mem_cons_of_mem _ hother, .inr (.inl hfault)⟩
      · exact .inr ⟨other, List.mem_cons_of_mem _ hother,
          .inr (.inr ⟨w, List.mem_cons_of_mem _ hw, rfl⟩)⟩
    · exact .inr ⟨checkpoint, List.mem_cons_self, .inr (.inl ⟨message, List.mem_singleton.1 h⟩)⟩
    · cases h
    · cases h

theorem scriptEvents_transcriptOf (answers : List (Checkpoint × MimicResponse)) :
    (transcriptOf answers).scriptEvents = (transcriptOf answers).events := by
  apply List.filter_eq_self.2
  intro e he
  obtain rfl | ⟨checkpoint, -, rfl | ⟨message, rfl⟩ | ⟨v, -, rfl⟩⟩ := mem_transcriptOf he <;> rfl

namespace Criteria

variable (c : Criteria) (s : Scenario)

/-- The events of answers are classified answer by answer. The whole transcript counts only for how
it ended. -/
theorem classifyFrom_transcriptOf (answers : List (Checkpoint × MimicResponse)) {t : Transcript}
    (hending : t.ending = (transcriptOf answers).ending)
    (herrors : t.errors = (transcriptOf answers).errors) :
    c.classifyFrom s t (answers.map (·.1)) (transcriptOf answers).events =
      .ok ((upToStop answers).map (c.answerVerdict s)) := by
  induction answers with
  | nil => rfl
  | cons answer later ih =>
    obtain ⟨checkpoint, v | message | _ | code⟩ := answer
    · rw [upToStop_value]
      exact (c.classifyFrom_reading s t ⟨checkpoint, v, v.text⟩ (later.map (·.1)) _).trans
        (congrArg _ (ih hending herrors))
    · rw [upToStop_other checkpoint rfl]
      exact c.classifyFrom_stopsAt s t (.threw message []) (later.map (·.1))
    · have hmissing : c.missing t checkpoint = c.answerVerdict s (checkpoint, .hang) := by
        rw [missing, hending]
        rfl
      rw [upToStop_other checkpoint rfl, List.map_singleton, ← hmissing]
      exact c.classifyFrom_stopsAt s t .silent (later.map (·.1))
    · have hmissing : c.missing t checkpoint = c.answerVerdict s (checkpoint, .exit code) := by
        rw [missing, hending, herrors]
        rfl
      rw [upToStop_other checkpoint rfl, List.map_singleton, ← hmissing]
      exact c.classifyFrom_stopsAt s t .silent (later.map (·.1))

theorem classify_transcriptOf {answers : List (Checkpoint × MimicResponse)}
    (h : answers.map (·.1) = s.checkpoints) :
    c.classify s (transcriptOf answers) = .ok ((upToStop answers).map (c.answerVerdict s)) := by
  have hclassify : c.classify s (transcriptOf answers) =
      c.classifyFrom s (transcriptOf answers) s.checkpoints (transcriptOf answers).scriptEvents :=
    rfl
  rw [hclassify, scriptEvents_transcriptOf, ← h]
  exact c.classifyFrom_transcriptOf s answers rfl rfl

end Criteria

/-! ## Runs on a mimic -/

namespace Mimic

variable {μ : Type} (m : Mimic μ)

/-- A mimic does nothing but give its answers. -/
theorem respond_eq (id : String) (run : Nat) (memory : μ) (index : Nat)
    (checkpoints : List Checkpoint) :
    (m.respond id run memory index (checkpoints.map (·.name))).1 =
      transcriptOf (m.answers id run memory index checkpoints) := by
  induction checkpoints generalizing memory index with
  | nil => rfl
  | cons checkpoint later ih =>
    rw [List.map_cons, respond, answers]
    rcases m.behaviour memory ⟨id, checkpoint.name, index, run, m.expected? id index⟩ with
      ⟨v | message | _ | code, memory'⟩
    · simp only [transcriptOf, ← ih]
    · rfl
    · rfl
    · rfl

theorem execute_ofScenario (state : MimicState μ) {s : Scenario} (hs : s.checkpoints ≠ [])
    (limit : Timespan) :
    ∃ memory, m.subject.execute state (.ofScenario s) limit =
      (.ok (transcriptOf (m.nextAnswers state s)),
        { state with memory, executed := s.id :: state.executed }) := by
  have hnames : (Probe.ofScenario s).checkpoints ≠ [] := by simpa [Probe.ofScenario] using hs
  refine ⟨(m.respond s.id (state.executed.count s.id + 1) state.memory 0
    (s.checkpoints.map (·.name))).2, ?_⟩
  simp only [subject, execute, if_neg hnames]
  rw [nextAnswers, ← respond_eq]
  rfl

end Mimic

/-- A run on a mimic has one verdict for each answer that counts, and a reset if the last of them is
not a value. -/
theorem Criteria.runOnce_mimic (c : Criteria) {s : Scenario} {μ : Type} (m : Mimic μ)
    (hs : s.IsValid) (state : MimicState μ) :
    ∃ memory, (c.runOnce s).run m.subject state =
      (.ok ((upToStop (m.nextAnswers state s)).map (c.answerVerdict s)),
        { memory
          executed := s.id :: state.executed
          resets := state.resets + if (stop? (m.nextAnswers state s)).isSome then 1 else 0 }) := by
  obtain ⟨memory, hexecute⟩ := m.execute_ofScenario state hs.checkpoints_ne_nil c.timeout
  have hclassify := c.classify_transcriptOf s (m.nextAnswers_checkpoints state s)
  refine ⟨memory, ?_⟩
  rw [c.runOnce_run s hs hexecute hclassify rfl, endsEarly_answerVerdicts]
  cases (stop? (m.nextAnswers state s)).isSome <;> rfl

/-! ## Printing the events -/

/-- The line is none of the script's own. -/
def IsChatterLine (text : String) : Prop :=
  Event.IsPlain (Event.content text) ∧ Event.content text ≠ "DONE".toList

/-- The lines print the events in order, with chatter anywhere between them. -/
inductive IsPrinted : List Event → List String → Prop
  | nil : IsPrinted [] []
  | event {events : List Event} {lines : List String} (e : Event) : IsPrinted events lines →
    IsPrinted (e :: events) (e.line :: lines)
  | chatter {events : List Event} {lines : List String} (text : String) : IsChatterLine text →
    IsPrinted events lines → IsPrinted events (text :: lines)

theorem IsChatterLine.read_eq {text : String} (h : IsChatterLine text) :
    Event.read text = .ok (.chatter (String.ofList (Event.content text))) := by
  rw [Event.read_eq, Event.readContent_plain h.1, if_neg h.2]
  rfl

/-- Printed events are read again. -/
theorem IsPrinted.mapM_read {events : List Event} {lines : List String} (h : IsPrinted events lines)
    (hevents : ∀ e ∈ events, e.IsCanonical ∧ e.isChatter = false) :
    ∃ given, lines.mapM Event.read = .ok given ∧
      given.filter (fun event => !event.isChatter) = events := by
  induction h with
  | nil => exact ⟨[], rfl, rfl⟩
  | event e _ ih =>
    obtain ⟨hcanonical, hscript⟩ := hevents e List.mem_cons_self
    obtain ⟨given, hread, hfilter⟩ := ih fun e' he' => hevents e' (List.mem_cons_of_mem e he')
    refine ⟨e :: given, ?_, ?_⟩
    · rw [List.mapM_cons, hcanonical.read_line, hread]
      rfl
    · rw [List.filter_cons_of_pos (by simp [hscript]), hfilter]
  | chatter text htext _ ih =>
    obtain ⟨given, hread, hfilter⟩ := ih hevents
    refine ⟨.chatter (String.ofList (Event.content text)) :: given, ?_, ?_⟩
    · rw [List.mapM_cons, htext.read_eq, hread]
      rfl
    · rw [List.filter_cons_of_neg (by simp [Event.isChatter]), hfilter]

/-- The events of answers can be printed if the names are fit for report lines and the values are
such as a script can report. -/
theorem canonical_of_mem_transcriptOf {answers : List (Checkpoint × MimicResponse)}
    (hnames : ∀ checkpoint ∈ answers.map (·.1), isCheckpointName checkpoint.name = true)
    (hvalues : ∀ checkpoint v, (checkpoint, .value v) ∈ upToStop answers → v.IsSendable) :
    ∀ e ∈ (transcriptOf answers).events, e.IsCanonical ∧ e.isChatter = false := by
  intro e he
  obtain rfl | ⟨checkpoint, hmem, rfl | ⟨message, rfl⟩ | ⟨v, hv, rfl⟩⟩ := mem_transcriptOf he
  · exact ⟨Event.isCanonical_done, rfl⟩
  · exact ⟨Event.isCanonical_checkpoint_of_valid (hnames checkpoint hmem), rfl⟩
  · exact ⟨Event.isCanonical_fault_of_valid (hnames checkpoint hmem) message, rfl⟩
  · exact ⟨Event.isCanonical_result_of_sendable (hvalues checkpoint v hv), rfl⟩

namespace Criteria

variable (c : Criteria) {s : Scenario} {μ : Type} (m : Mimic μ)

/-- A subject that prints the events of a transcript, with chatter, gets its verdicts. -/
theorem runOnce_printed (hs : s.IsValid) {t : Transcript}
    (hevents : ∀ e ∈ t.events, e.IsCanonical ∧ e.isChatter = false) {lines : List String}
    (hlines : IsPrinted t.events lines) {verdicts : List Verdict}
    (hclassify : c.classify s t = .ok verdicts) (label : String) (playback : Playback)
    (hnext : playback.recordings.head? = some ⟨lines, t.ending, t.errors⟩) :
    (c.runOnce s).run (Playback.subject label) playback =
      (.ok verdicts,
        { recordings := playback.recordings.tail
          executed := .ofScenario s :: playback.executed
          resets := playback.resets + if endsEarly verdicts then 1 else 0 }) := by
  obtain ⟨given, hread, hfilter⟩ := hlines.mapM_read hevents
  have hexecute : (Playback.subject label).execute playback (.ofScenario s) c.timeout =
      (.ok ⟨given, t.ending, t.errors⟩,
        { playback with
          recordings := playback.recordings.tail
          executed := .ofScenario s :: playback.executed }) := by
    simp only [Playback.subject, Playback.execute, hnext, Option.getD_some, Recording.transcript,
      hread]
    rfl
  have hscript : t.scriptEvents = t.events :=
    List.filter_eq_self.2 fun e he => by simp [(hevents e he).2]
  have hgiven : c.classify s ⟨given, t.ending, t.errors⟩ = .ok verdicts := by
    rw [← hclassify]
    exact c.classify_congr s (hfilter.trans hscript.symm) rfl rfl
  rw [c.runOnce_run s hs hexecute hgiven rfl]
  cases endsEarly verdicts <;> rfl

/-- Whatever a mimic answers, the run has verdicts. Each value is judged; the first answer that is
none ends the list with a crash or, if the mimic hangs, a timeout at that checkpoint, and there is
one reset then and none otherwise. A subject that prints the same events as lines, with chatter
anywhere, gets the same verdicts, if the values are such as a script can report. -/
theorem runOnce_imitates (hs : s.IsValid) (state : MimicState μ) :
    let answers := m.nextAnswers state s
    let verdicts :=
      (answers.takeWhile (·.2.isValue) ++ (stop? answers).toList).map (c.answerVerdict s)
    let resets := if (stop? answers).isSome then 1 else 0
    (∃ memory, (c.runOnce s).run m.subject state =
      (.ok verdicts, ⟨memory, s.id :: state.executed, state.resets + resets⟩)) ∧
    answers.map (·.1) = s.checkpoints ∧
    (∀ checkpoint v,
      c.answerVerdict s (checkpoint, .value v) = c.judge s checkpoint v v.text) ∧
    (∀ checkpoint response, stop? answers = some (checkpoint, response) →
      ∃ verdict, verdicts.getLast? = some verdict ∧ verdict.checkpoint = checkpoint.name ∧
        verdict.kind = if response = .hang then .timeout else .crashed) ∧
    ((∀ checkpoint v, (checkpoint, .value v) ∈ answers.takeWhile (·.2.isValue) → v.IsSendable) →
      ∀ lines, IsPrinted (transcriptOf answers).events lines → ∀ label later executed before,
        (c.runOnce s).run (Playback.subject label)
            ⟨⟨lines, (transcriptOf answers).ending, (transcriptOf answers).errors⟩ :: later,
              executed, before⟩ =
          (.ok verdicts, ⟨later, .ofScenario s :: executed, before + resets⟩)) := by
  intro answers verdicts resets
  have hcheckpoints : answers.map (·.1) = s.checkpoints := m.nextAnswers_checkpoints state s
  refine ⟨c.runOnce_mimic m hs state, hcheckpoints, fun _ _ => rfl, ?_, ?_⟩
  · intro checkpoint response hstop
    refine ⟨c.answerVerdict s (checkpoint, response), ?_, c.answerVerdict_checkpoint s _, ?_⟩
    · simp [verdicts, hstop]
    · have hvalue : response.isValue = false := by simpa using List.find?_some hstop
      exact c.answerVerdict_kind s hvalue
  · intro hvalues lines hlines label later executed before
    have hnames : ∀ checkpoint ∈ answers.map (·.1), isCheckpointName checkpoint.name = true := by
      intro checkpoint hmem
      rw [hcheckpoints] at hmem
      exact hs.isCheckpointName hmem
    have hsendable : ∀ checkpoint v, (checkpoint, .value v) ∈ upToStop answers → v.IsSendable := by
      intro checkpoint v hmem
      rcases List.mem_append.1 hmem with hmem | hmem
      · exact hvalues checkpoint v hmem
      · have hstop := List.find?_some (Option.mem_toList.1 hmem)
        simp [MimicResponse.isValue] at hstop
    rw [c.runOnce_printed hs (canonical_of_mem_transcriptOf hnames hsendable) hlines
      (c.classify_transcriptOf s hcheckpoints) label _ rfl, endsEarly_answerVerdicts]
    rfl

/-- A mimic that remembers how often it was asked, and throws the second time. -/
def throwsSecondTime : Mimic Nat :=
  { behaviour := fun asked _ =>
      (if asked = 1 then .fault "no \"sum\":\n" else .value (.number .nan), asked + 1) }

/-- The mimic and a subject that prints the same with chatter between the lines. -/
theorem runOnce_imitates_throwing :
    sumScenario.IsValid ∧ ∃ verdicts memory,
      (({} : Criteria).runOnce sumScenario).run throwsSecondTime.subject ⟨0, [], 0⟩ =
        (.ok verdicts, ⟨memory, ["arity/sum2"], 1⟩) ∧
      verdicts.map (fun verdict => (verdict.checkpoint, verdict.kind)) =
        [("warm", .wrongValue), ("retype:hot", .crashed)] ∧
      (({} : Criteria).runOnce sumScenario).run (Playback.subject "printer")
          ⟨[⟨["engine 1.0", "CHECKPOINT:warm", "gc\r\n", "RESULT:number:\"NaN\"",
              "FAULT:retype:hot:\"no \\\"sum\\\":\\n\"", "Done"], .clean, ""⟩], [], 0⟩ =
        (.ok verdicts, ⟨[], [.ofScenario sumScenario], 1⟩) := by
  obtain ⟨⟨memory, hmimic⟩, -, -, -, hprinted⟩ :=
    runOnce_imitates {} throwsSecondTime sumScenario_isValid ⟨0, [], 0⟩
  refine ⟨sumScenario_isValid, _, memory, hmimic, by decide +kernel, ?_⟩
  refine hprinted ?_ _ ?_ "printer" [] [] 0
  · intro checkpoint v hv
    have hnan : MimicResponse.value v = .value (.number .nan) :=
      (Prod.mk.inj (List.mem_singleton.1 hv)).2
    cases hnan
    trivial
  · apply IsPrinted.chatter "engine 1.0" ⟨⟨rfl, rfl, rfl, rfl⟩, by decide⟩
    apply IsPrinted.event (.checkpoint "warm")
    apply IsPrinted.chatter "gc\r\n" ⟨⟨rfl, rfl, rfl, rfl⟩, by decide⟩
    apply IsPrinted.event (.result (.number .nan) "NaN")
    apply IsPrinted.event (.fault "retype:hot" "no \"sum\":\n")
    exact IsPrinted.chatter "Done" ⟨⟨rfl, rfl, rfl, rfl⟩, by decide⟩ .nil

end Criteria

end TierCheck
