import TierCheck.Proofs.Run.Classification
import TierCheck.Proofs.Subject.Output

/-!
# Processes that end early

A process that is stopped has written a start of its output, which may end anywhere, also inside a
character. What is left of the last line is read like a line. If it has become another line of the
script's own kinds, the run fails; otherwise it is chatter or nothing, and the run has the verdicts
of the lines before it. A last line that lacks only its line feed counts as written.

* `Criteria.classify_written`: the verdicts of the first lines of a script's output.
* `read_chatter`, `read_garbled`: what is left of a line, without its keyword and with it.
* `OutputCut.IsGarbled`: the last line is incomplete and has its keyword.
* `Criteria.answer_interrupted`: when the run fails, and its verdicts if it does not.
-/
namespace TierCheck

/-- The events of a script that reports the readings. -/
def scriptOutput (readings : List Reading) : List Event := readingEvents readings ++ [.done]

/-! ## The verdicts of the first lines -/

def Event.isResult : Event → Bool
  | .result _ _ => true
  | _ => false

namespace Criteria

variable (c : Criteria) (s : Scenario) (t : Transcript)

/-- The verdicts when a script's output breaks off behind one of its lines: those of the results
among them, and one for the first checkpoint without a result. -/
theorem classifyFrom_written {readings : List Reading} {events : List Event}
    (h : events <+: scriptOutput readings) :
    c.classifyFrom s t (readings.map (·.checkpoint)) events =
      .ok ((readings.take (events.countP Event.isResult)).map (c.judgeReading s) ++
        ((readings.drop (events.countP Event.isResult)).head?.map fun r =>
          c.missing t r.checkpoint).toList) := by
  induction readings generalizing events with
  | nil =>
    cases events with
    | nil => rfl
    | cons e events =>
      obtain ⟨rfl, hnil⟩ := List.cons_prefix_cons.1 h
      rw [List.prefix_nil.1 hnil]
      rfl
  | cons r readings ih =>
    cases events with
    | nil => rfl
    | cons e events =>
      obtain ⟨rfl, htail⟩ := List.cons_prefix_cons.1 h
      cases events with
      | nil => exact c.classifyFrom_stopsAt s t .reached _
      | cons e events =>
        obtain ⟨rfl, hevents⟩ := List.cons_prefix_cons.1 htail
        have hcount : (Event.checkpoint r.checkpoint.name :: .result r.value r.raw ::
            events).countP Event.isResult = events.countP Event.isResult + 1 := by
          simp [List.countP_cons, Event.isResult]
        rw [List.map_cons, classifyFrom_reading, ih hevents, hcount]
        rfl

theorem classify_written {readings : List Reading} {events : List Event}
    (h : events <+: scriptOutput readings)
    (hcheckpoints : readings.map (·.checkpoint) = s.checkpoints) (ht : t.scriptEvents = events) :
    c.classify s t =
      .ok ((readings.take (events.countP Event.isResult)).map (c.judgeReading s) ++
        ((readings.drop (events.countP Event.isResult)).head?.map fun r =>
          c.missing t r.checkpoint).toList) := by
  rw [← c.classifyFrom_written s t h, hcheckpoints, ← ht]
  rfl

/-- Another checkpoint in place of the next one is out of order. -/
theorem classifyFrom_otherCheckpoint {readings : List Reading} {written later : List Event}
    {name other : String} (h : scriptOutput readings = written ++ .checkpoint name :: later)
    (hother : other ≠ name) :
    c.classifyFrom s t (readings.map (·.checkpoint)) (written ++ [.checkpoint other]) =
      .error (.outOfOrder s.id name other) := by
  induction readings generalizing written with
  | nil =>
    cases written with
    | nil => cases h
    | cons e written => cases written <;> cases h
  | cons r readings ih =>
    cases written with
    | nil =>
      obtain ⟨hname, -⟩ := List.cons.inj h
      cases hname
      rw [List.map_cons, List.nil_append, classifyFrom, if_neg hother]
    | cons e written =>
      obtain ⟨rfl, htail⟩ := List.cons.inj h
      cases written with
      | nil => cases htail
      | cons e written =>
        obtain ⟨rfl, hrest⟩ := List.cons.inj htail
        rw [List.map_cons, List.cons_append, List.cons_append, classifyFrom_reading, ih hrest]
        rfl

end Criteria

/-- The readings can be reported: their checkpoints' names are valid and their values are sent by
their texts. -/
def AreReportable (readings : List Reading) : Prop :=
  ∀ r ∈ readings, isCheckpointName r.checkpoint.name = true ∧ r.value.IsSendable ∧
    r.raw = r.value.text

theorem mem_scriptOutput {readings : List Reading} {e : Event} (h : e ∈ scriptOutput readings) :
    (∃ r ∈ readings, e = .checkpoint r.checkpoint.name ∨ e = .result r.value r.raw) ∨
      e = .done := by
  rw [scriptOutput, List.mem_append, List.mem_singleton] at h
  refine h.imp (fun h => ?_) id
  obtain ⟨r, hr, hmem⟩ := List.mem_flatMap.1 h
  simp only [List.mem_cons, List.not_mem_nil, or_false] at hmem
  exact ⟨r, hr, hmem⟩

theorem AreReportable.isLine {readings : List Reading} (h : AreReportable readings) {e : Event}
    (he : e ∈ scriptOutput readings) : e.IsLine := by
  rcases mem_scriptOutput he with ⟨r, hr, rfl | rfl⟩ | rfl
  · exact Event.isLine_checkpoint (h r hr).1
  · rw [(h r hr).2.2]
    exact Event.isLine_result (h r hr).2.1
  · exact Event.isLine_done

theorem not_isChatter_of_mem_scriptOutput {readings : List Reading} {e : Event}
    (he : e ∈ scriptOutput readings) : e.isChatter = false := by
  rcases mem_scriptOutput he with ⟨r, -, rfl | rfl⟩ | rfl <;> rfl

/-! ## What a cut line is read as -/

/-- The line of a script's event starts with the first letter of its kind. -/
theorem head_line {readings : List Reading} {e : Event} (he : e ∈ scriptOutput readings) :
    e.line.toList.head? = some 'C' ∨ e.line.toList.head? = some 'R' ∨ e = .done := by
  rcases mem_scriptOutput he with ⟨r, -, rfl | rfl⟩ | rfl
  · left
    rw [Event.line_checkpoint]
    rfl
  · right
    left
    rw [Event.line_result]
    rfl
  · exact .inr (.inr rfl)

theorem line_ne_empty {readings : List Reading} {e : Event} (he : e ∈ scriptOutput readings) :
    e.line ≠ "" := by
  intro hempty
  rcases head_line he with h | h | rfl
  · rw [hempty] at h
    cases h
  · rw [hempty] at h
    cases h
  · exact absurd hempty (by decide)

section

variable {readings : List Reading} {e : Event} {text : String} {before after tail : List Char}

/-- What is left of a line is chatter, unless it has the keyword of its line. -/
theorem read_chatter (he : e ∈ scriptOutput readings) (hrep : AreReportable readings)
    (h : IsCutText e.line.toList text.toList before after tail) (hne : text ≠ e.line)
    (hcheckpoint : ¬"CHECKPOINT:".toList <+: text.toList)
    (hresult : ¬"RESULT:".toList <+: text.toList) : Event.read text = .ok (.chatter text) := by
  have hhead : ∀ c, text.toList.head? = some c → c = 'C' ∨ c = 'R' ∨ c = Utf8.replacement ∨
      (c = 'D' ∧ e = .done) := by
    intro c hc
    rcases h.head_eq hc with hline | rfl
    · rcases head_line he with hC | hR | rfl
      · exact .inl (Option.some.inj (hline.symm.trans hC))
      · exact .inr (.inl (Option.some.inj (hline.symm.trans hR)))
      · exact .inr (.inr (.inr ⟨(Option.some.inj hline).symm, rfl⟩))
    · exact .inr (.inr (.inl rfl))
  have hplain : Event.IsPlain text.toList := by
    refine ⟨after?_eq_none_iff.2 hcheckpoint, after?_eq_none_iff.2 hresult, ?_, ?_⟩
    · refine after?_eq_none_of_head (c := 'F') rfl fun hF => ?_
      rcases hhead _ hF with h | h | h | ⟨h, -⟩ <;> exact absurd h (by decide)
    · refine after?_eq_none_of_head (c := 'S') rfl fun hS => ?_
      rcases hhead _ hS with h | h | h | ⟨h, -⟩ <;> exact absurd h (by decide)
  have hdone : text.toList ≠ "DONE".toList := by
    intro heq
    rcases hhead 'D' (by rw [heq]; rfl) with h | h | h | ⟨-, rfl⟩
    · exact absurd h (by decide)
    · exact absurd h (by decide)
    · exact absurd h (by decide)
    · exact hne (String.toList_inj.1 heq)
  rw [Event.read_of_oneLine (h.oneLine (hrep.isLine he).oneLine), Event.readContent_plain hplain,
    if_neg hdone, String.ofList_toList]
  rfl

/-- What is left of a line with its keyword is malformed, or it names another checkpoint. -/
theorem read_garbled (he : e ∈ scriptOutput readings) (hrep : AreReportable readings)
    (h : IsCutText e.line.toList text.toList before after tail) (hne : text ≠ e.line)
    (hkeyword : "CHECKPOINT:".toList <+: text.toList ∨ "RESULT:".toList <+: text.toList) :
    (∃ fault, Event.read text = .error ⟨text, fault⟩) ∨
      ∃ name other, e = .checkpoint name ∧ other ≠ name ∧
        Event.read text = .ok (.checkpoint other) := by
  have hone := h.oneLine (hrep.isLine he).oneLine
  have hhead : ("CHECKPOINT:".toList <+: text.toList ∧ e.line.toList.head? = some 'C') ∨
      ("RESULT:".toList <+: text.toList ∧ e.line.toList.head? = some 'R') := by
    refine hkeyword.imp (fun hC => ⟨hC, ?_⟩) fun hR => ⟨hR, ?_⟩
    · exact h.head_of_keyword hC rfl (by decide)
    · exact h.head_of_keyword hR rfl (by decide)
  rcases mem_scriptOutput he with ⟨r, hr, rfl | rfl⟩ | rfl
  · rcases hhead with ⟨hcheckpoint, -⟩ | ⟨-, hR⟩
    · refine (Event.read_otherCheckpoint hone hne hcheckpoint).imp id ?_
      rintro ⟨other, hother, hread⟩
      exact ⟨_, other, rfl, hother, hread⟩
    · rw [Event.line_checkpoint] at hR
      cases hR
  · rcases hhead with ⟨-, hC⟩ | ⟨hresult, -⟩
    · rw [Event.line_result] at hC
      cases hC
    · have hkind := fun hmem => ((hrep r hr).2.1.of_mem_kindName hmem).2 rfl
      exact .inl (Event.read_cutResult hone h hkind hne hresult)
  · rcases hhead with ⟨-, hC⟩ | ⟨-, hR⟩
    · exact absurd hC (by decide)
    · exact absurd hR (by decide)

end

/-! ## Verdicts of an output that ends early -/

namespace OutputCut

variable {events : List Event} {output : List UInt8} (cut : OutputCut events output)

/-- The events whose lines are there. The last one may lack its line feed. -/
def finished : List Event :=
  if cut.text = cut.next.line then cut.written ++ [cut.next] else cut.written

/-- The last line is incomplete, but it has its keyword. -/
def IsGarbled : Prop :=
  cut.text ≠ cut.next.line ∧
    ("CHECKPOINT:".toList <+: cut.text.toList ∨ "RESULT:".toList <+: cut.text.toList)

theorem finished_prefix : cut.finished <+: events := by
  unfold finished
  split
  · exact ⟨cut.later, (List.append_assoc _ _ _).trans cut.events_eq.symm⟩
  · exact cut.written_prefix

end OutputCut

theorem scriptEvents_of_written {readings : List Reading} {events : List Event}
    (h : events <+: scriptOutput readings) (more : List Event) (ending : Ending) (errors : String) :
    Transcript.scriptEvents ⟨events ++ more, ending, errors⟩ =
      events ++ more.filter fun e => !e.isChatter := by
  have hevents : events.filter (fun e => !e.isChatter) = events := by
    refine List.filter_eq_self.2 fun e he => ?_
    rw [not_isChatter_of_mem_scriptOutput (h.subset he)]
    rfl
  rw [Transcript.scriptEvents, List.filter_append, hevents]

section

variable {readings : List Reading} {output : List UInt8}
  (cut : OutputCut (scriptOutput readings) output) (errors : List (List UInt8))
  (code signal : Option Int)

theorem OutputCut.written_isLine (hrep : AreReportable readings) : ∀ e ∈ cut.written, e.IsLine :=
  fun _ he => hrep.isLine (cut.written_prefix.subset he)

/-- If the last line is not garbled, the finished lines are read, apart from chatter. -/
theorem OutputCut.transcript_of_not_garbled (hrep : AreReportable readings)
    (hgarbled : ¬cut.IsGarbled) :
    ∃ t, ProcessRun.transcript ⟨output, errors, .exited code signal⟩ = .ok t ∧
      t.scriptEvents = cut.finished ∧ t.ending = .exited code signal := by
  have hwritten := cut.written_isLine hrep
  have hpart := cut.part_oneLine (hrep.isLine cut.next_mem)
  obtain ⟨before, after, tail, hcut⟩ := cut.isCutText
  by_cases hline : cut.text = cut.next.line
  · have hread : Event.read (Utf8.decode cut.part) = .ok cut.next := by
      rw [show Utf8.decode cut.part = cut.next.line from hline]
      exact (hrep.isLine cut.next_mem).canonical.read_line
    have hne : cut.part ≠ [] := by
      intro hnil
      refine line_ne_empty cut.next_mem ?_
      rw [← hline, OutputCut.text, hnil]
      rfl
    have htranscript := ProcessRun.transcript_eq_ok cut.output_eq hwritten hpart hread errors code
      signal
    rw [if_neg hne] at htranscript
    refine ⟨_, htranscript, ?_, rfl⟩
    rw [scriptEvents_of_written cut.written_prefix, OutputCut.finished, if_pos hline]
    simp [not_isChatter_of_mem_scriptOutput cut.next_mem]
  · have hkeyword : ¬("CHECKPOINT:".toList <+: cut.text.toList ∨
        "RESULT:".toList <+: cut.text.toList) := fun h => hgarbled ⟨hline, h⟩
    have hread := read_chatter cut.next_mem hrep hcut hline (fun h => hkeyword (.inl h))
      fun h => hkeyword (.inr h)
    refine ⟨_, ProcessRun.transcript_eq_ok cut.output_eq hwritten hpart hread errors code signal,
      ?_, rfl⟩
    rw [scriptEvents_of_written cut.written_prefix, OutputCut.finished, if_neg hline]
    split
    · rw [List.filter_nil, List.append_nil]
    · simp [Event.isChatter]

/-- If the last line is garbled, it is malformed or another checkpoint than the next one. -/
theorem OutputCut.transcript_of_garbled (hrep : AreReportable readings)
    (hgarbled : cut.IsGarbled) :
    (∃ fault, ProcessRun.transcript ⟨output, errors, .exited code signal⟩ =
      .error (.malformedLine ⟨cut.text, fault⟩)) ∨
    ∃ t name other, ProcessRun.transcript ⟨output, errors, .exited code signal⟩ = .ok t ∧
      cut.next = .checkpoint name ∧ other ≠ name ∧
      t.scriptEvents = cut.written ++ [.checkpoint other] := by
  obtain ⟨hline, hkeyword⟩ := hgarbled
  have hwritten := cut.written_isLine hrep
  have hpart := cut.part_oneLine (hrep.isLine cut.next_mem)
  have hne : cut.part ≠ [] := by
    intro hnil
    have hempty : cut.text.toList = [] := by rw [OutputCut.text, hnil]; rfl
    rw [hempty] at hkeyword
    rcases hkeyword with h | h <;> exact absurd (List.prefix_nil.1 h) (by decide)
  obtain ⟨before, after, tail, hcut⟩ := cut.isCutText
  rcases read_garbled cut.next_mem hrep hcut hline hkeyword with
    ⟨fault, hread⟩ | ⟨name, other, hnext, hother, hread⟩
  · exact .inl ⟨fault, ProcessRun.transcript_eq_error cut.output_eq hwritten hpart hne hread
      errors code signal⟩
  · right
    have htranscript := ProcessRun.transcript_eq_ok cut.output_eq hwritten hpart hread errors code
      signal
    rw [if_neg hne] at htranscript
    refine ⟨_, name, other, htranscript, hnext, hother, ?_⟩
    rw [scriptEvents_of_written cut.written_prefix]
    rfl

end

namespace Criteria

/-- The answer to a process that ended by itself: its verdicts, or the failure of the run. -/
def answer (c : Criteria) (s : Scenario) (output : List UInt8) (errors : List (List UInt8))
    (code signal : Option Int) : Except Failure (List Verdict) := do
  c.classify s (← ProcessRun.transcript ⟨output, errors, .exited code signal⟩)

variable (c : Criteria) (s : Scenario)

theorem areReportable (hs : s.IsValid) {readings : List Reading}
    (hcheckpoints : readings.map (·.checkpoint) = s.checkpoints)
    (hvalues : ∀ r ∈ readings, r.value.IsSendable ∧ r.raw = r.value.text) :
    AreReportable readings := by
  intro r hr
  refine ⟨hs.isCheckpointName ?_, hvalues r hr⟩
  rw [← hcheckpoints]
  exact List.mem_map_of_mem hr

/-- The verdicts of a script's first lines, with one for the first checkpoint without a result. -/
theorem classify_written_pending {readings : List Reading} {events : List Event} {t : Transcript}
    {code signal : Option Int} (h : events <+: scriptOutput readings)
    (hcheckpoints : readings.map (·.checkpoint) = s.checkpoints) (ht : t.scriptEvents = events)
    (hending : t.ending = .exited code signal) :
    ∃ pending : List Verdict,
      c.classify s t =
        .ok ((readings.take (events.countP Event.isResult)).map (c.judgeReading s) ++ pending) ∧
      pending.map (·.checkpoint) =
        ((s.checkpoints.drop (events.countP Event.isResult)).head?.map (·.name)).toList ∧
      ∀ verdict ∈ pending, verdict.kind = .crashed := by
  refine ⟨_, c.classify_written s t h hcheckpoints ht, ?_, fun verdict hverdict => ?_⟩
  · rw [← hcheckpoints, ← List.map_drop, List.head?_map]
    cases (readings.drop (events.countP Event.isResult)).head? with
    | none => rfl
    | some r => simp [c.missing_checkpoint]
  · obtain ⟨r, -, rfl⟩ := Option.map_eq_some_iff.1 (Option.mem_toList.1 hverdict)
    rw [c.missing_kind, hending, if_neg Ending.noConfusion]

/-- The answer that fits to a cut. A garbled line fails the run. Otherwise the results of the
finished lines are judged, and the first checkpoint without a result is one at which the subject
crashed. -/
structure FitsCut {readings : List Reading} {output : List UInt8}
    (cut : OutputCut (scriptOutput readings) output) (given : Except Failure (List Verdict)) :
    Prop where
  garbled : cut.IsGarbled → ∃ failure, given = .error failure ∧
    ((∃ fault, failure = .malformedLine ⟨cut.text, fault⟩) ∨
      ∃ name other, cut.next = .checkpoint name ∧ failure = .outOfOrder s.id name other)
  verdicts : ¬cut.IsGarbled → ∃ pending : List Verdict,
    given = .ok ((readings.take (cut.finished.countP Event.isResult)).map (c.judgeReading s) ++
      pending) ∧
    pending.map (·.checkpoint) =
      ((s.checkpoints.drop (cut.finished.countP Event.isResult)).head?.map (·.name)).toList ∧
    ∀ verdict ∈ pending, verdict.kind = .crashed

theorem fitsCut {readings : List Reading} {output : List UInt8} (hrep : AreReportable readings)
    (hcheckpoints : readings.map (·.checkpoint) = s.checkpoints)
    (cut : OutputCut (scriptOutput readings) output) (errors : List (List UInt8))
    (code signal : Option Int) : c.FitsCut s cut (c.answer s output errors code signal) := by
  refine ⟨fun hgarbled => ?_, fun hgarbled => ?_⟩
  · rcases cut.transcript_of_garbled errors code signal hrep hgarbled with
      ⟨fault, htranscript⟩ | ⟨t, name, other, htranscript, hnext, hother, hevents⟩
    · refine ⟨_, ?_, .inl ⟨fault, rfl⟩⟩
      rw [answer, htranscript]
      rfl
    · refine ⟨_, ?_, .inr ⟨name, other, hnext, rfl⟩⟩
      have hsplit := cut.events_eq
      rw [hnext] at hsplit
      rw [answer, htranscript]
      refine Eq.trans ?_ (c.classifyFrom_otherCheckpoint s t hsplit hother)
      rw [hcheckpoints, ← hevents]
      rfl
  · obtain ⟨t, htranscript, hevents, hending⟩ :=
      cut.transcript_of_not_garbled errors code signal hrep hgarbled
    rw [answer, htranscript]
    exact c.classify_written_pending s cut.finished_prefix hcheckpoints hevents hending

theorem countP_isResult_scriptOutput (readings : List Reading) :
    (scriptOutput readings).countP Event.isResult = readings.length := by
  induction readings with
  | nil => rfl
  | cons r readings ih =>
    rw [List.length_cons, ← ih]
    simp [scriptOutput, List.countP_cons, Event.isResult]

/-- The whole output has a verdict for each of its results. -/
theorem answer_complete {readings : List Reading} (hrep : AreReportable readings)
    (hcheckpoints : readings.map (·.checkpoint) = s.checkpoints) (errors : List (List UInt8))
    (code signal : Option Int) :
    c.answer s (lineBytes (scriptOutput readings)) errors code signal =
      .ok (readings.map (c.judgeReading s)) := by
  have hempty : Event.read (Utf8.decode []) = .ok (.chatter "") := rfl
  have htranscript := ProcessRun.transcript_eq_ok (List.append_nil _).symm
    (fun e he => hrep.isLine he) ⟨List.not_mem_nil, List.not_mem_nil⟩ hempty errors code signal
  rw [if_pos rfl] at htranscript
  have hevents := scriptEvents_of_written (List.prefix_refl (scriptOutput readings)) []
    (.exited code signal) (ProcessRun.errorText errors)
  rw [List.filter_nil] at hevents
  rw [List.append_nil] at htranscript hevents
  rw [answer, htranscript]
  refine (c.classify_written s _ (List.prefix_refl _) hcheckpoints hevents).trans ?_
  rw [countP_isResult_scriptOutput, List.take_length, List.drop_length]
  simp

/-- What becomes of a script's output that ends early, at any byte, with the process ending by
itself: it has a last line, and the answer is the one that fits to it. -/
theorem answer_interrupted (hs : s.IsValid) (readings : List Reading)
    (hcheckpoints : readings.map (·.checkpoint) = s.checkpoints)
    (hvalues : ∀ r ∈ readings, r.value.IsSendable ∧ r.raw = r.value.text)
    (errors : List (List UInt8)) (code signal : Option Int) :
    c.answer s (lineBytes (scriptOutput readings)) errors code signal =
      .ok (readings.map (c.judgeReading s)) ∧
    ∀ output, output <+: lineBytes (scriptOutput readings) →
      output ≠ lineBytes (scriptOutput readings) →
      Nonempty (OutputCut (scriptOutput readings) output) ∧
      ∀ cut : OutputCut (scriptOutput readings) output,
        c.FitsCut s cut (c.answer s output errors code signal) := by
  have hrep := areReportable s hs hcheckpoints hvalues
  refine ⟨c.answer_complete s hrep hcheckpoints errors code signal, fun output hprefix hne => ?_⟩
  exact ⟨exists_outputCut hprefix hne,
    fun cut => c.fitsCut s hrep hcheckpoints cut errors code signal⟩

/-- Results of the sum scenario. -/
def sumReadings : List Reading :=
  [⟨⟨"warm", 10, 0⟩, .ofNat 3, "3"⟩, ⟨⟨"retype:hot", 100, 0⟩, .ofNat 3, "3"⟩]

/-- The output ends in the keyword of the second checkpoint: the first result is judged, and the
second checkpoint is one at which the subject crashed. -/
theorem answer_interrupted_keyword :
    let output := Utf8.encode "CHECKPOINT:warm\nRESULT:number:\"3\"\nCHECKPO"
    (sumScenario.IsValid ∧ sumReadings.map (·.checkpoint) = sumScenario.checkpoints ∧
      (∀ r ∈ sumReadings, r.value.IsSendable ∧ r.raw = r.value.text) ∧
      output <+: lineBytes (scriptOutput sumReadings) ∧
      output ≠ lineBytes (scriptOutput sumReadings)) ∧
    ∃ verdict : Verdict, verdict.checkpoint = "retype:hot" ∧ verdict.kind = .crashed ∧
      answer {} sumScenario output [] (some 139) none =
        .ok [judgeReading {} sumScenario ⟨⟨"warm", 10, 0⟩, .ofNat 3, "3"⟩, verdict] := by
  intro output
  have hvalues : ∀ r ∈ sumReadings, r.value.IsSendable ∧ r.raw = r.value.text := by
    intro r hr
    rcases List.mem_cons.1 hr with rfl | hr
    · exact ⟨trivial, by decide +kernel⟩
    · rw [List.mem_singleton.1 hr]
      exact ⟨trivial, by decide +kernel⟩
  have hprefix : output <+: lineBytes (scriptOutput sumReadings) := by decide +kernel
  have hne : output ≠ lineBytes (scriptOutput sumReadings) := by decide +kernel
  have hfits := ((answer_interrupted {} sumScenario sumScenario_isValid sumReadings rfl hvalues []
    (some 139) none).2 output hprefix hne).2
  let cut : OutputCut (scriptOutput sumReadings) output :=
    { written := readingEvents (sumReadings.take 1)
      next := .checkpoint "retype:hot"
      later := [.result (.ofNat 3) "3", .done]
      part := Utf8.encode "CHECKPO"
      events_eq := rfl
      output_eq := by decide +kernel
      part_prefix := by decide +kernel }
  have hgarbled : ¬cut.IsGarbled := fun h => absurd h.2 (by decide +kernel)
  obtain ⟨pending, hanswer, hname, hcrashed⟩ := (hfits cut).verdicts hgarbled
  have hfinished : cut.finished.countP Event.isResult = 1 := by decide +kernel
  rw [hfinished] at hanswer hname
  obtain ⟨verdict, rfl⟩ : ∃ verdict, pending = [verdict] :=
    List.length_eq_one_iff.1 (by rw [← List.length_map (·.checkpoint), hname]; rfl)
  refine ⟨⟨sumScenario_isValid, rfl, hvalues, hprefix, hne⟩, verdict, ?_, ?_, hanswer⟩
  · exact (List.cons.inj hname).1
  · exact hcrashed verdict List.mem_cons_self

/-- The output ends in a payload, with the process ending with a code that is not zero: there are
no verdicts at all. -/
theorem answer_cut_payload :
    let output := Utf8.encode "CHECKPOINT:warm\nRESULT:number:\"3"
    sumScenario.IsValid ∧ sumReadings.map (·.checkpoint) = sumScenario.checkpoints ∧
      output <+: lineBytes (scriptOutput sumReadings) ∧
      output ≠ lineBytes (scriptOutput sumReadings) ∧
      (Ending.exited (some 139) none).isClean = false ∧
      answer {} sumScenario output [] (some 139) none =
        .error (.malformedLine ⟨"RESULT:number:\"3", .payload⟩) := by
  intro output
  refine ⟨sumScenario_isValid, rfl, ?_, ?_, rfl, ?_⟩
  · decide +kernel
  · decide +kernel
  · have hfailure : (match answer {} sumScenario output [] (some 139) none with
        | .error failure => some failure
        | .ok _ => none) = some (.malformedLine ⟨"RESULT:number:\"3", .payload⟩) := by
      decide +kernel
    cases hanswer : answer {} sumScenario output [] (some 139) none with
    | error failure =>
      rw [hanswer] at hfailure
      rw [Option.some.inj hfailure]
    | ok verdicts =>
      rw [hanswer] at hfailure
      cases hfailure

end Criteria
end TierCheck
