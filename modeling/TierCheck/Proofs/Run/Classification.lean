import TierCheck.Proofs.Scenario.Validity
import TierCheck.Run.Classify

/-!
# The grammar of transcripts

What the classification of a transcript says depends on how far its events follow the checkpoints.
A `Reading` is a result reported at a checkpoint, and `IsProgress` cuts the events after as many
readings as there are from the first checkpoint on. Behind them a transcript may be finished
(`IsFinished`) or stop at the first pending checkpoint (`StopsAt`); everything else is out of order.

* `classifyFrom_readings`: readings are judged one by one, whatever comes behind them.
* `classify_eq_ok`: all that an accepted transcript can look like.
* `classify_follows_grammar`: exactly which transcripts are accepted, with which verdicts.
-/
namespace TierCheck

/-- A result that was reported at a checkpoint. -/
structure Reading where
  checkpoint : Checkpoint
  value : Value
  raw : String
deriving DecidableEq, Repr

/-- The events of readings, two for each. -/
def readingEvents (readings : List Reading) : List Event :=
  readings.flatMap fun r => [.checkpoint r.checkpoint.name, .result r.value r.raw]

@[simp] theorem readingEvents_nil : readingEvents [] = [] := rfl

@[simp] theorem readingEvents_cons (r : Reading) (rest : List Reading) :
    readingEvents (r :: rest) =
      .checkpoint r.checkpoint.name :: .result r.value r.raw :: readingEvents rest := rfl

theorem readingEvents_append (a b : List Reading) :
    readingEvents (a ++ b) = readingEvents a ++ readingEvents b := by
  simp [readingEvents]

/-- The events that are not chatter. -/
def Transcript.scriptEvents (t : Transcript) : List Event :=
  t.events.filter fun event => !event.isChatter

/-- The events are cut after as many readings as they start with, one per checkpoint from the
first on. The checkpoints without a reading are pending. -/
structure IsProgress (checkpoints : List Checkpoint) (events : List Event)
    (readings : List Reading) (pending : List Checkpoint) (rest : List Event) : Prop where
  checkpoints_eq : checkpoints = readings.map (·.checkpoint) ++ pending
  events_eq : events = readingEvents readings ++ rest
  longest : ∀ others : List Reading, others.map (·.checkpoint) <+: checkpoints →
    readingEvents others <+: events → others.length ≤ readings.length

/-- What may follow the readings of all checkpoints. -/
def IsFinished (rest : List Event) : Prop := rest = [] ∨ ∃ later, rest = .done :: later

/-- The events that are left stop at a pending checkpoint, and `verdict` says how: there are none,
only the checkpoint was reached, or the function threw on the way to it. -/
inductive StopsAt (c : Criteria) (t : Transcript) (checkpoint : Checkpoint) :
    List Event → Verdict → Prop
  | silent : StopsAt c t checkpoint [] (c.missing t checkpoint)
  | reached : StopsAt c t checkpoint [.checkpoint checkpoint.name] (c.missing t checkpoint)
  | threw (message : String) (later : List Event) :
    StopsAt c t checkpoint (.fault checkpoint.name message :: later)
      (Criteria.thrown checkpoint message)

/-! ## Single verdicts -/

namespace Criteria

variable (c : Criteria) (s : Scenario) (t : Transcript)

def judgeReading (r : Reading) : Verdict := c.judge s r.checkpoint r.value r.raw

theorem judge_checkpoint (checkpoint : Checkpoint) (value : Value) (raw : String) :
    (c.judge s checkpoint value raw).checkpoint = checkpoint.name := by
  unfold judge
  dsimp only
  split
  · rfl
  · split <;> rfl

theorem judge_kind (checkpoint : Checkpoint) (value : Value) (raw : String) :
    (c.judge s checkpoint value raw).kind = .pass ∨
      (c.judge s checkpoint value raw).kind = .corrupted ∨
      (c.judge s checkpoint value raw).kind = .wrongValue := by
  unfold judge
  dsimp only
  split
  · exact .inl rfl
  · split
    · exact .inr (.inl rfl)
    · exact .inr (.inr rfl)

/-- The text that a value was reported by is only quoted. -/
theorem judge_raw (checkpoint : Checkpoint) (value : Value) (raw raw' : String) :
    c.judge s checkpoint value raw' =
      { c.judge s checkpoint value raw with raw := some raw' } := by
  unfold judge
  dsimp only
  split
  · rfl
  · split <;> rfl

theorem missing_checkpoint (checkpoint : Checkpoint) :
    (c.missing t checkpoint).checkpoint = checkpoint.name := by
  unfold missing; split <;> rfl

theorem missing_kind (checkpoint : Checkpoint) :
    (c.missing t checkpoint).kind = if t.ending = .timedOut then .timeout else .crashed := by
  unfold missing
  split
  · next h => rw [if_pos h]
  · next h => rw [if_neg (by rw [h]; exact Ending.noConfusion)]

end Criteria

theorem StopsAt.checkpoint_eq {c : Criteria} {t : Transcript} {checkpoint : Checkpoint}
    {rest : List Event} {verdict : Verdict} (h : StopsAt c t checkpoint rest verdict) :
    verdict.checkpoint = checkpoint.name := by
  cases h with
  | silent => exact c.missing_checkpoint t checkpoint
  | reached => exact c.missing_checkpoint t checkpoint
  | threw => rfl

theorem StopsAt.kind_eq {c : Criteria} {t : Transcript} {checkpoint : Checkpoint}
    {rest : List Event} {verdict : Verdict} (h : StopsAt c t checkpoint rest verdict) :
    verdict.kind = .crashed ∨ verdict.kind = .timeout := by
  have hmissing := c.missing_kind t checkpoint
  cases h with
  | silent => rw [hmissing]; split <;> simp
  | reached => rw [hmissing]; split <;> simp
  | threw => exact .inl rfl

/-! ## Progress -/

/-- The events do not go on with a reading of the first pending checkpoint. -/
def IsStuck (pending : List Checkpoint) (rest : List Event) : Prop :=
  ∀ checkpoint later value raw more, pending = checkpoint :: later →
    rest ≠ .checkpoint checkpoint.name :: .result value raw :: more

theorem isProgress_of_isStuck {pending : List Checkpoint} {rest : List Event}
    (h : IsStuck pending rest) (readings : List Reading) :
    IsProgress (readings.map (·.checkpoint) ++ pending) (readingEvents readings ++ rest)
      readings pending rest := by
  refine ⟨rfl, rfl, ?_⟩
  induction readings with
  | nil =>
    intro others hcp hev
    cases others with
    | nil => exact Nat.le_refl _
    | cons o os =>
      -- one reading more would be one of the first pending checkpoint
      obtain ⟨later, hlater⟩ := hcp
      obtain ⟨more, hmore⟩ := hev
      exact absurd hmore.symm (h o.checkpoint _ o.value o.raw _ hlater.symm)
  | cons r rs ih =>
    intro others hcp hev
    cases others with
    | nil => exact Nat.zero_le _
    | cons o os =>
      simp only [List.map_cons, List.cons_append, List.cons_prefix_cons] at hcp
      simp only [readingEvents_cons, List.cons_append, List.cons_prefix_cons] at hev
      simpa using ih os hcp.2 hev.2.2

theorem IsProgress.isStuck {checkpoints : List Checkpoint} {events : List Event}
    {readings : List Reading} {pending : List Checkpoint} {rest : List Event}
    (h : IsProgress checkpoints events readings pending rest) : IsStuck pending rest := by
  intro checkpoint later value raw more hpending hrest
  have hlonger := h.longest (readings ++ [⟨checkpoint, value, raw⟩])
    ⟨later, by rw [h.checkpoints_eq, hpending]; simp⟩
    ⟨more, by rw [h.events_eq, hrest, readingEvents_append]; simp⟩
  simp only [List.length_append, List.length_singleton] at hlonger
  omega

theorem exists_isProgress (checkpoints : List Checkpoint) (events : List Event) :
    ∃ readings pending rest, IsProgress checkpoints events readings pending rest := by
  suffices h : ∃ readings pending rest, checkpoints = readings.map (·.checkpoint) ++ pending ∧
      events = readingEvents readings ++ rest ∧ IsStuck pending rest by
    obtain ⟨readings, pending, rest, rfl, rfl, hstuck⟩ := h
    exact ⟨readings, pending, rest, isProgress_of_isStuck hstuck readings⟩
  induction checkpoints generalizing events with
  | nil => exact ⟨[], [], events, rfl, rfl, fun _ _ _ _ _ h => nomatch h⟩
  | cons checkpoint later ih =>
    by_cases hread : ∃ value raw more,
        events = .checkpoint checkpoint.name :: .result value raw :: more
    · obtain ⟨value, raw, more, rfl⟩ := hread
      obtain ⟨readings, pending, rest, rfl, rfl, hstuck⟩ := ih more
      exact ⟨⟨checkpoint, value, raw⟩ :: readings, pending, rest, rfl, rfl, hstuck⟩
    · refine ⟨[], checkpoint :: later, events, rfl, rfl, ?_⟩
      rintro _ _ value raw more ⟨⟩ hevents
      exact hread ⟨value, raw, more, hevents⟩

/-! ## The recursion over the checkpoints -/

namespace Criteria

variable (c : Criteria) (s : Scenario) (t : Transcript)

theorem classifyFrom_reading (r : Reading) (later : List Checkpoint) (events : List Event) :
    c.classifyFrom s t (r.checkpoint :: later)
        (.checkpoint r.checkpoint.name :: .result r.value r.raw :: events) =
      (c.classifyFrom s t later events).map (c.judgeReading s r :: ·) := by
  simp only [classifyFrom, if_true]
  cases c.classifyFrom s t later events <;> rfl

theorem classifyFrom_readings (readings : List Reading) (pending : List Checkpoint)
    (rest : List Event) :
    c.classifyFrom s t (readings.map (·.checkpoint) ++ pending) (readingEvents readings ++ rest) =
      (c.classifyFrom s t pending rest).map (readings.map (c.judgeReading s) ++ ·) := by
  induction readings with
  | nil =>
    simp only [List.map_nil, List.nil_append, readingEvents_nil]
    cases c.classifyFrom s t pending rest <;> rfl
  | cons r rs ih =>
    simp only [List.map_cons, List.cons_append, readingEvents_cons]
    rw [classifyFrom_reading, ih]
    cases c.classifyFrom s t pending rest <;> rfl

theorem classifyFrom_finished {rest : List Event} (h : IsFinished rest) :
    c.classifyFrom s t [] rest = .ok [] := by
  rcases h with rfl | ⟨later, rfl⟩ <;> rfl

theorem classifyFrom_unfinished {rest : List Event} (h : ¬IsFinished rest) :
    ∃ actual, c.classifyFrom s t [] rest = .error (.outOfOrder s.id "DONE" actual) := by
  cases rest with
  | nil => exact absurd (.inl rfl) h
  | cons event later =>
    cases event with
    | done => exact absurd (.inr ⟨later, rfl⟩) h
    | _ => exact ⟨_, rfl⟩

theorem classifyFrom_stopsAt {checkpoint : Checkpoint} {rest : List Event} {verdict : Verdict}
    (h : StopsAt c t checkpoint rest verdict) (later : List Checkpoint) :
    c.classifyFrom s t (checkpoint :: later) rest = .ok [verdict] := by
  cases h <;> simp [classifyFrom]

theorem classifyFrom_astray {checkpoint : Checkpoint} {later : List Checkpoint}
    {rest : List Event} (hstuck : IsStuck (checkpoint :: later) rest)
    (h : ∀ verdict, ¬StopsAt c t checkpoint rest verdict) :
    ∃ actual, c.classifyFrom s t (checkpoint :: later) rest =
      .error (.outOfOrder s.id checkpoint.name actual) := by
  cases rest with
  | nil => exact absurd .silent (h _)
  | cons event more =>
    cases event with
    | checkpoint name =>
      by_cases hname : name = checkpoint.name
      · subst hname
        cases more with
        | nil => exact absurd .reached (h _)
        | cons next more =>
          cases next with
          | result value raw => exact absurd rfl (hstuck _ _ value raw more rfl)
          | _ =>
            simp only [classifyFrom, if_true]
            exact ⟨_, rfl⟩
      · exact ⟨name, by simp only [classifyFrom, if_neg hname]⟩
    | fault name message =>
      by_cases hname : name = checkpoint.name
      · subst hname; exact absurd (.threw message more) (h _)
      · exact ⟨name, by simp only [classifyFrom, if_neg hname]⟩
    | _ => exact ⟨_, rfl⟩

/-! ## Whole transcripts -/

theorem classify_of_isProgress {readings : List Reading} {pending : List Checkpoint}
    {rest : List Event} (h : IsProgress s.checkpoints t.scriptEvents readings pending rest) :
    c.classify s t =
      (c.classifyFrom s t pending rest).map (readings.map (c.judgeReading s) ++ ·) := by
  have hclassify : c.classify s t = c.classifyFrom s t s.checkpoints t.scriptEvents := rfl
  rw [hclassify, h.checkpoints_eq, h.events_eq, classifyFrom_readings]

/-- All that an accepted transcript can look like: it is finished, or it stops at the first pending
checkpoint. -/
theorem classify_eq_ok {verdicts : List Verdict} (h : c.classify s t = .ok verdicts) :
    ∃ readings pending rest, IsProgress s.checkpoints t.scriptEvents readings pending rest ∧
      ((pending = [] ∧ verdicts = readings.map (c.judgeReading s)) ∨
        ∃ checkpoint later verdict, pending = checkpoint :: later ∧
          StopsAt c t checkpoint rest verdict ∧
          verdicts = readings.map (c.judgeReading s) ++ [verdict]) := by
  obtain ⟨readings, pending, rest, hprogress⟩ := exists_isProgress s.checkpoints t.scriptEvents
  refine ⟨readings, pending, rest, hprogress, ?_⟩
  rw [c.classify_of_isProgress s t hprogress] at h
  cases pending with
  | nil =>
    by_cases hfin : IsFinished rest
    · rw [c.classifyFrom_finished s t hfin] at h
      simp only [Except.map, List.append_nil, Except.ok.injEq] at h
      exact .inl ⟨rfl, h.symm⟩
    · obtain ⟨actual, herr⟩ := c.classifyFrom_unfinished s t hfin
      rw [herr] at h
      cases h
  | cons checkpoint later =>
    by_cases hstop : ∃ verdict, StopsAt c t checkpoint rest verdict
    · obtain ⟨verdict, hstop⟩ := hstop
      rw [c.classifyFrom_stopsAt s t hstop] at h
      simp only [Except.map, Except.ok.injEq] at h
      exact .inr ⟨checkpoint, later, verdict, rfl, hstop, h.symm⟩
    · obtain ⟨actual, herr⟩ := c.classifyFrom_astray s t hprogress.isStuck
        fun verdict hv => hstop ⟨verdict, hv⟩
      rw [herr] at h
      cases h

theorem classify_congr {t t' : Transcript} (hevents : t'.scriptEvents = t.scriptEvents)
    (hending : t'.ending = t.ending) (herrors : t'.errors = t.errors) :
    c.classify s t' = c.classify s t := by
  have hmissing : ∀ checkpoint, c.missing t' checkpoint = c.missing t checkpoint := by
    intro checkpoint
    simp only [missing, hending, herrors]
  have hfrom : ∀ checkpoints events,
      c.classifyFrom s t' checkpoints events = c.classifyFrom s t checkpoints events := by
    intro checkpoints events
    induction checkpoints, events using classifyFrom.induct <;> simp_all [classifyFrom]
  exact (congrArg (c.classifyFrom s t' s.checkpoints) hevents).trans (hfrom _ _)

theorem scriptEvents_insert_chatter (before after : List Event) (text : String) (ending : Ending)
    (errors : String) :
    Transcript.scriptEvents ⟨before ++ .chatter text :: after, ending, errors⟩ =
      Transcript.scriptEvents ⟨before ++ after, ending, errors⟩ := by
  simp [Transcript.scriptEvents, Event.isChatter]

/-- The names of an accepted transcript's verdicts are those of the first checkpoints. -/
theorem classify_names {verdicts : List Verdict} (h : c.classify s t = .ok verdicts) :
    verdicts.map (·.checkpoint) <+: s.checkpoints.map (·.name) := by
  obtain ⟨readings, pending, rest, hprogress, hcases⟩ := c.classify_eq_ok s t h
  have hjudged : (readings.map (c.judgeReading s)).map (·.checkpoint) =
      readings.map (·.checkpoint.name) := by
    simp [judgeReading, judge_checkpoint]
  rw [hprogress.checkpoints_eq]
  rcases hcases with ⟨rfl, rfl⟩ | ⟨checkpoint, later, verdict, rfl, hstop, rfl⟩
  · rw [hjudged]; simp [Function.comp_def]
  · rw [List.map_append, hjudged]
    exact ⟨later.map (·.name), by simp [hstop.checkpoint_eq]⟩

theorem judgeReading_kind (r : Reading) :
    (c.judgeReading s r).kind ≠ .crashed ∧ (c.judgeReading s r).kind ≠ .timeout ∧
      (c.judgeReading s r).kind ≠ .unstable := by
  rcases c.judge_kind s r.checkpoint r.value r.raw with h | h | h <;>
    simp [judgeReading, h]

/-- No verdict but the last one says that the subject did not get through. -/
theorem classify_dropLast {verdicts : List Verdict} (h : c.classify s t = .ok verdicts) :
    ∀ verdict ∈ verdicts.dropLast, verdict.kind ≠ .crashed ∧ verdict.kind ≠ .timeout := by
  obtain ⟨readings, pending, rest, -, hcases⟩ := c.classify_eq_ok s t h
  have hjudged : ∀ verdict ∈ readings.map (c.judgeReading s),
      verdict.kind ≠ .crashed ∧ verdict.kind ≠ .timeout := by
    intro verdict hmem
    obtain ⟨r, -, rfl⟩ := List.mem_map.1 hmem
    exact ⟨(c.judgeReading_kind s r).1, (c.judgeReading_kind s r).2.1⟩
  rcases hcases with ⟨-, rfl⟩ | ⟨_, _, last, -, -, rfl⟩
  · exact fun verdict hmem => hjudged verdict ((List.dropLast_sublist _).subset hmem)
  · rwa [List.dropLast_concat]

theorem classify_ne_unstable {verdicts : List Verdict} (h : c.classify s t = .ok verdicts) :
    ∀ verdict ∈ verdicts, verdict.kind ≠ .unstable := by
  obtain ⟨readings, pending, rest, -, hcases⟩ := c.classify_eq_ok s t h
  have hjudged : ∀ verdict ∈ readings.map (c.judgeReading s), verdict.kind ≠ .unstable := by
    intro verdict hmem
    obtain ⟨r, -, rfl⟩ := List.mem_map.1 hmem
    exact (c.judgeReading_kind s r).2.2
  rcases hcases with ⟨-, rfl⟩ | ⟨_, _, last, -, hstop, rfl⟩
  · exact hjudged
  · intro verdict hmem
    rcases List.mem_append.1 hmem with hmem | hmem
    · exact hjudged verdict hmem
    · rw [List.mem_singleton.1 hmem]
      rcases hstop.kind_eq with hkind | hkind <;> simp [hkind]

theorem classify_ne_nil (hs : s.checkpoints ≠ []) {verdicts : List Verdict}
    (h : c.classify s t = .ok verdicts) : verdicts ≠ [] := by
  obtain ⟨readings, pending, rest, hprogress, hcases⟩ := c.classify_eq_ok s t h
  rcases hcases with ⟨rfl, rfl⟩ | ⟨_, _, last, -, -, rfl⟩
  · rintro hnil
    exact hs (by simpa [List.map_eq_nil_iff.1 hnil] using hprogress.checkpoints_eq)
  · simp

/-- The classification accepts exactly the transcripts of the grammar. Chatter does not count, and
the verdict of a reading depends on nothing but the reading. -/
theorem classify_follows_grammar (hs : s.IsValid) :
    (∃ readings pending rest,
      IsProgress s.checkpoints t.scriptEvents readings pending rest) ∧
    (∀ readings pending rest, IsProgress s.checkpoints t.scriptEvents readings pending rest →
      (pending = [] → IsFinished rest →
        c.classify s t = .ok (readings.map (c.judgeReading s))) ∧
      (pending = [] → ¬IsFinished rest →
        ∃ actual, c.classify s t = .error (.outOfOrder s.id "DONE" actual)) ∧
      ∀ checkpoint later, pending = checkpoint :: later →
        (∀ verdict, StopsAt c t checkpoint rest verdict →
          c.classify s t = .ok (readings.map (c.judgeReading s) ++ [verdict])) ∧
        ((∀ verdict, ¬StopsAt c t checkpoint rest verdict) →
          ∃ actual, c.classify s t = .error (.outOfOrder s.id checkpoint.name actual))) ∧
    (∀ checkpoint message,
      (c.missing t checkpoint).checkpoint = checkpoint.name ∧
      (c.missing t checkpoint).kind = (if t.ending = .timedOut then .timeout else .crashed) ∧
      (thrown checkpoint message).checkpoint = checkpoint.name ∧
      (thrown checkpoint message).kind = .crashed) ∧
    (∀ before after text, t.events = before ++ after →
      c.classify s { t with events := before ++ .chatter text :: after } = c.classify s t) ∧
    (∀ verdicts, c.classify s t = .ok verdicts →
      verdicts ≠ [] ∧
      verdicts.map (·.checkpoint) <+: s.checkpoints.map (·.name) ∧
      (∀ verdict ∈ verdicts.dropLast, verdict.kind ≠ .crashed ∧ verdict.kind ≠ .timeout) ∧
      ∀ verdict ∈ verdicts, verdict.kind ≠ .unstable) ∧
    ∀ checkpoint value raw raw', c.judge s checkpoint value raw' =
      { c.judge s checkpoint value raw with raw := some raw' } := by
  refine ⟨exists_isProgress _ _, ?_, ?_, ?_, ?_, c.judge_raw s⟩
  · intro readings pending rest hprogress
    rw [c.classify_of_isProgress s t hprogress]
    refine ⟨?_, ?_, ?_⟩
    · rintro rfl hfin
      rw [c.classifyFrom_finished s t hfin]
      simp [Except.map]
    · rintro rfl hfin
      obtain ⟨actual, herr⟩ := c.classifyFrom_unfinished s t hfin
      exact ⟨actual, by rw [herr]; rfl⟩
    · rintro checkpoint later rfl
      refine ⟨fun verdict hstop => ?_, fun hstop => ?_⟩
      · rw [c.classifyFrom_stopsAt s t hstop]; rfl
      · obtain ⟨actual, herr⟩ := c.classifyFrom_astray s t hprogress.isStuck hstop
        exact ⟨actual, by rw [herr]; rfl⟩
  · exact fun checkpoint message =>
      ⟨c.missing_checkpoint t checkpoint, c.missing_kind t checkpoint, rfl, rfl⟩
  · intro before after text hevents
    refine c.classify_congr s ?_ rfl rfl
    have hinsert := scriptEvents_insert_chatter before after text t.ending t.errors
    rwa [← hevents] at hinsert
  · exact fun verdicts h => ⟨c.classify_ne_nil s t hs.checkpoints_ne_nil h,
      c.classify_names s t h, c.classify_dropLast s t h, c.classify_ne_unstable s t h⟩

/-- A subject that prints chatter and dies on the way to the second result. -/
def diesBeforeSecondResult : Transcript :=
  { events := [.chatter "engine 1.0", .checkpoint "warm", .chatter "gc", .result (.ofNat 3) "3",
      .checkpoint "retype:hot"]
    ending := .exited none (some 11)
    errors := "" }

theorem classify_diesBeforeSecondResult :
    sumScenario.IsValid ∧
      (({} : Criteria).classify sumScenario diesBeforeSecondResult).map
          (fun verdicts => verdicts.map fun v => (v.checkpoint, v.kind)) =
        .ok [("warm", .pass), ("retype:hot", .crashed)] := by
  have hprogress : IsProgress sumScenario.checkpoints diesBeforeSecondResult.scriptEvents
      [⟨⟨"warm", 10, 0⟩, .ofNat 3, "3"⟩] [⟨"retype:hot", 100, 0⟩] [.checkpoint "retype:hot"] := by
    refine isProgress_of_isStuck ?_ [⟨⟨"warm", 10, 0⟩, .ofNat 3, "3"⟩]
    rintro _ _ value raw more ⟨⟩ hrest
    cases hrest
  have hgrammar := (({} : Criteria).classify_follows_grammar sumScenario diesBeforeSecondResult
    sumScenario_isValid).2.1 _ _ _ hprogress
  refine ⟨sumScenario_isValid, ?_⟩
  rw [(hgrammar.2.2 _ _ rfl).1 _ .reached]
  rfl

end Criteria
end TierCheck
