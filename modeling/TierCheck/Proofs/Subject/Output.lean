import TierCheck.Proofs.Event.CutLine
import TierCheck.Subject.Process

/-!
# Outputs that end anywhere

The output of a process that is stopped is a start of the lines it would have written, and it may
end anywhere, also inside a character. It is read as the lines before its end and one more line, of
which only the first bytes are there.

* `OutputCut`: the line at which an output ends, and what is there of it.
* `ProcessRun.lines_eq`: the lines of such an output.
* `ProcessRun.transcript_eq_ok`, `ProcessRun.transcript_eq_error`: what they are read as.
-/
namespace TierCheck

/-! ## The bytes of lines -/

/-- The bytes of events, one line each. -/
def lineBytes (events : List Event) : List UInt8 :=
  events.flatMap fun e => Utf8.encode e.line ++ [10]

theorem lineBytes_cons (e : Event) (events : List Event) :
    lineBytes (e :: events) = Utf8.encode e.line ++ [10] ++ lineBytes events := rfl

/-- The line at which an output ends: the events that are written before it, with their line feeds,
and the first bytes of its own. -/
structure OutputCut (events : List Event) (output : List UInt8) where
  written : List Event
  next : Event
  later : List Event
  part : List UInt8
  events_eq : events = written ++ next :: later
  output_eq : output = lineBytes written ++ part
  part_prefix : part <+: Utf8.encode next.line

/-- An output that is not complete ends at some line. -/
theorem exists_outputCut {events : List Event} {output : List UInt8}
    (h : output <+: lineBytes events) (hne : output ≠ lineBytes events) :
    Nonempty (OutputCut events output) := by
  induction events generalizing output with
  | nil => exact absurd (List.prefix_nil.1 h) hne
  | cons e events ih =>
    rw [lineBytes_cons] at h hne
    rcases prefix_append_cases h with ⟨hpart, hpartne⟩ | ⟨more, rfl, hmore⟩
    · have hline := (List.prefix_concat_iff.1 hpart).resolve_left hpartne
      exact ⟨⟨[], e, events, output, rfl, rfl, hline⟩⟩
    · obtain ⟨cut⟩ := ih hmore fun heq => hne (congrArg _ heq)
      refine ⟨⟨e :: cut.written, cut.next, cut.later, cut.part, ?_, ?_, cut.part_prefix⟩⟩
      · rw [List.cons_append, ← cut.events_eq]
      · rw [lineBytes_cons, List.append_assoc _ (lineBytes _), ← cut.output_eq]

namespace OutputCut

variable {events : List Event} {output : List UInt8} (cut : OutputCut events output)

/-- What is there of the last line, as text. -/
def text : String := Utf8.decode cut.part

theorem written_prefix : cut.written <+: events := ⟨cut.next :: cut.later, cut.events_eq.symm⟩

theorem next_mem : cut.next ∈ events :=
  (congrArg (cut.next ∈ ·) cut.events_eq).mpr (List.mem_append_right _ List.mem_cons_self)

theorem isCutText : ∃ before after tail,
    IsCutText cut.next.line.toList cut.text.toList before after tail :=
  exists_isCutText cut.part_prefix

theorem part_oneLine (h : cut.next.IsLine) : 10 ∉ cut.part ∧ 13 ∉ cut.part :=
  ⟨fun hmem => h.not_mem_encode.1 (cut.part_prefix.subset hmem),
    fun hmem => h.not_mem_encode.2 (cut.part_prefix.subset hmem)⟩

end OutputCut

/-! ## The lines of an output -/

theorem pieces_lineBytes {events : List Event} (h : ∀ e ∈ events, e.IsLine) {part : List UInt8}
    (hpart : 10 ∉ part) :
    pieces (fun b => decide (b = 10)) (lineBytes events ++ part) =
      events.map (fun e => Utf8.encode e.line) ++ [part] := by
  induction events with
  | nil => exact pieces_of_none fun x hx => decide_eq_false fun heq => hpart (heq ▸ hx)
  | cons e events ih =>
    have he : ∀ b ∈ Utf8.encode e.line, decide (b = 10) = false := fun b hb =>
      decide_eq_false fun heq => (h e List.mem_cons_self).not_mem_encode.1 (heq ▸ hb)
    rw [lineBytes_cons, List.append_assoc, List.append_assoc, List.singleton_append,
      pieces_append he rfl, ih fun e' he' => h e' (List.mem_cons_of_mem _ he')]
    rfl

namespace ProcessRun

theorem dropReturn_eq {line : List UInt8} (h : 13 ∉ line) :
    (if line.getLast? = some 13 then line.dropLast else line) = line := by
  rw [if_neg fun hlast => h (List.mem_of_getLast? hlast)]

/-- The lines of an output that ends inside or behind a line. -/
theorem lines_eq {events : List Event} (h : ∀ e ∈ events, e.IsLine) {part : List UInt8}
    (hpart : 10 ∉ part ∧ 13 ∉ part) (errors : List (List UInt8)) (code signal : Option Int) :
    lines ⟨lineBytes events ++ part, errors, .exited code signal⟩ =
      events.map (fun e => Utf8.encode e.line) ++ if part = [] then [] else [part] := by
  have hlast : (events.map (fun e => Utf8.encode e.line) ++ [part]).getLast?.getD [] = part := by
    simp
  unfold lines
  dsimp only
  rw [pieces_lineBytes h hpart.1, hlast, List.dropLast_concat]
  simp only [ProcessEnd.closesOutput, Bool.not_true, Bool.false_eq_true, false_or]
  refine (List.map_congr_left fun line hline => ?_).trans (List.map_id _)
  refine dropReturn_eq ?_
  rcases List.mem_append.1 hline with hline | hline
  · obtain ⟨e, he, rfl⟩ := List.mem_map.1 hline
    exact (h e he).not_mem_encode.2
  · split at hline
    · cases hline
    · rw [List.mem_singleton.1 hline]
      exact hpart.2

theorem mapM_read {events : List Event} (h : ∀ e ∈ events, e.IsLine) (rest : List (List UInt8)) :
    (events.map (fun e => Utf8.encode e.line) ++ rest).mapM
        (fun line => Event.read (Utf8.decode line)) =
      (rest.mapM fun line => Event.read (Utf8.decode line)).map (events ++ ·) := by
  induction events with
  | nil =>
    rw [List.map_nil, List.nil_append]
    cases rest.mapM fun line => Event.read (Utf8.decode line) <;> rfl
  | cons e events ih =>
    have he : Event.read (Utf8.decode (Utf8.encode e.line)) = .ok e := by
      rw [Utf8.decode_encode]
      exact (h e List.mem_cons_self).canonical.read_line
    rw [List.map_cons, List.cons_append, List.mapM_cons, he,
      ih fun e' he' => h e' (List.mem_cons_of_mem _ he')]
    cases rest.mapM fun line => Event.read (Utf8.decode line) <;> rfl

/-- The end of the error output that is kept, as text. -/
def errorText (errors : List (List UInt8)) : String := Utf8.decode (collectTail errorTail errors)

/-- What is left of a last line is one more event. -/
theorem transcript_eq_ok {events : List Event} {part output : List UInt8}
    (houtput : output = lineBytes events ++ part) (h : ∀ e ∈ events, e.IsLine)
    (hpart : 10 ∉ part ∧ 13 ∉ part) {e : Event} (hread : Event.read (Utf8.decode part) = .ok e)
    (errors : List (List UInt8)) (code signal : Option Int) :
    transcript ⟨output, errors, .exited code signal⟩ =
      .ok ⟨events ++ if part = [] then [] else [e], .exited code signal, errorText errors⟩ := by
  subst houtput
  have hevents : ProcessRun.events ⟨lineBytes events ++ part, errors, .exited code signal⟩ =
      .ok (events ++ if part = [] then [] else [e]) := by
    rw [ProcessRun.events, lines_eq h hpart, mapM_read h]
    by_cases hnil : part = []
    · rw [if_pos hnil, if_pos hnil]
      rfl
    · rw [if_neg hnil, if_neg hnil, List.mapM_cons, hread]
      rfl
  rw [transcript, hevents]
  rfl

/-- What is left of a last line is malformed. -/
theorem transcript_eq_error {events : List Event} {part output : List UInt8}
    (houtput : output = lineBytes events ++ part) (h : ∀ e ∈ events, e.IsLine)
    (hpart : 10 ∉ part ∧ 13 ∉ part) (hne : part ≠ []) {m : MalformedLine}
    (hread : Event.read (Utf8.decode part) = .error m) (errors : List (List UInt8))
    (code signal : Option Int) :
    transcript ⟨output, errors, .exited code signal⟩ = .error (.malformedLine m) := by
  subst houtput
  have hevents : ProcessRun.events ⟨lineBytes events ++ part, errors, .exited code signal⟩ =
      .error m := by
    rw [ProcessRun.events, lines_eq h hpart, mapM_read h, if_neg hne, List.mapM_cons, hread]
    rfl
  rw [transcript, hevents]
  rfl

end ProcessRun
end TierCheck
