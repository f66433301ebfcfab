import TierCheck.Proofs.Event.RoundTrip
import TierCheck.Proofs.Text.Utf8

/-!
# Lines that are cut

A line of a script holds no character of a line end, so its bytes can be told from those around it.
Where its bytes are cut, they are read as a start of the line, with one replacement character
behind it if a character is cut. What is left of a result line cannot be taken for a result line,
because it has lost the quote that closes its payload.

* `Event.IsLine`: the lines that a script writes.
* `IsCutText`: the text of a line's first bytes.
* `Event.read_otherCheckpoint`, `Event.read_cutResult`: what is left of a line with its keyword.
-/
namespace TierCheck

/-- The event's line can be read back and holds no character of a line end. -/
structure Event.IsLine (e : Event) : Prop where
  canonical : e.IsCanonical
  oneLine : ∀ c ∈ e.line.toList, Event.isLineEnd c = false

theorem Event.IsLine.not_mem_encode {e : Event} (h : e.IsLine) :
    10 ∉ Utf8.encode e.line ∧ 13 ∉ Utf8.encode e.line := by
  constructor
  · refine Utf8.not_mem_encodeChars (by decide) fun c hc heq => ?_
    have hend := h.oneLine c hc
    obtain rfl : c = '\n' := Char.toNat_inj.1 heq
    cases hend
  · refine Utf8.not_mem_encodeChars (by decide) fun c hc heq => ?_
    have hend := h.oneLine c hc
    obtain rfl : c = '\r' := Char.toNat_inj.1 heq
    cases hend

/-! ## Lines of a script -/

namespace Event

theorem oneLine_of_all {s : List Char} (h : (s.all fun c => !isLineEnd c) = true) {c : Char}
    (hc : c ∈ s) : isLineEnd c = false := by
  have hnot := List.all_eq_true.1 h c hc
  rwa [Bool.not_eq_true'] at hnot

theorem escapeChar_oneLine {c x : Char} (h : x ∈ Json.escapeChar c) : isLineEnd x = false := by
  have hhex : ∀ n < 0x20, ((Json.hexPair n).all fun c => !isLineEnd c) = true := by decide
  unfold Json.escapeChar at h
  split at h
  · exact oneLine_of_all (by decide) h
  split at h
  · exact oneLine_of_all (by decide) h
  split at h
  · exact oneLine_of_all (by decide) h
  split at h
  · exact oneLine_of_all (by decide) h
  split at h
  · exact oneLine_of_all (by decide) h
  split at h
  · exact oneLine_of_all (by decide) h
  split at h
  · exact oneLine_of_all (by decide) h
  next hn hr _ =>
  split at h
  · next hcontrol =>
    rcases List.mem_append.1 h with h | h
    · exact oneLine_of_all (by decide) h
    · exact oneLine_of_all (hhex _ hcontrol) h
  · rw [List.mem_singleton.1 h]
    simp [isLineEnd, hn, hr]

theorem quoteChars_oneLine {s : List Char} {c : Char} (h : c ∈ Json.quoteChars s) :
    isLineEnd c = false := by
  rw [Json.quoteChars, List.cons_append, List.mem_cons, List.mem_append, List.mem_flatMap,
    List.mem_singleton] at h
  rcases h with rfl | ⟨c', -, hc⟩ | rfl
  · rfl
  · exact escapeChar_oneLine hc
  · rfl

theorem isLine_checkpoint {name : String} (h : isCheckpointName name = true) :
    (checkpoint name).IsLine := by
  refine ⟨isCanonical_checkpoint_of_valid h, fun c hc => ?_⟩
  rw [line_checkpoint, List.mem_append] at hc
  rcases hc with hc | hc
  · exact oneLine_of_all (by decide) hc
  · exact not_lineEnd_of_not_isBlank ((isCheckpointName_iff.1 h).2.1 c hc)

theorem isLine_result {v : Value} (h : v.IsSendable) : (result v v.text).IsLine := by
  refine ⟨isCanonical_result_of_sendable h, fun c hc => ?_⟩
  rw [line_result, List.mem_append, List.mem_append, List.mem_cons] at hc
  rcases hc with hc | hc | rfl | hc
  · exact oneLine_of_all (by decide) hc
  · exact (h.of_mem_kindName hc).1
  · rfl
  · exact quoteChars_oneLine hc

theorem isLine_done : done.IsLine := ⟨isCanonical_done, fun _ => oneLine_of_all (by decide)⟩

end Event

/-! ## The text of a cut line -/

/-- The text of a line's first bytes: its first characters, and a replacement behind them if a
character is cut. -/
structure IsCutText (line text : List Char) (before after tail : List Char) : Prop where
  line_eq : line = before ++ after
  text_eq : text = before ++ tail
  tail_eq : tail = [] ∨ tail = [Utf8.replacement] ∧ after ≠ []

theorem exists_isCutText {line : String} {part : List UInt8} (h : part <+: Utf8.encode line) :
    ∃ before after tail, IsCutText line.toList (Utf8.decode part).toList before after tail := by
  obtain ⟨before, after, tail, hline, htext, htail⟩ := Utf8.decodeFrom_cut h
  exact ⟨before, after, tail, hline, by rw [Utf8.decode, String.toList_ofList, htext], htail⟩

namespace IsCutText

variable {line text before after tail : List Char}

theorem mem_tail (h : IsCutText line text before after tail) {c : Char} (hc : c ∈ tail) :
    c = Utf8.replacement := by
  rcases h.tail_eq with rfl | ⟨rfl, -⟩
  · cases hc
  · exact List.mem_singleton.1 hc

theorem oneLine (h : IsCutText line text before after tail)
    (hline : ∀ c ∈ line, Event.isLineEnd c = false) : ∀ c ∈ text, Event.isLineEnd c = false := by
  intro c hc
  rw [h.text_eq, List.mem_append] at hc
  rcases hc with hc | hc
  · exact hline c (h.line_eq ▸ List.mem_append_left _ hc)
  · rw [h.mem_tail hc]
    rfl

/-- The text has the line's first character, if it has one that is not a replacement. -/
theorem head_eq (h : IsCutText line text before after tail) {c : Char}
    (hc : text.head? = some c) : line.head? = some c ∨ c = Utf8.replacement := by
  rw [h.text_eq] at hc
  cases before with
  | nil => exact .inr (h.mem_tail (List.mem_of_head? hc))
  | cons d before => exact .inl (by rw [h.line_eq]; exact hc)

/-- A keyword at the start of the text starts with the line's first character. -/
theorem head_of_keyword (h : IsCutText line text before after tail) {keyword : List Char} {c : Char}
    (hkeyword : keyword <+: text) (hc : keyword.head? = some c) (hne : c ≠ Utf8.replacement) :
    line.head? = some c := by
  obtain ⟨more, rfl⟩ := hkeyword
  refine (h.head_eq ?_).resolve_right hne
  rw [List.head?_append, hc]
  rfl

/-- A text that starts with the keyword of its line has cut what follows the keyword. -/
theorem of_keyword {keyword rest more : List Char}
    (h : IsCutText (keyword ++ rest) (keyword ++ more) before after tail)
    (hkeyword : Utf8.replacement ∉ keyword) : ∃ before, IsCutText rest more before after tail := by
  rcases List.append_eq_append_iff.1 h.text_eq with ⟨between, rfl, rfl⟩ | ⟨between, rfl, htail⟩
  · refine ⟨between, ?_, rfl, h.tail_eq⟩
    have hline := h.line_eq
    rw [List.append_assoc] at hline
    exact List.append_cancel_left hline
  · cases between with
    | nil =>
      refine ⟨[], ?_, htail.symm, h.tail_eq⟩
      have hline := h.line_eq
      rw [List.append_nil] at hline
      exact List.append_cancel_left hline
    | cons c between =>
      have hc : c = Utf8.replacement := h.mem_tail (htail ▸ List.mem_cons_self)
      exact absurd (List.mem_append_right _ (hc ▸ List.mem_cons_self)) hkeyword

/-- A text that is not the line's has cut something. -/
theorem after_ne_nil (h : IsCutText line text before after tail) (hne : text ≠ line) :
    after ≠ [] := by
  rintro rfl
  rcases h.tail_eq with rfl | ⟨-, hnil⟩
  · exact hne (h.text_eq.trans h.line_eq.symm)
  · exact hnil rfl

/-- What is left of the rest of a result line is no rest of a result line. -/
theorem readResult_eq_error {kind raw : List Char}
    (h : IsCutText (kind ++ ':' :: Json.quoteChars raw) text before after tail)
    (hkind : ':' ∉ kind) (hne : text ≠ kind ++ ':' :: Json.quoteChars raw) :
    ∃ fault, Event.readResult text = .error fault := by
  have htail : ':' ∉ tail ∧ '"' ∉ tail := by
    constructor <;> exact fun hmem => absurd (h.mem_tail hmem) (by decide)
  rcases List.append_eq_append_iff.1 h.line_eq with ⟨between, rfl, hbetween⟩ | ⟨between, rfl, -⟩
  · cases between with
    | nil =>
      have hcolon : ':' ∉ text := by
        rw [h.text_eq, List.append_nil, List.mem_append, not_or]
        exact ⟨hkind, htail.1⟩
      rw [Event.readResult, splitOnce?_eq_none hcolon]
      exact ⟨_, rfl⟩
    | cons c between =>
      -- the payload is cut
      obtain ⟨rfl, hpayload⟩ := List.cons.inj hbetween
      have hcut := Json.readLiteral?_cut hpayload (h.after_ne_nil hne) htail.2
      rw [h.text_eq, Event.readResult, List.append_assoc, List.cons_append,
        splitOnce?_append hkind]
      simp only [Event.readPayload, hcut]
      exact ⟨_, rfl⟩
  · have hcolon : ':' ∉ text := by
      rw [h.text_eq, List.mem_append, not_or]
      exact ⟨fun hmem => hkind (List.mem_append_left _ hmem), htail.1⟩
    rw [Event.readResult, splitOnce?_eq_none hcolon]
    exact ⟨_, rfl⟩

end IsCutText

/-! ## What is left of a line with its keyword -/

namespace Event

variable {text : String}

/-- A text without line ends is its own content. -/
theorem read_of_oneLine (h : ∀ c ∈ text.toList, isLineEnd c = false) :
    Event.read text = (readContent text.toList).mapError fun fault => ⟨text, fault⟩ := by
  rw [read_eq, content_eq_toList fun c hc => h c (List.mem_of_getLast? hc), String.ofList_toList]

theorem read_otherCheckpoint (h : ∀ c ∈ text.toList, isLineEnd c = false) {name : String}
    (hne : text ≠ (checkpoint name).line) (hkeyword : "CHECKPOINT:".toList <+: text.toList) :
    (∃ fault, Event.read text = .error ⟨text, fault⟩) ∨
      ∃ other, other ≠ name ∧ Event.read text = .ok (.checkpoint other) := by
  have hread := read_of_oneLine h
  obtain ⟨more, hmore⟩ := hkeyword
  rw [← hmore, readContent_checkpoint, readCheckpoint] at hread
  by_cases hnil : more = []
  · left
    rw [if_pos hnil] at hread
    exact ⟨_, hread⟩
  · right
    rw [if_neg hnil] at hread
    refine ⟨_, fun heq => hne ?_, hread⟩
    have hname : name.toList = more := by rw [← heq, String.toList_ofList]
    rw [← String.toList_inj, line_checkpoint, ← hmore, hname]

theorem read_cutResult (h : ∀ c ∈ text.toList, isLineEnd c = false) {v : Value} {raw : String}
    {before after tail : List Char}
    (hcut : IsCutText (result v raw).line.toList text.toList before after tail)
    (hkind : ':' ∉ v.kindName.toList) (hne : text ≠ (result v raw).line)
    (hkeyword : "RESULT:".toList <+: text.toList) :
    ∃ fault, Event.read text = .error ⟨text, fault⟩ := by
  have hread := read_of_oneLine h
  obtain ⟨more, hmore⟩ := hkeyword
  rw [line_result, ← hmore] at hcut
  obtain ⟨_, hrest⟩ := hcut.of_keyword (by decide)
  have hdiffers : more ≠ v.kindName.toList ++ ':' :: Json.quoteChars raw.toList := by
    rintro rfl
    exact hne (by rw [← String.toList_inj, line_result, ← hmore])
  obtain ⟨fault, hfault⟩ := hrest.readResult_eq_error hkind hdiffers
  rw [← hmore, readContent_result, hfault] at hread
  exact ⟨fault, hread⟩

end Event
end TierCheck
