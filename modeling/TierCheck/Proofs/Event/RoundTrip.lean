import TierCheck.Proofs.Json.Literal
import TierCheck.Proofs.Lists
import TierCheck.Proofs.Number.Shortest
import TierCheck.Proofs.Text.Cutting
import TierCheck.Schedule
import TierCheck.Subject.Mimic

/-!
# Report lines read back

An event that a script can send is read back from its line. Conversely the event that is read of
any line has a line of its own, the canonical one, and that is read as the same event, although
many other lines are read as this event too: with blanks around numbers, with other escapes in a
literal, with numerals that are rounded.

* `Value.read_text`: a value that can be sent is read from its kind and its text.
* `Event.IsCanonical`, `Event.read_line`: which lines are read as what they were written for.
* `Event.canonical_of_read`: what is read of a line has a canonical line.
* `Event.line_roundTrip`: the results for lines of all kinds.
-/
namespace TierCheck

def Event.isLineEnd (c : Char) : Bool := c = '\r' || c = '\n'

/-! ## Values -/

/-- A value that a script can report: every value but the constructor of an array, where a value of
any other kind is a symbol or a big integer. -/
def Value.IsSendable : Value → Prop
  | arrayType _ => False
  | other kind _ => kind = "symbol" ∨ kind = "bigint"
  | _ => True

def Value.sendableKinds : List String :=
  ["undefined", "null", "boolean", "number", "string", "object", "function", "symbol", "bigint"]

theorem Value.IsSendable.kindName_mem {v : Value} (h : v.IsSendable) :
    v.kindName ∈ sendableKinds := by
  cases v with
  | arrayType e => cases h
  | other kind text => rcases h with rfl | rfl <;> simp [sendableKinds, kindName]
  | _ => simp [sendableKinds, kindName]

theorem Value.IsSendable.of_mem_kindName {v : Value} (h : v.IsSendable) {c : Char}
    (hc : c ∈ v.kindName.toList) : Event.isLineEnd c = false ∧ c ≠ ':' := by
  have hall : ∀ kind ∈ sendableKinds,
      (kind.toList.all fun c => decide (Event.isLineEnd c = false ∧ c ≠ ':')) = true := by
    decide
  exact of_decide_eq_true (List.all_eq_true.1 (hall _ h.kindName_mem) c hc)

theorem Double.text_of_finite (negative : Bool) (o : Fin Format.binary64.overflow) :
    (Double.finite negative o).text.toList =
      (if negative then ['-'] else []) ++ (Double.shortest o.val).positional.toList := by
  cases negative <;> simp [Double.text]

/-- The text of a finite number holds digits, at most a point, and a sign in front. -/
theorem Double.mem_text {negative : Bool} {o : Fin Format.binary64.overflow} {c : Char}
    (h : c ∈ (Double.finite negative o).text.toList) : c.isDigit = true ∨ c = '.' ∨ c = '-' := by
  rw [Double.text_of_finite, List.mem_append] at h
  rcases h with h | h
  · split at h
    · exact .inr (.inr (List.mem_singleton.1 h))
    · cases h
  · rcases (Decimal.positional_isNumeral _).2 c h with hdigit | hpoint
    · exact .inl hdigit
    · exact .inr (.inl hpoint)

theorem Double.not_isBlank_of_mem_text {negative : Bool} {o : Fin Format.binary64.overflow}
    {c : Char} (h : c ∈ (Double.finite negative o).text.toList) : isBlank c = false := by
  rcases Double.mem_text h with hdigit | rfl | rfl
  · exact isBlank_of_isDigit hdigit
  · decide
  · decide

theorem Double.trim_text (negative : Bool) (o : Fin Format.binary64.overflow) :
    trim (Double.finite negative o).text = (Double.finite negative o).text :=
  trim_eq_self fun _ => Double.not_isBlank_of_mem_text

/-- The text of a finite number is not the name of a special value. -/
theorem Double.text_ne_of_letter {negative : Bool} {o : Fin Format.binary64.overflow}
    {name : String} {c : Char} (hmem : c ∈ name.toList)
    (hc : ¬(c.isDigit = true ∨ c = '.' ∨ c = '-')) : (Double.finite negative o).text ≠ name := by
  rintro rfl
  exact hc (Double.mem_text hmem)

/-- Every number is read from its text, bit by bit. -/
theorem readNumber?_text (d : Double) : readNumber? d.text = some d := by
  cases d with
  | nan => decide +kernel
  | infinite negative => cases negative <;> decide +kernel
  | finite negative o =>
    unfold readNumber?
    dsimp only
    rw [Double.trim_text, if_neg, if_neg, if_neg, Double.read?_text]
    · rfl
    · exact Double.text_ne_of_letter (c := 'I') (by decide) (by decide)
    · exact Double.text_ne_of_letter (c := 'I') (by decide) (by decide)
    · exact Double.text_ne_of_letter (c := 'N') (by decide) (by decide)

theorem Value.read_number_eq_ok_iff {text : String} {v : Value} :
    Value.read "number" text = .ok v ↔ ∃ n, v = .number n ∧ readNumber? text = some n := by
  simp only [Value.read]
  split
  · next n hn => simp [hn, eq_comm]
  · next hn => simp [hn]

/-- A value that can be sent is read from its kind and its text. -/
theorem Value.read_text {v : Value} (h : v.IsSendable) : Value.read v.kindName v.text = .ok v := by
  cases v with
  | boolean b => cases b <;> rfl
  | number n =>
    simp only [kindName, text, Value.read, readNumber?_text]
  | arrayType e => cases h
  | other kind text => rcases h with rfl | rfl <;> rfl
  | _ => rfl

/-- What is read of a kind and a text has that kind. -/
theorem Value.kindName_of_read {kind text : String} {v : Value}
    (h : Value.read kind text = .ok v) : v.kindName = kind := by
  unfold Value.read at h
  split at h
  · cases h; rfl
  · cases h; rfl
  · split at h
    · cases h; rfl
    · split at h
      · cases h; rfl
      · cases h
  · split at h
    · cases h; rfl
    · cases h
  all_goals
    cases h
    try rfl

/-! ## The content of a line -/

namespace Event

theorem readContent_checkpoint (rest : List Char) :
    readContent ("CHECKPOINT:".toList ++ rest) = readCheckpoint rest := by
  rw [readContent, after?_append]

theorem readContent_result (rest : List Char) :
    readContent ("RESULT:".toList ++ rest) = readResult rest := by
  have hcheckpoint : after? "CHECKPOINT:" ("RESULT:".toList ++ rest) = none := rfl
  rw [readContent, hcheckpoint, after?_append]

theorem readContent_fault (rest : List Char) :
    readContent ("FAULT:".toList ++ rest) = readFault rest := by
  have hcheckpoint : after? "CHECKPOINT:" ("FAULT:".toList ++ rest) = none := rfl
  have hresult : after? "RESULT:" ("FAULT:".toList ++ rest) = none := rfl
  rw [readContent, hcheckpoint, hresult, after?_append]

theorem readContent_sample (rest : List Char) :
    readContent ("SAMPLE:".toList ++ rest) = readSample rest := by
  have hcheckpoint : after? "CHECKPOINT:" ("SAMPLE:".toList ++ rest) = none := rfl
  have hresult : after? "RESULT:" ("SAMPLE:".toList ++ rest) = none := rfl
  have hfault : after? "FAULT:" ("SAMPLE:".toList ++ rest) = none := rfl
  rw [readContent, hcheckpoint, hresult, hfault, after?_append]

/-- The content starts like none of the four kinds of lines that carry something. -/
def IsPlain (s : List Char) : Prop :=
  after? "CHECKPOINT:" s = none ∧ after? "RESULT:" s = none ∧ after? "FAULT:" s = none ∧
    after? "SAMPLE:" s = none

theorem readContent_plain {s : List Char} (h : IsPlain s) :
    readContent s = .ok (if s = "DONE".toList then done else chatter (String.ofList s)) := by
  obtain ⟨hcheckpoint, hresult, hfault, hsample⟩ := h
  rw [readContent, hcheckpoint, hresult, hfault, hsample]

/-- A line's content belongs to one of five kinds. -/
theorem content_cases (s : List Char) :
    (∃ rest, s = "CHECKPOINT:".toList ++ rest) ∨ (∃ rest, s = "RESULT:".toList ++ rest) ∨
      (∃ rest, s = "FAULT:".toList ++ rest) ∨ (∃ rest, s = "SAMPLE:".toList ++ rest) ∨
      IsPlain s := by
  unfold IsPlain
  cases hcheckpoint : after? "CHECKPOINT:" s with
  | some rest => exact .inl ⟨rest, after?_eq_some_iff.1 hcheckpoint⟩
  | none =>
    cases hresult : after? "RESULT:" s with
    | some rest => exact .inr (.inl ⟨rest, after?_eq_some_iff.1 hresult⟩)
    | none =>
      cases hfault : after? "FAULT:" s with
      | some rest => exact .inr (.inr (.inl ⟨rest, after?_eq_some_iff.1 hfault⟩))
      | none =>
        cases hsample : after? "SAMPLE:" s with
        | some rest => exact .inr (.inr (.inr (.inl ⟨rest, after?_eq_some_iff.1 hsample⟩)))
        | none => simp

/-! ## Canonical lines -/

/-- The content of a line is the line without the characters of its line end. -/
def content (text : String) : List Char := text.toList.rdropWhile isLineEnd

theorem read_eq (text : String) :
    read text = (readContent (content text)).mapError
      fun fault => ⟨String.ofList (content text), fault⟩ := rfl

theorem content_eq_toList {text : String}
    (h : ∀ c, text.toList.getLast? = some c → isLineEnd c = false) :
    content text = text.toList := by
  rw [content, List.rdropWhile_eq_self_iff]
  intro hne
  simpa using h _ (List.getLast?_eq_some_getLast hne)

theorem content_not_lineEnd (text : String) {c : Char}
    (h : (content text).getLast? = some c) : isLineEnd c = false := by
  have hne : content text ≠ [] := by
    intro hnil
    rw [hnil] at h
    cases h
  have hlast := List.rdropWhile_last_not isLineEnd text.toList hne
  rw [List.getLast?_eq_some_getLast hne] at h
  rw [← Option.some.inj h]
  exact Bool.eq_false_of_not_eq_true hlast

/-- The event's line is read as the event. -/
structure IsCanonical (e : Event) : Prop where
  content_eq : readContent e.line.toList = .ok e
  not_lineEnd : ∀ c, e.line.toList.getLast? = some c → isLineEnd c = false

theorem IsCanonical.read_line {e : Event} (h : e.IsCanonical) : read e.line = .ok e := by
  rw [read_eq, content_eq_toList h.not_lineEnd, h.content_eq]
  rfl

theorem line_checkpoint (name : String) :
    (checkpoint name).line.toList = "CHECKPOINT:".toList ++ name.toList := by
  simp [line]

theorem line_result (v : Value) (raw : String) :
    (result v raw).line.toList =
      "RESULT:".toList ++ (v.kindName.toList ++ ':' :: Json.quoteChars raw.toList) := by
  simp [line, Json.quote]

theorem line_fault (name message : String) :
    (fault name message).line.toList =
      "FAULT:".toList ++ (name.toList ++ ':' :: Json.quoteChars message.toList) := by
  simp [line, Json.quote]

theorem line_sample (iterations : Nat) (elapsed : Double) :
    (sample iterations elapsed).line.toList =
      "SAMPLE:".toList ++ ((naturalText iterations).toList ++ ':' :: elapsed.text.toList) := by
  simp [line]

theorem not_lineEnd_of_not_isBlank {c : Char} (h : isBlank c = false) : isLineEnd c = false := by
  have hne : c ≠ '\r' ∧ c ≠ '\n' := by
    constructor <;> rintro rfl <;> exact absurd h (by decide)
  simp [isLineEnd, hne]

/-- The end of a text is that of its last part. -/
theorem not_lineEnd_append {a b : List Char} (hne : b ≠ [])
    (h : ∀ c, b.getLast? = some c → isLineEnd c = false) :
    ∀ c, (a ++ b).getLast? = some c → isLineEnd c = false := by
  intro c hc
  rw [List.getLast?_append_of_ne_nil a hne] at hc
  exact h c hc

theorem not_lineEnd_quoteChars (a s : List Char) :
    ∀ c, (a ++ ':' :: Json.quoteChars s).getLast? = some c → isLineEnd c = false := by
  intro c hc
  rw [Json.quoteChars, ← List.singleton_append, ← List.append_assoc, ← List.append_assoc,
    List.getLast?_concat] at hc
  rw [← Option.some.inj hc]
  rfl

theorem isCanonical_checkpoint {name : String} (hne : name ≠ "")
    (hlast : ∀ c, name.toList.getLast? = some c → isLineEnd c = false) :
    (checkpoint name).IsCanonical := by
  have hne' : name.toList ≠ [] := by simpa using hne
  constructor
  · rw [line_checkpoint, readContent_checkpoint, readCheckpoint, if_neg hne', String.ofList_toList]
  · rw [line_checkpoint]
    exact not_lineEnd_append hne' hlast

theorem isCanonical_result {v : Value} {raw : String} (hkind : ':' ∉ v.kindName.toList)
    (hread : Value.read v.kindName raw = .ok v) : (result v raw).IsCanonical := by
  constructor
  · rw [line_result, readContent_result, readResult, splitOnce?_append hkind]
    simp only [readPayload, Json.readLiteral?_quoteChars, String.ofList_toList]
    exact congrArg (· >>= fun v => pure (result v raw)) hread
  · rw [line_result, ← List.append_assoc]
    exact not_lineEnd_quoteChars _ _

theorem isCanonical_fault {name message : String} (hne : name ≠ "")
    (hcut : ∀ other, splitFault? (name.toList ++ ':' :: '"' :: other) =
      some (name.toList, '"' :: other)) : (fault name message).IsCanonical := by
  obtain ⟨c, rest, hname⟩ := List.exists_cons_of_ne_nil (show name.toList ≠ [] by simpa using hne)
  constructor
  · have hquote : Json.quoteChars message.toList =
        '"' :: (message.toList.flatMap Json.escapeChar ++ ['"']) := rfl
    rw [line_fault, readContent_fault, readFault, hquote, hcut, hname, ← hquote]
    simp only [readPayload, Json.readLiteral?_quoteChars, String.ofList_toList, ← hname]
    rfl
  · rw [line_fault, ← List.append_assoc]
    exact not_lineEnd_quoteChars _ _

theorem isCanonical_sample {n : Nat} {negative : Bool} {o : Fin Format.binary64.overflow}
    (hn : n < wordLimit 64) (hsign : Double.zero ≤ Double.finite negative o) :
    (sample n (.finite negative o)).IsCanonical := by
  have hdigits : ∀ c ∈ (naturalText n).toList, c.isDigit = true := by
    intro c hc
    rw [naturalText, String.toList_ofList] at hc
    exact isDigit_of_mem_toDigits hc
  have hcolon : ':' ∉ (naturalText n).toList := fun hmem => absurd (hdigits _ hmem) (by decide)
  have htrim : trim (naturalText n) = naturalText n :=
    trim_eq_self fun c hc => isBlank_of_isDigit (hdigits c hc)
  constructor
  · rw [line_sample, readContent_sample, readSample, splitOnce?_append hcolon]
    simp only [String.ofList_toList, htrim, Double.trim_text, readNatural?_naturalText hn,
      Double.read?_text]
    rw [if_pos ⟨rfl, hsign⟩]
  · rw [line_sample, ← List.singleton_append, ← List.append_assoc, ← List.append_assoc]
    refine not_lineEnd_append ?_ fun c hc => ?_
    · obtain ⟨⟨c, rest, hpositional, -⟩, -⟩ :=
        Decimal.positional_isNumeral (Double.shortest o.val)
      rw [Double.text_of_finite, hpositional]
      simp
    · exact not_lineEnd_of_not_isBlank (Double.not_isBlank_of_mem_text (List.mem_of_getLast? hc))

theorem isCanonical_done : done.IsCanonical := by
  refine ⟨by rfl, fun c hc => ?_⟩
  obtain rfl : 'E' = c := Option.some.inj hc
  rfl

theorem isCanonical_chatter {s : List Char} (hplain : IsPlain s) (hdone : s ≠ "DONE".toList)
    (hlast : ∀ c, s.getLast? = some c → isLineEnd c = false) :
    (chatter (String.ofList s)).IsCanonical := by
  have hline : (chatter (String.ofList s)).line.toList = s := String.toList_ofList
  constructor
  · rw [hline, readContent_plain hplain, if_neg hdone]
  · rw [hline]
    exact hlast

/-! ## What is read of a line -/

theorem readResult_eq_ok {rest : List Char} {e : Event} (h : readResult rest = .ok e) :
    ∃ v raw, e = result v raw ∧ ':' ∉ v.kindName.toList ∧ Value.read v.kindName raw = .ok v := by
  unfold readResult at h
  split at h
  · cases h
  · next kind payload hcut =>
    obtain ⟨-, hkind⟩ := splitOnce?_eq_some_iff.1 hcut
    obtain ⟨raw, -, hvalue⟩ := bind_eq_ok_iff.1 h
    obtain ⟨v, hv, heq⟩ := bind_eq_ok_iff.1 hvalue
    cases heq
    have hname := Value.kindName_of_read hv
    rw [← hname] at hv
    exact ⟨v, raw, rfl, by rwa [hname, String.toList_ofList], hv⟩

theorem readFault_eq_ok {rest : List Char} {e : Event} (h : readFault rest = .ok e) :
    ∃ name message, e = fault name message ∧ name ≠ "" ∧
      ∀ other, splitFault? (name.toList ++ ':' :: '"' :: other) =
        some (name.toList, '"' :: other) := by
  unfold readFault at h
  split at h
  · cases h
  · cases h
  · next name payload hne hcut =>
    obtain ⟨message, -, heq⟩ := bind_eq_ok_iff.1 h
    cases heq
    refine ⟨_, message, rfl, fun hempty => hne ?_, fun other => ?_⟩
    · simpa using hempty
    · rw [String.toList_ofList]
      exact (splitFault?_eq_some hcut).again other

theorem readSample_eq_ok {rest : List Char} {e : Event} (h : readSample rest = .ok e) :
    ∃ n negative o, e = sample n (.finite negative o) ∧ n < wordLimit 64 ∧
      Double.zero ≤ Double.finite negative o := by
  unfold readSample at h
  split at h
  · cases h
  · next iterations elapsed hcut =>
    split at h
    · cases h
    · next n hn =>
      split at h
      · cases h
      · next t ht =>
        split at h
        · next hrange =>
          obtain ⟨hfinite, hsign⟩ := hrange
          obtain rfl := Except.ok.inj h
          cases t with
          | nan => cases hfinite
          | infinite negative => cases hfinite
          | finite negative o => exact ⟨n, negative, o, rfl, lt_of_readNatural? hn, hsign⟩
        · cases h

/-- What is read of a line has a canonical line. -/
theorem canonical_of_read {text : String} {e : Event} (h : read text = .ok e) : e.IsCanonical := by
  have hlast : ∀ c, (content text).getLast? = some c → isLineEnd c = false :=
    fun c hc => content_not_lineEnd text hc
  have hcontent : readContent (content text) = .ok e := by
    rw [read_eq] at h
    cases hread : readContent (content text) with
    | error fault => rw [hread] at h; cases h
    | ok e' => rw [hread] at h; cases h; rfl
  rcases content_cases (content text) with
    ⟨rest, hs⟩ | ⟨rest, hs⟩ | ⟨rest, hs⟩ | ⟨rest, hs⟩ | hplain
  · rw [hs, readContent_checkpoint, readCheckpoint] at hcontent
    split at hcontent
    · cases hcontent
    · next hne =>
      cases hcontent
      refine isCanonical_checkpoint (by simpa using hne) fun c hc => hlast c ?_
      rw [String.toList_ofList] at hc
      rw [hs, List.getLast?_append_of_ne_nil _ hne, hc]
  · rw [hs, readContent_result] at hcontent
    obtain ⟨v, raw, rfl, hkind, hread⟩ := readResult_eq_ok hcontent
    exact isCanonical_result hkind hread
  · rw [hs, readContent_fault] at hcontent
    obtain ⟨name, message, rfl, hne, hcut⟩ := readFault_eq_ok hcontent
    exact isCanonical_fault hne hcut
  · rw [hs, readContent_sample] at hcontent
    obtain ⟨n, negative, o, rfl, hn, hsign⟩ := readSample_eq_ok hcontent
    exact isCanonical_sample hn hsign
  · rw [readContent_plain hplain] at hcontent
    cases hcontent
    split
    · exact isCanonical_done
    · next hdone => exact isCanonical_chatter hplain hdone hlast

/-! ## What a script sends -/

/-- The parts of a valid checkpoint name's definition. -/
theorem isCheckpointName_iff {name : String} :
    isCheckpointName name = true ↔
      name ≠ "" ∧ (∀ c ∈ name.toList, isBlank c = false) ∧ '"' ∉ name.toList := by
  simp [isCheckpointName, hasBlank, and_assoc]

theorem isCanonical_checkpoint_of_valid {name : String} (h : isCheckpointName name = true) :
    (checkpoint name).IsCanonical := by
  obtain ⟨hne, hblank, -⟩ := isCheckpointName_iff.1 h
  exact isCanonical_checkpoint hne fun c hc =>
    not_lineEnd_of_not_isBlank (hblank c (List.mem_of_getLast? hc))

theorem isCanonical_fault_of_valid {name : String} (h : isCheckpointName name = true)
    (message : String) : (fault name message).IsCanonical := by
  obtain ⟨hne, -, hquote⟩ := isCheckpointName_iff.1 h
  exact isCanonical_fault hne (splitFault?_of_not_mem hquote)

theorem isCanonical_result_of_sendable {v : Value} (h : v.IsSendable) :
    (result v v.text).IsCanonical :=
  isCanonical_result (fun hmem => (h.of_mem_kindName hmem).2 rfl) (Value.read_text h)

/-- A recording of one line fails only if the line is malformed. -/
theorem malformedLine_of_transcript {text : String} {failure : Failure} {ending : Ending}
    {errors : String} (h : Recording.transcript ⟨[text], ending, errors⟩ = .error failure) :
    ∃ fault, failure = .malformedLine ⟨String.ofList (content text), fault⟩ := by
  cases hread : readContent (content text) with
  | error fault =>
    have hline : read text = .error ⟨String.ofList (content text), fault⟩ := by
      rw [read_eq, hread]
      rfl
    simp only [Recording.transcript, List.mapM_cons, hline] at h
    exact ⟨fault, (Except.error.inj h).symm⟩
  | ok e =>
    have hline : read text = .ok e := by
      rw [read_eq, hread]
      rfl
    simp only [Recording.transcript, List.mapM_cons, List.mapM_nil, hline] at h
    cases h

/-- Lines and events correspond. What a script sends is read back: a valid checkpoint name, a fault
with any message, and a value that can be sent, with its text. What is read of any line is read
again from the event's own line. A line that is not read is malformed, and its failure quotes the
line without its line end. -/
theorem line_roundTrip :
    ((∀ name, isCheckpointName name = true →
        read ("CHECKPOINT:" ++ name) = .ok (checkpoint name)) ∧
      (∀ name message, isCheckpointName name = true →
        read ("FAULT:" ++ name ++ ":" ++ Json.quote message) = .ok (fault name message)) ∧
      ∀ v : Value, v.IsSendable →
        read ("RESULT:" ++ v.kindName ++ ":" ++ Json.quote v.text) = .ok (result v v.text)) ∧
    (∀ text e, read text = .ok e → read e.line = .ok e) ∧
    ∀ text failure ending errors,
      Recording.transcript ⟨[text], ending, errors⟩ = .error failure →
        ∃ fault, failure = .malformedLine ⟨String.ofList (content text), fault⟩ := by
  refine ⟨⟨fun name h => ?_, fun name message h => ?_, fun v h => ?_⟩, fun text e h => ?_, ?_⟩
  · exact (isCanonical_checkpoint_of_valid h).read_line
  · exact (isCanonical_fault_of_valid h message).read_line
  · exact (isCanonical_result_of_sendable h).read_line
  · exact (canonical_of_read h).read_line
  · intro text failure ending errors h
    exact malformedLine_of_transcript h

/-- A name that ends with colons, a message that holds the mark before a payload, negative zero, a
sample in another spelling, and a payload without quotes. -/
theorem line_roundTrip_colons :
    let name := "retype::hot::"
    let message := "no \":\" here\n"
    let minusZero := Value.number Double.negZero
    let seven := sample 7 (Double.ofNat 1000)
    let bare : Recording := ⟨["RESULT:number:28\r\n"], .clean, ""⟩
    (isCheckpointName name = true ∧ read ("CHECKPOINT:" ++ name) = .ok (checkpoint name) ∧
      read ("FAULT:" ++ name ++ ":" ++ Json.quote message) = .ok (fault name message)) ∧
    (minusZero.IsSendable ∧ read ("RESULT:number:" ++ Json.quote "-0") =
      .ok (result minusZero "-0")) ∧
    (read "SAMPLE: +7 :1e3\r\n" = .ok seven ∧ read seven.line = .ok seven) ∧
    (bare.transcript = .error (.malformedLine ⟨"RESULT:number:28", .payload⟩) ∧
      ∃ fault, Failure.malformedLine ⟨"RESULT:number:28", .payload⟩ =
        .malformedLine ⟨"RESULT:number:28", fault⟩) := by
  intro name message minusZero seven bare
  obtain ⟨⟨hcheckpoint, hfault, hresult⟩, hagain, hfailure⟩ := line_roundTrip
  have hname : isCheckpointName name = true := by decide +kernel
  have hseven : read "SAMPLE: +7 :1e3\r\n" = .ok seven := by decide +kernel
  have hbare : bare.transcript = .error (.malformedLine ⟨"RESULT:number:28", .payload⟩) := by rfl
  have hcontent : String.ofList (content "RESULT:number:28\r\n") = "RESULT:number:28" := by
    decide +kernel
  have hquoted := hfailure _ _ _ _ hbare
  rw [hcontent] at hquoted
  exact ⟨⟨hname, hcheckpoint name hname, hfault name message hname⟩,
    ⟨trivial, hresult minusZero trivial⟩, ⟨hseven, hagain _ _ hseven⟩, hbare, hquoted⟩

end Event
end TierCheck
