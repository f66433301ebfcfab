import TierCheck.Proofs.CommandLine.Overrides
import TierCheck.Proofs.Event.RoundTrip

/-!
# The written form of a schedule

A schedule can be written as the list of its terms, each a name and a count, with commas between
them. What is read from a text can always be written, and the written form is read as the same
schedule. How the terms of a text are kept apart makes no difference. A text that is not read is
refused as a setting: it has no terms, or a term has no count, or the checkpoints are no schedule.

* `Checkpoint.IsWritable`: what can be said in a term.
* `Schedule.text`: the written form.
* `Schedule.readTerm_term`, `Schedule.isWritable_of_readTerm`: reading undoes writing, and gives
  nothing else.
* `Schedule.terms_text`: the terms of the written form.
* `Schedule.IsFaultOf`: what can be wrong with a text.
* `SameTerms`: texts that differ in their separators alone.
* `Schedule.read_normalForm`: the result.
-/
namespace TierCheck

/-! ## Terms -/

theorem isListSeparator_of_isDigit {c : Char} (h : c.isDigit = true) :
    isListSeparator c = false := by
  refine isListSeparator_eq_false_iff.2 ⟨?_, ?_, isBlank_of_isDigit h⟩
  · rintro rfl
    cases h
  · rintro rfl
    cases h

/-- A checkpoint that can be said in a term: it needs no argument set but the first, its count has
64 bits, and its name has no character that parts terms or ends a name. -/
structure Checkpoint.IsWritable (checkpoint : Checkpoint) : Prop where
  argumentSet_eq : checkpoint.argumentSet = 0
  lt_limit : checkpoint.iterations < wordLimit 64
  plain : ∀ c ∈ checkpoint.name.toList, c ≠ ',' ∧ c ≠ ';' ∧ c ≠ '='

namespace Schedule

def term (checkpoint : Checkpoint) : String :=
  checkpoint.name ++ "=" ++ naturalText checkpoint.iterations

theorem toList_term (checkpoint : Checkpoint) :
    (term checkpoint).toList =
      checkpoint.name.toList ++ '=' :: Nat.toDigits 10 checkpoint.iterations := by
  simp [term, naturalText, String.toList_append]

theorem readGrouped?_toDigits {n : Nat} (h : n < wordLimit 64) :
    readGrouped? (Nat.toDigits 10 n) = some n := by
  have hdigits : (Nat.toDigits 10 n).filter (· ≠ '_') = Nat.toDigits 10 n := by
    rw [List.filter_eq_self]
    intro c hc
    have hdigit := isDigit_of_mem_toDigits hc
    rw [decide_eq_true_iff]
    rintro rfl
    cases hdigit
  have hread := readNatural?_naturalText h
  rw [naturalText, String.toList_ofList] at hread
  rw [readGrouped?, hdigits, hread]

/-- The term of a checkpoint with a name is read as that checkpoint. -/
theorem readTerm_term {checkpoint : Checkpoint} (h : checkpoint.IsWritable)
    (hname : checkpoint.name ≠ "") (text : String) :
    readTerm text (term checkpoint) = .ok checkpoint := by
  have hequals : '=' ∉ checkpoint.name.toList := fun hmem => (h.plain _ hmem).2.2 rfl
  have hnil : checkpoint.name.toList ≠ [] := by simpa using hname
  unfold readTerm
  rw [toList_term, splitOnce?_append hequals]
  simp only [Option.getD_some, readGrouped?_toDigits h.lt_limit, if_neg hnil, String.ofList_toList]
  rw [← h.argumentSet_eq]

/-- A checkpoint that is read from a term can be written. -/
theorem isWritable_of_readTerm {text word : String} {checkpoint : Checkpoint}
    (hword : ∀ c ∈ word.toList, isListSeparator c = false)
    (h : readTerm text word = .ok checkpoint) : checkpoint.IsWritable := by
  obtain ⟨name, count, hcut, hname⟩ : ∃ name count,
      (splitOnce? '=' word.toList).getD ([], word.toList) = (name, count) ∧
        ∀ c ∈ name, c ≠ ',' ∧ c ≠ ';' ∧ c ≠ '=' := by
    cases hcut : splitOnce? '=' word.toList with
    | none => exact ⟨_, _, rfl, fun c hc => absurd hc List.not_mem_nil⟩
    | some cut =>
      obtain ⟨name, count⟩ := cut
      obtain ⟨hsplit, hequals⟩ := splitOnce?_eq_some_iff.1 hcut
      refine ⟨name, count, rfl, fun c hc => ?_⟩
      have hplain := isListSeparator_eq_false_iff.1
        (hword c (hsplit ▸ List.mem_append_left _ hc))
      exact ⟨hplain.1, hplain.2.1, fun heq => hequals (heq ▸ hc)⟩
  unfold readTerm at h
  rw [hcut] at h
  dsimp only at h
  cases hcount : readGrouped? count with
  | none =>
    rw [hcount] at h
    cases h
  | some n =>
    rw [hcount] at h
    cases h
    refine ⟨rfl, lt_of_readNatural? hcount, ?_⟩
    dsimp only
    split
    · intro c hc
      simp only [naturalText, String.toList_append, String.toList_ofList, List.mem_append] at hc
      rcases hc with hc | hc
      · have hplain : "cp".toList.all (fun c => c ≠ ',' ∧ c ≠ ';' ∧ c ≠ '=') = true := by
          decide
        simpa using List.all_eq_true.1 hplain c hc
      · have hdigit := isDigit_of_mem_toDigits hc
        refine ⟨?_, ?_, ?_⟩ <;> rintro rfl <;> cases hdigit
    · rwa [String.toList_ofList]

/-! ## Schedules -/

def text (s : Schedule) : String := ",".intercalate (s.checkpoints.map term)

theorem terms_text {s : Schedule} (hs : IsSchedule s.checkpoints)
    (h : ∀ checkpoint ∈ s.checkpoints, checkpoint.IsWritable) :
    terms isListSeparator s.text = s.checkpoints.map term := by
  refine terms_intercalate (by decide) (List.all_eq_true.1 (by decide)) (List.forall_mem_map.2 ?_)
  intro checkpoint hmem
  have hblank := (Event.isCheckpointName_iff.1 (hs.named checkpoint hmem)).2.1
  rw [toList_term]
  refine ⟨by simp, fun c hc => ?_⟩
  rcases List.mem_append.1 hc with hc | hc
  · have hplain := (h checkpoint hmem).plain c hc
    exact isListSeparator_eq_false_iff.2 ⟨hplain.1, hplain.2.1, hblank c hc⟩
  · rcases List.mem_cons.1 hc with rfl | hc
    · rfl
    · exact isListSeparator_of_isDigit (isDigit_of_mem_toDigits hc)

/-- A schedule that can be written is read from its written form. -/
theorem read_text {s : Schedule} (hs : IsSchedule s.checkpoints)
    (h : ∀ checkpoint ∈ s.checkpoints, checkpoint.IsWritable) : read s.text = .ok s := by
  refine holdsSchedule_iff.2 ⟨?_, hs⟩
  rw [terms_text hs h, List.forall₂_map_left_iff, List.forall₂_same]
  intro checkpoint hmem
  have hname := (Event.isCheckpointName_iff.1 (hs.named checkpoint hmem)).1
  exact readTerm_term (h checkpoint hmem) hname s.text

/-- What is read from a text is a schedule that can be written. -/
theorem isWritable_of_read {text : String} {s : Schedule} (h : read text = .ok s) :
    IsSchedule s.checkpoints ∧ ∀ checkpoint ∈ s.checkpoints, checkpoint.IsWritable := by
  obtain ⟨hterms, hs⟩ := holdsSchedule_iff.1 h
  refine ⟨hs, fun checkpoint hmem => ?_⟩
  obtain ⟨word, hword, hread⟩ := exists_of_mem_forall₂ hterms hmem
  refine isWritable_of_readTerm (fun c hc => ?_) hread
  rw [terms_eq] at hword
  obtain ⟨w, hw, rfl⟩ := List.mem_map.1 hword
  rw [String.toList_ofList] at hc
  exact plain_of_mem_words hw c hc

/-! ## Faults -/

inductive IsFaultOf (text : String) : ScheduleFault → Prop
  | noTerms : (∀ c ∈ text.toList, isListSeparator c = true) → IsFaultOf text (.noTerms text)
  | invalidCount {word count : String} : word ∈ terms isListSeparator text →
    count.toList <:+ word.toList → readGrouped? count.toList = none →
    IsFaultOf text (.invalidCount count text)
  | checkpoints {checkpoints : List Checkpoint} {fault : CheckpointFault} :
    List.Forall₂ (fun word checkpoint => readTerm text word = .ok checkpoint)
      (terms isListSeparator text) checkpoints →
    checkpointFault? checkpoints = some fault → IsFaultOf text (.checkpoints fault)

theorem readTerm_eq_error {text word : String} {fault : ScheduleFault}
    (h : readTerm text word = .error fault) :
    ∃ count : String, count.toList <:+ word.toList ∧ readGrouped? count.toList = none ∧
      fault = .invalidCount count text := by
  obtain ⟨name, count, hcut, hsuffix⟩ : ∃ name count,
      (splitOnce? '=' word.toList).getD ([], word.toList) = (name, count) ∧
        count <:+ word.toList := by
    cases hcut : splitOnce? '=' word.toList with
    | none => exact ⟨_, _, rfl, List.suffix_rfl⟩
    | some cut =>
      obtain ⟨name, count⟩ := cut
      obtain ⟨hsplit, -⟩ := splitOnce?_eq_some_iff.1 hcut
      exact ⟨name, count, rfl, ⟨name ++ ['='], by simp [hsplit]⟩⟩
  unfold readTerm at h
  rw [hcut] at h
  dsimp only at h
  cases hcount : readGrouped? count with
  | none =>
    rw [hcount] at h
    cases h
    exact ⟨String.ofList count, by rwa [String.toList_ofList], by rwa [String.toList_ofList], rfl⟩
  | some n =>
    rw [hcount] at h
    cases h

theorem isFaultOf_of_read {text : String} {fault : ScheduleFault}
    (h : read text = .error fault) : IsFaultOf text fault := by
  rcases bind_eq_error_iff.1 h with h | ⟨checkpoints, hterms, h⟩
  · obtain ⟨word, hword, hread⟩ := exists_of_mapM_eq_error h
    obtain ⟨count, hsuffix, hcount, rfl⟩ := readTerm_eq_error hread
    exact .invalidCount hword hsuffix hcount
  · have hforall := mapM_eq_ok_iff.1 hterms
    split at h
    · next hnil =>
      cases h
      subst hnil
      refine .noTerms (words_eq_nil_iff.1 ?_)
      simpa [terms_eq] using List.forall₂_nil_right_iff.1 hforall
    · unfold ofCheckpoints at h
      split at h
      · next fault hfault =>
        cases h
        exact .checkpoints hforall hfault
      · cases h

end Schedule

/-! ## Texts with other separators -/

/-- The texts differ by changes of separators and their reversals. -/
def SameTerms (a b : String) : Prop :=
  Relation.EqvGen (Respaced isListSeparator) a.toList b.toList

theorem SameTerms.terms_eq {a b : String} (h : SameTerms a b) :
    terms isListSeparator a = terms isListSeparator b := by
  have hwords := congrArg (Quot.lift (words isListSeparator) fun _ _ => words_of_respaced)
    (Quot.eqvGen_sound h)
  exact congrArg (List.map String.ofList) hwords

namespace Schedule

theorem read_eq_ok_iff_of_terms {a b : String}
    (h : terms isListSeparator a = terms isListSeparator b) {s : Schedule} :
    read a = .ok s ↔ read b = .ok s := by
  refine holdsSchedule_iff.trans (Iff.trans ?_ holdsSchedule_iff.symm)
  simp only [h, readTerm_eq_ok_iff a b]

/-- **The written form of a schedule is its normal form.** A text that is not read is refused as a
setting. One that is read gives a schedule that can be written, and the written form is read as the
same schedule; so is that of any other schedule that can be written. Texts that differ in their
separators alone are read alike. -/
theorem read_normalForm (text : String) :
    (∀ failure, Settings.checked readSchedule text = .error failure →
      ∃ fault, failure = .invalidSetting (.schedule fault) ∧ IsFaultOf text fault) ∧
    (∀ s, read text = .ok s → IsSchedule s.checkpoints ∧
      (∀ checkpoint ∈ s.checkpoints, checkpoint.IsWritable) ∧ read s.text = .ok s) ∧
    (∀ checkpoints s, ofCheckpoints checkpoints = .ok s →
      (∀ checkpoint ∈ checkpoints, checkpoint.IsWritable) →
      s.checkpoints = checkpoints ∧ read s.text = .ok s) ∧
    ∀ other, SameTerms text other → ∀ s, read other = .ok s ↔ read text = .ok s := by
  refine ⟨fun failure h => ?_, fun s h => ?_, fun checkpoints s h hwritable => ?_, ?_⟩
  · obtain ⟨setting, hsetting, rfl⟩ := mapError_eq_error_iff.1 h
    obtain ⟨fault, hfault, rfl⟩ := mapError_eq_error_iff.1 hsetting
    exact ⟨fault, rfl, isFaultOf_of_read hfault⟩
  · obtain ⟨hs, hwritable⟩ := isWritable_of_read h
    exact ⟨hs, hwritable, read_text hs hwritable⟩
  · obtain ⟨rfl, hs⟩ := ofCheckpoints_eq_ok_iff.1 h
    exact ⟨rfl, read_text hs hwritable⟩
  · intro other hsame s
    exact read_eq_ok_iff_of_terms hsame.terms_eq.symm

/-- Counts with underscores and a plus sign, one of them without a name, between separators of all
kinds. A blank in front makes no difference. -/
theorem read_normalForm_grouped :
    let text := "warm=1_0;+20 ,,full=1_000"
    let s : Schedule := ⟨[⟨"warm", 10, 0⟩, ⟨"cp20", 20, 0⟩, ⟨"full", 1000, 0⟩]⟩
    read text = .ok s ∧ s.text = "warm=10,cp20=20,full=1000" ∧ read s.text = .ok s ∧
      SameTerms text (" " ++ text) ∧ read (" " ++ text) = .ok s ∧
      IsFaultOf "warm=1_0 full=ten" (.invalidCount "ten" "warm=1_0 full=ten") := by
  intro text s
  have hread : read text = .ok s := by decide +kernel
  have hsame : SameTerms text (" " ++ text) := by
    rw [SameTerms, String.toList_append]
    exact .rel _ _ (.leading text.toList (by decide : isListSeparator ' ' = true))
  obtain ⟨-, hwritten, -, hspaced⟩ := read_normalForm text
  obtain ⟨hfault, -⟩ := read_normalForm "warm=1_0 full=ten"
  obtain ⟨fault, hcause, hfault⟩ :=
    hfault (.invalidSetting (.schedule (.invalidCount "ten" "warm=1_0 full=ten"))) (by rfl)
  cases hcause
  exact ⟨hread, by rfl, (hwritten s hread).2.2, hsame, (hspaced _ hsame s).2 hread, hfault⟩

end Schedule

end TierCheck
