import TierCheck.Json.Basic
import TierCheck.Json.Reader
import TierCheck.Proofs.Json.Literal
import TierCheck.Proofs.Number.Digits

/-!
# Documents read back

A document that is written and read again is the same one, if its numbers are natural and its
literals have a text. The reader's bound on the depth of its calls is no obstacle, since two calls
are enough for each character.

* `IsPlain`: the documents that have a written form of their own.
* `scanNumber_naturalText`: a natural number is scanned up to what ends it.
* `ReadsBack`: what the reader makes of a written form with anything that can follow it.
  `readsBack_array` and `readsBack_record` put it together from the parts.
* `read?_pretty`: the written form read back.
-/
namespace TierCheck.Json

/-- A document of natural numbers and literals that have a text. -/
inductive IsPlain : Json → Prop
  | null : IsPlain .null
  | bool (b : Bool) : IsPlain (.bool b)
  | natural (n : Nat) : IsPlain (ofNatural n)
  | text (s : String) : IsPlain (ofText s)
  | array {items : List Json} : (∀ item ∈ items, IsPlain item) → IsPlain (.array items)
  | record {members : List (String × Json)} : (∀ member ∈ members, IsPlain member.2) →
    IsPlain (record members)

/-! ## White space -/

theorem skipSpace_skipSpace (s : List Char) : skipSpace (skipSpace s) = skipSpace s := by
  induction s with
  | nil => rfl
  | cons c s ih =>
    by_cases hc : isSpace c = true
    · simpa [skipSpace, hc] using ih
    · simp [skipSpace, hc]

theorem skipSpace_cons {c : Char} (h : isSpace c = false) (s : List Char) :
    skipSpace (c :: s) = c :: s := by
  simp [skipSpace, h]

theorem skipSpace_newLine (depth : Nat) (s : List Char) :
    skipSpace (newLine depth ++ s) = skipSpace s := by
  have hspaces : ∀ n, skipSpace (List.replicate n ' ' ++ s) = skipSpace s := by
    intro n
    induction n with
    | zero => rfl
    | succ n ih => exact ih
  exact hspaces (2 * depth)

/-- White space in front of a document does not count. -/
theorem readValue_skipSpace (depth : Nat) (s : List Char) :
    readValue depth (skipSpace s) = readValue depth s := by
  cases depth with
  | zero => simp only [readValue]
  | succ depth => simp only [readValue, skipSpace_skipSpace]

theorem readMembers_skipSpace (depth : Nat) (s : List Char) :
    readMembers depth (skipSpace s) = readMembers depth s := by
  cases depth with
  | zero => simp only [readMembers]
  | succ depth => simp only [readMembers, skipSpace_skipSpace]

/-! ## Numbers -/

theorem isDigit_of_charIsDigit {c : Char} (h : c.isDigit = true) : isDigit c = true := by
  simpa [isDigit, Char.isDigit, Char.le_def] using h

/-- What cannot go on with a number: a comma, a line feed, or nothing. -/
def EndsNumber (rest : List Char) : Prop :=
  rest = [] ∨ ∃ more, rest = ',' :: more ∨ rest = '\n' :: more

theorem EndsNumber.newLine (k : Nat) (rest : List Char) : EndsNumber (newLine k ++ rest) :=
  .inr ⟨_, .inr rfl⟩

theorem scanDigits_append {digits rest : List Char} (h : ∀ c ∈ digits, isDigit c = true)
    (hne : digits ≠ []) (hrest : EndsNumber rest) :
    scanDigits (digits ++ rest) = some (digits, rest) := by
  have htake : rest.takeWhile isDigit = [] ∧ rest.dropWhile isDigit = rest := by
    rcases hrest with rfl | ⟨more, rfl | rfl⟩ <;> exact ⟨rfl, rfl⟩
  unfold scanDigits
  rw [List.takeWhile_append_of_pos h, List.dropWhile_append_of_pos h, htake.1, htake.2,
    List.append_nil]
  exact if_neg hne

/-- Only zero is written with a zero in front. -/
theorem head_toDigits {n : Nat} (h : 0 < n) : (Nat.toDigits 10 n).head? ≠ some '0' := by
  induction n using Nat.strongRecOn with
  | ind n ih =>
    rcases Nat.lt_or_ge n 10 with hlt | hge
    · have hdigits : ∀ n < 10, 0 < n → (Nat.toDigits 10 n).head? ≠ some '0' := by decide
      exact hdigits n hlt h
    · have hquotient := ih (n / 10) (by omega) (by omega)
      rw [Nat.toDigits_of_base_le (by decide) hge, List.head?_append]
      cases hhead : (Nat.toDigits 10 (n / 10)).head? with
      | none => exact absurd (List.head?_eq_none_iff.1 hhead) Nat.toDigits_ne_nil
      | some c =>
        rw [hhead] at hquotient
        exact hquotient

theorem scanWhole_toDigits (n : Nat) {rest : List Char} (hrest : EndsNumber rest) :
    scanWhole (Nat.toDigits 10 n ++ rest) = some (Nat.toDigits 10 n, rest) := by
  rcases Nat.eq_zero_or_pos n with rfl | hpos
  · rw [Nat.toDigits_zero]
    rfl
  · have hhead := head_toDigits hpos
    have hscan := scanDigits_append
      (fun c hc => isDigit_of_charIsDigit (isDigit_of_mem_toDigits (n := n) hc))
      Nat.toDigits_ne_nil hrest
    cases hdigits : Nat.toDigits 10 n with
    | nil => exact absurd hdigits Nat.toDigits_ne_nil
    | cons c digits =>
      rw [hdigits] at hhead hscan
      have hc : c ≠ '0' := fun h => hhead (by rw [h]; rfl)
      rw [List.cons_append] at hscan ⊢
      rw [scanWhole]
      · exact hscan
      · intro more heq
        exact hc (List.cons.inj heq).1

/-- A natural number is scanned up to what ends it. -/
theorem scanNumber_naturalText (n : Nat) {rest : List Char} (hrest : EndsNumber rest) :
    scanNumber (Nat.toDigits 10 n ++ rest) = some (Nat.toDigits 10 n, rest) := by
  have hunsigned : scanUnsigned (Nat.toDigits 10 n ++ rest) = some (Nat.toDigits 10 n, rest) := by
    have hfraction : scanFraction rest = some ([], rest) := by
      rcases hrest with rfl | ⟨more, rfl | rfl⟩ <;> rfl
    have hexponent : scanExponent rest = some ([], rest) := by
      rcases hrest with rfl | ⟨more, rfl | rfl⟩ <;> rfl
    simp [scanUnsigned, scanWhole_toDigits n hrest, hfraction, hexponent]
  cases hdigits : Nat.toDigits 10 n with
  | nil => exact absurd hdigits Nat.toDigits_ne_nil
  | cons c digits =>
    have hdigit := isDigit_of_mem_toDigits (n := n) (hdigits ▸ List.mem_cons_self)
    rw [hdigits, List.cons_append] at hunsigned
    rw [List.cons_append, scanNumber]
    · exact hunsigned
    · rintro more heq
      rw [(List.cons.inj heq).1] at hdigit
      exact absurd hdigit (by decide)

/-! ## Brackets -/

theorem readItems_succ (depth : Nat) (s : List Char) :
    readItems (depth + 1) s = (readValue depth s).bind fun (item, rest) =>
      match skipSpace rest with
      | ',' :: rest => (readItems depth rest).map fun (items, rest) => (item :: items, rest)
      | ']' :: rest => some ([item], rest)
      | _ => none := rfl

theorem readItems_skipSpace (depth : Nat) (s : List Char) :
    readItems depth (skipSpace s) = readItems depth s := by
  cases depth with
  | zero => rfl
  | succ depth => rw [readItems_succ, readItems_succ, readValue_skipSpace]

theorem readItems_newLine (depth k : Nat) (s : List Char) :
    readItems depth (newLine k ++ s) = readItems depth s := by
  rw [← readItems_skipSpace, skipSpace_newLine, readItems_skipSpace]

theorem readMembers_newLine (depth k : Nat) (s : List Char) :
    readMembers depth (newLine k ++ s) = readMembers depth s := by
  rw [← readMembers_skipSpace, skipSpace_newLine, readMembers_skipSpace]

/-- The bracket that ends an array does not start an item. -/
theorem readItems_bracket {depth : Nat} {s rest : List Char} (h : skipSpace s = ']' :: rest) :
    readItems depth s = none := by
  have hvalue : ∀ depth, readValue depth (']' :: rest) = none := by
    intro depth
    cases depth <;> rfl
  cases depth with
  | zero => rfl
  | succ depth => rw [readItems_succ, ← readValue_skipSpace, h, hvalue, Option.bind_none]

theorem readMembers_brace {depth : Nat} {s rest : List Char} (h : skipSpace s = '\x7d' :: rest) :
    readMembers depth s = none := by
  cases depth <;> simp [readMembers, h]

theorem readValue_openBracket (depth : Nat) (s : List Char) :
    readValue (depth + 1) ('[' :: s) = match skipSpace s with
      | ']' :: rest => some (.array [], rest)
      | rest => (readItems depth rest).map fun (items, rest) => (.array items, rest) := rfl

theorem readValue_openBrace (depth : Nat) (s : List Char) :
    readValue (depth + 1) ('\x7b' :: s) = match skipSpace s with
      | '\x7d' :: rest => some (.object [], rest)
      | rest => (readMembers depth rest).map fun (members, rest) => (.object members, rest) := rfl

theorem readValue_array {depth : Nat} {s rest : List Char} {items : List Json}
    (h : readItems depth s = some (items, rest)) :
    readValue (depth + 1) ('[' :: s) = some (.array items, rest) := by
  have hitem : ∀ more, skipSpace s ≠ ']' :: more := by
    intro more hmore
    rw [readItems_bracket hmore] at h
    cases h
  simp only [readValue_openBracket, readItems_skipSpace, h, Option.map_some]

theorem readValue_object {depth : Nat} {s rest : List Char} {members : List (Option String × Json)}
    (h : readMembers depth s = some (members, rest)) :
    readValue (depth + 1) ('\x7b' :: s) = some (.object members, rest) := by
  have hmember : ∀ more, skipSpace s ≠ '\x7d' :: more := by
    intro more hmore
    rw [readMembers_brace hmore] at h
    cases h
  simp only [readValue_openBrace, readMembers_skipSpace, h, Option.map_some]

/-! ## Documents -/

/-- The written form is read as the document, with anything behind it that ends a number. -/
def ReadsBack (document : Json) : Prop :=
  ∀ depth k rest, 2 * (write k document).length ≤ depth → EndsNumber rest →
    readValue depth (write k document ++ rest) = some (document, rest)

theorem readsBack_null : ReadsBack .null := by
  intro depth k rest hdepth _
  change 2 * 4 ≤ depth at hdepth
  obtain ⟨depth, rfl⟩ := Nat.exists_eq_add_of_le' (show 1 ≤ depth by omega)
  rfl

theorem readsBack_bool (b : Bool) : ReadsBack (.bool b) := by
  intro depth k rest hdepth _
  have hpos : 0 < (write k (.bool b)).length := by cases b <;> exact Nat.succ_pos _
  obtain ⟨depth, rfl⟩ := Nat.exists_eq_add_of_le' (show 1 ≤ depth by omega)
  cases b <;> rfl

theorem readValue_number {c : Char} (hc : isDigit c = true) (depth : Nat) (s : List Char) :
    readValue (depth + 1) (c :: s) = (scanNumber (c :: s)).map
      fun (written, rest) => (.number (String.ofList written), rest) := by
  have hspace : isSpace c = false := by
    rw [← Bool.not_eq_true]
    intro hspace
    simp only [isSpace, Bool.or_eq_true, decide_eq_true_eq] at hspace
    rcases hspace with ((rfl | rfl) | rfl) | rfl <;> cases hc
  rw [readValue, skipSpace_cons hspace]
  split
  all_goals first
    | rfl
    | next heq => rw [(List.cons.inj heq).1] at hc; cases hc

theorem readsBack_natural (n : Nat) : ReadsBack (ofNatural n) := by
  intro depth k rest hdepth hrest
  have hscan := scanNumber_naturalText n hrest
  have hwrite : write k (ofNatural n) = Nat.toDigits 10 n := String.toList_ofList
  rw [hwrite] at hdepth ⊢
  cases hdigits : Nat.toDigits 10 n with
  | nil => exact absurd hdigits Nat.toDigits_ne_nil
  | cons c digits =>
    have hc := isDigit_of_charIsDigit
      (isDigit_of_mem_toDigits (n := n) (hdigits ▸ List.mem_cons_self))
    rw [hdigits] at hdepth hscan
    obtain ⟨depth, rfl⟩ := Nat.exists_eq_add_of_le'
      (show 1 ≤ depth by rw [List.length_cons] at hdepth; omega)
    rw [List.cons_append] at hscan ⊢
    rw [readValue_number hc, hscan]
    simp [ofNatural, naturalText, hdigits]

/-- A name or a string is scanned as the pieces of its text. -/
theorem writeText_append (s : String) (rest : List Char) :
    writeText (some s) ++ rest = '"' :: (s.toList.flatMap escapeChar ++ '"' :: rest) := by
  simp [writeText, quoteChars]

theorem length_writeText (s : String) : 2 ≤ (writeText (some s)).length := by
  simp [writeText, quoteChars]

theorem joinPieces?_text (s : String) :
    (joinPieces? (s.toList.map pieceOf)).map String.ofList = some s := by
  rw [joinPieces?_map_pieceOf, Option.map_some, String.ofList_toList]

theorem readValue_quote (depth : Nat) (s : List Char) :
    readValue (depth + 1) ('"' :: s) = (scan s).bind fun (pieces, rest) =>
      some (.string ((joinPieces? pieces).map String.ofList), rest) := rfl

theorem readsBack_text (s : String) : ReadsBack (ofText s) := by
  intro depth k rest hdepth _
  have hlength := length_writeText s
  have hwrite : write k (ofText s) = writeText (some s) := rfl
  rw [hwrite] at hdepth ⊢
  obtain ⟨depth, rfl⟩ := Nat.exists_eq_add_of_le' (show 1 ≤ depth by omega)
  simp only [writeText_append, readValue_quote, scan_flatMap_escapeChar, Option.bind_some,
    joinPieces?_text]
  rfl

/-! ## Arrays -/

theorem write_array (k : Nat) (item : Json) (items : List Json) :
    write k (.array (item :: items)) = '[' :: newLine (k + 1) ++ write (k + 1) item ++
      writeItems (k + 1) items ++ newLine k ++ [']'] := rfl

theorem writeItems_cons (k : Nat) (item : Json) (items : List Json) :
    writeItems k (item :: items) = ',' :: newLine k ++ write k item ++ writeItems k items := rfl

theorem skipSpace_comma (s : List Char) : skipSpace (',' :: s) = ',' :: s :=
  skipSpace_cons (by decide) s

theorem readItems_comma {depth : Nat} {item : Json} {s rest : List Char}
    (h : readValue depth s = some (item, ',' :: rest)) :
    readItems (depth + 1) s =
      (readItems depth rest).map fun (items, rest) => (item :: items, rest) := by
  simp only [readItems_succ, h, Option.bind_some, skipSpace_comma]

theorem readItems_end {depth k : Nat} {item : Json} {s rest : List Char}
    (h : readValue depth s = some (item, newLine k ++ ']' :: rest)) :
    readItems (depth + 1) s = some ([item], rest) := by
  have hbracket : skipSpace (newLine k ++ ']' :: rest) = ']' :: rest := by
    rw [skipSpace_newLine, skipSpace_cons (by decide)]
  simp only [readItems_succ, h, Option.bind_some, hbracket]

/-- The items of an array are read up to the bracket behind them. -/
theorem readItems_write {item : Json} {items : List Json} (h : ∀ i ∈ item :: items, ReadsBack i)
    {depth j k : Nat} {rest : List Char}
    (hdepth : 2 * ((write j item).length + (writeItems j items).length) < depth) :
    readItems depth (write j item ++ (writeItems j items ++ (newLine k ++ ']' :: rest))) =
      some (item :: items, rest) := by
  obtain ⟨depth, rfl⟩ := Nat.exists_eq_add_of_le' (show 1 ≤ depth by omega)
  have hitem := h item List.mem_cons_self
  induction items generalizing item depth with
  | nil => exact readItems_end (hitem depth j _ (by omega) (.newLine k _))
  | cons next items ih =>
    simp only [writeItems_cons, List.length_append, List.length_cons] at hdepth
    obtain ⟨depth, rfl⟩ := Nat.exists_eq_add_of_le' (show 1 ≤ depth by omega)
    have hvalue := hitem (depth + 1) j (',' :: (newLine j ++ (write j next ++
      (writeItems j items ++ (newLine k ++ ']' :: rest))))) (by omega) (.inr ⟨_, .inl rfl⟩)
    have hnext := ih (fun i hi => h i (List.mem_cons_of_mem _ hi)) depth (by omega)
      (h next (List.mem_cons_of_mem _ List.mem_cons_self))
    simp only [writeItems_cons, List.append_assoc, List.cons_append]
    rw [readItems_comma hvalue, readItems_newLine, hnext]
    rfl

theorem readsBack_array {items : List Json} (h : ∀ i ∈ items, ReadsBack i) :
    ReadsBack (.array items) := by
  intro depth k rest hdepth _
  cases items with
  | nil =>
    change 2 * 2 ≤ depth at hdepth
    obtain ⟨depth, rfl⟩ := Nat.exists_eq_add_of_le' (show 1 ≤ depth by omega)
    rfl
  | cons item items =>
    simp only [write_array, List.length_append, List.length_cons] at hdepth
    obtain ⟨depth, rfl⟩ := Nat.exists_eq_add_of_le' (show 1 ≤ depth by omega)
    have hitems : readItems depth (write (k + 1) item ++ (writeItems (k + 1) items ++
        (newLine k ++ ']' :: rest))) = some (item :: items, rest) :=
      readItems_write h (by omega)
    rw [← readItems_newLine depth (k + 1)] at hitems
    simpa [write_array] using readValue_array hitems

/-! ## Objects -/

theorem write_object (k : Nat) (name : Option String) (value : Json)
    (members : List (Option String × Json)) :
    write k (.object ((name, value) :: members)) = '\x7b' :: newLine (k + 1) ++ writeText name ++
      [':', ' '] ++ write (k + 1) value ++ writeMembers (k + 1) members ++ newLine k ++
      ['\x7d'] := rfl

theorem writeMembers_cons (k : Nat) (name : Option String) (value : Json)
    (members : List (Option String × Json)) :
    writeMembers k ((name, value) :: members) = ',' :: newLine k ++ writeText name ++ [':', ' '] ++
      write k value ++ writeMembers k members := rfl

theorem readMembers_member {depth : Nat} (name : String) {value : Json} {s rest : List Char}
    (h : readValue depth s = some (value, rest)) :
    (∀ more, skipSpace rest = ',' :: more →
      readMembers (depth + 1) (writeText (some name) ++ ':' :: ' ' :: s) =
        (readMembers depth more).map
          fun (members, rest) => ((some name, value) :: members, rest)) ∧
    (∀ more, skipSpace rest = '\x7d' :: more →
      readMembers (depth + 1) (writeText (some name) ++ ':' :: ' ' :: s) =
        some ([(some name, value)], more)) := by
  have hquote : ∀ s, skipSpace ('"' :: s) = '"' :: s := skipSpace_cons (by decide)
  have hcolon : ∀ s, skipSpace (':' :: s) = ':' :: s := skipSpace_cons (by decide)
  have hblank : readValue depth (' ' :: s) = some (value, rest) := by
    rw [← readValue_skipSpace] at h ⊢
    exact h
  constructor
  · intro more hmore
    simp only [writeText_append, readMembers, hquote, scan_flatMap_escapeChar, Option.bind_eq_bind,
      Option.bind_some, joinPieces?_text, hcolon, hblank, hmore]
  · intro more hmore
    simp only [writeText_append, readMembers, hquote, scan_flatMap_escapeChar, Option.bind_eq_bind,
      Option.bind_some, joinPieces?_text, hcolon, hblank, hmore]

/-- The members of a record as members of an object. -/
def named (members : List (String × Json)) : List (Option String × Json) :=
  members.map fun (name, value) => (some name, value)

theorem named_cons (name : String) (value : Json) (members : List (String × Json)) :
    named ((name, value) :: members) = (some name, value) :: named members := rfl

theorem record_eq (members : List (String × Json)) : record members = .object (named members) := rfl

/-- The members of a record are read up to the brace behind them. -/
theorem readMembers_write {name : String} {value : Json} {members : List (String × Json)}
    (h : ∀ member ∈ (name, value) :: members, ReadsBack member.2)
    {depth j k : Nat} {rest : List Char}
    (hdepth : 2 * ((write j value).length +
      (writeMembers j (named members)).length) < depth) :
    readMembers depth (writeText (some name) ++ ':' :: ' ' :: (write j value ++
        (writeMembers j (named members) ++
          (newLine k ++ '\x7d' :: rest)))) =
      some (named ((name, value) :: members), rest) := by
  obtain ⟨depth, rfl⟩ := Nat.exists_eq_add_of_le' (show 1 ≤ depth by omega)
  have hvalue : ReadsBack value := h (name, value) List.mem_cons_self
  induction members generalizing name value depth with
  | nil =>
    have hread := hvalue depth j (newLine k ++ '\x7d' :: rest) (by omega) (.newLine k _)
    exact (readMembers_member name hread).2 rest
      (by rw [skipSpace_newLine, skipSpace_cons (by decide)])
  | cons next members ih =>
    obtain ⟨other, next⟩ := next
    simp only [named_cons, writeMembers_cons, List.length_append, List.length_cons] at hdepth
    obtain ⟨depth, rfl⟩ := Nat.exists_eq_add_of_le' (show 1 ≤ depth by omega)
    have hnext := ih (fun member hm => h member (List.mem_cons_of_mem _ hm)) depth (by omega)
      (h (other, next) (List.mem_cons_of_mem _ List.mem_cons_self))
    rw [← readMembers_newLine (depth + 1) j] at hnext
    have hread := hvalue (depth + 1) j (',' :: (newLine j ++ (writeText (some other) ++ ':' :: ' ' ::
      (write j next ++ (writeMembers j (named members) ++
        (newLine k ++ '\x7d' :: rest)))))) (by omega) (.inr ⟨_, .inl rfl⟩)
    have hmember := (readMembers_member name hread).1 _ (skipSpace_comma _)
    rw [hnext] at hmember
    simpa [named_cons, writeMembers_cons] using hmember

theorem readsBack_record {members : List (String × Json)}
    (h : ∀ member ∈ members, ReadsBack member.2) : ReadsBack (record members) := by
  intro depth k rest hdepth _
  cases members with
  | nil =>
    change 2 * 2 ≤ depth at hdepth
    obtain ⟨depth, rfl⟩ := Nat.exists_eq_add_of_le' (show 1 ≤ depth by omega)
    rfl
  | cons member members =>
    obtain ⟨name, value⟩ := member
    simp only [record_eq, named_cons, write_object, List.length_append, List.length_cons] at hdepth
    obtain ⟨depth, rfl⟩ := Nat.exists_eq_add_of_le' (show 1 ≤ depth by omega)
    have hmembers : readMembers depth (writeText (some name) ++ ':' :: ' ' ::
        (write (k + 1) value ++ (writeMembers (k + 1) (named members) ++
          (newLine k ++ '\x7d' :: rest)))) = some (named ((name, value) :: members), rest) :=
      readMembers_write h (by omega)
    rw [← readMembers_newLine depth (k + 1)] at hmembers
    simpa [record_eq, named_cons, write_object] using readValue_object hmembers

/-! ## The whole text -/

theorem IsPlain.readsBack {document : Json} (h : IsPlain document) : ReadsBack document := by
  induction h with
  | null => exact readsBack_null
  | bool b => exact readsBack_bool b
  | natural n => exact readsBack_natural n
  | text s => exact readsBack_text s
  | array _ ih => exact readsBack_array ih
  | record _ ih => exact readsBack_record ih

/-- A plain document is read from its text. -/
theorem read?_pretty {document : Json} (h : IsPlain document) :
    read? document.pretty = some document := by
  have hread := h.readsBack (2 * (write 0 document).length + 2) 0 [] (by omega) (.inl rfl)
  rw [List.append_nil] at hread
  simp only [read?, pretty, String.toList_ofList, hread, Option.bind_eq_bind, Option.bind_some]
  rfl

end TierCheck.Json
