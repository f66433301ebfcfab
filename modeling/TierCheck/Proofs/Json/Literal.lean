import TierCheck.Json.Literal

/-!
# String literals read back

The written form of a text is read as that text. The reader goes forward only: what it takes of a
literal depends on nothing behind the closing quote, so a literal that is cut short before its
closing quote is never read as another one.

* `scan_eq_some`: what a successful scan has taken.
* `readLiteral?_quoteChars`: the written form read back.
* `readLiteral?_cut`: a written form that is cut short.
-/
namespace TierCheck.Json

/-! ## Steps of the scan -/

/-- The result of a scan with one more piece in front. -/
def consPiece (piece : Piece) (result : List Piece × List Char) : List Piece × List Char :=
  (piece :: result.1, result.2)

theorem scan_quote (rest : List Char) : scan ('"' :: rest) = some ([], rest) := by
  rw [scan]

theorem scan_short {e c : Char} (he : e ≠ 'u') (h : shortEscape? e = some c) (rest : List Char) :
    scan ('\\' :: e :: rest) = (scan rest).map (consPiece (.char c)) := by
  rw [scan.eq_def]
  split
  · next heq => cases heq
  · next heq => cases heq
  · next heq => cases heq; exact absurd rfl he
  · next heq =>
    cases heq
    rw [h]
    cases scan rest <;> rfl
  · next hplain heq =>
    obtain ⟨rfl, rfl⟩ := List.cons.inj heq
    exact absurd rfl (hplain e rest rfl)

theorem scan_unit {a b c d : Char} {n : Nat} (h : hexUnit? a b c d = some n) (rest : List Char) :
    scan ('\\' :: 'u' :: a :: b :: c :: d :: rest) = (scan rest).map (consPiece (.unit n)) := by
  rw [scan, h]
  cases scan rest <;> rfl

theorem scan_plain {c : Char} (hquote : c ≠ '"') (hescape : c ≠ '\\') (hcontrol : ¬c.toNat < 0x20)
    (rest : List Char) : scan (c :: rest) = (scan rest).map (consPiece (.char c)) := by
  rw [scan.eq_def]
  split
  · next heq => cases heq
  · next heq => cases heq; exact absurd rfl hquote
  · next heq => cases heq; exact absurd rfl hescape
  · next heq => cases heq; exact absurd rfl hescape
  · next heq =>
    cases heq
    rw [if_neg hcontrol]
    cases scan rest <;> rfl

/-! ## The written form -/

/-- The piece that the written form of a character is scanned as. -/
def pieceOf (c : Char) : Piece :=
  if c = '\x08' ∨ c = '\x0c' ∨ c = '\n' ∨ c = '\r' ∨ c = '\t' ∨ ¬c.toNat < 0x20 then .char c
  else .unit c.toNat

theorem hexUnit?_hexPair : ∀ n < 0x20,
    hexUnit? '0' '0' (Nat.digitChar (n / 16)) (Nat.digitChar (n % 16)) = some n := by
  decide

theorem scan_escapeChar (c : Char) (rest : List Char) :
    scan (escapeChar c ++ rest) = (scan rest).map (consPiece (pieceOf c)) := by
  unfold escapeChar
  split
  · next h => subst h; exact scan_short (by decide) rfl rest
  split
  · next h => subst h; exact scan_short (by decide) rfl rest
  split
  · next h => subst h; exact scan_short (by decide) rfl rest
  split
  · next h => subst h; exact scan_short (by decide) rfl rest
  split
  · next h => subst h; exact scan_short (by decide) rfl rest
  split
  · next h => subst h; exact scan_short (by decide) rfl rest
  split
  · next h => subst h; exact scan_short (by decide) rfl rest
  next hquote hescape hb hf hn hr ht =>
  split
  · next hcontrol =>
    have hpiece : pieceOf c = .unit c.toNat := by simp [pieceOf, hb, hf, hn, hr, ht, hcontrol]
    rw [hpiece]
    exact scan_unit (hexUnit?_hexPair c.toNat hcontrol) rest
  · next hcontrol =>
    have hpiece : pieceOf c = .char c := by simp [pieceOf, hcontrol]
    rw [hpiece]
    exact scan_plain hquote hescape hcontrol rest

theorem scan_flatMap_escapeChar (s rest : List Char) :
    scan (s.flatMap escapeChar ++ '"' :: rest) = some (s.map pieceOf, rest) := by
  induction s with
  | nil => exact scan_quote rest
  | cons c s ih => rw [List.flatMap_cons, List.append_assoc, scan_escapeChar, ih]; rfl

theorem joinPieces?_unit {n : Nat} (h : n < 0x20) (rest : List Piece) :
    joinPieces? (.unit n :: rest) = (joinPieces? rest).map (Char.ofNat n :: ·) := by
  have hhigh : isHighHalf n = false := by
    simp only [isHighHalf, Bool.and_eq_false_iff, decide_eq_false_iff_not]
    omega
  have hlow : isLowHalf n = false := by
    simp only [isLowHalf, Bool.and_eq_false_iff, decide_eq_false_iff_not]
    omega
  cases rest with
  | nil => simp [joinPieces?, hhigh, hlow]
  | cons piece rest =>
    cases piece with
    | char c => simp [joinPieces?, hhigh, hlow]
    | unit m => simp [joinPieces?, hhigh, hlow]

theorem joinPieces?_map_pieceOf (s : List Char) : joinPieces? (s.map pieceOf) = some s := by
  induction s with
  | nil => rfl
  | cons c s ih =>
    rw [List.map_cons, pieceOf]
    split
    · rw [joinPieces?, ih]
      rfl
    · next h =>
      have hcontrol : c.toNat < 0x20 := by
        rw [← Decidable.not_not (p := c.toNat < 0x20)]
        exact fun hnot => h (by simp [hnot])
      rw [joinPieces?_unit hcontrol, ih, Char.ofNat_toNat]
      rfl

/-- The written form of a text is read as the text. -/
theorem readLiteral?_quoteChars (s : List Char) :
    readLiteral? (quoteChars s) = some (String.ofList s) := by
  have hskip : skipSpace (quoteChars s) = quoteChars s := rfl
  have hscan : scan (s.flatMap escapeChar ++ ['"']) = some (s.map pieceOf, []) :=
    scan_flatMap_escapeChar s []
  rw [readLiteral?, hskip, quoteChars, List.cons_append]
  simp only [hscan, Option.bind_eq_bind, Option.bind_some, joinPieces?_map_pieceOf]
  rfl

/-! ## Literals that are cut short -/

/-- The scan has taken the text up to a closing quote and would take the same of any text that goes
on differently behind it. -/
def IsTaken (s : List Char) (found : List Piece) (rest : List Char) : Prop :=
  ∃ used, s = used ++ '"' :: rest ∧ ∀ other, scan (used ++ '"' :: other) = some (found, other)

theorem IsTaken.step (start : List Char) {s rest : List Char} {piece : Piece} {found : List Piece}
    (hstep : ∀ other, scan (start ++ other) = (scan other).map (consPiece piece))
    (ih : ∀ {found}, scan s = some (found, rest) → IsTaken s found rest)
    (h : scan (start ++ s) = some (found, rest)) : IsTaken (start ++ s) found rest := by
  rw [hstep] at h
  obtain ⟨⟨more, rest'⟩, hmore, heq⟩ := Option.map_eq_some_iff.1 h
  obtain ⟨rfl, rfl⟩ := Prod.mk.inj heq
  obtain ⟨used, rfl, hused⟩ := ih hmore
  refine ⟨start ++ used, by rw [List.append_assoc], fun other => ?_⟩
  rw [List.append_assoc, hstep, hused]
  rfl

theorem scan_eq_some {s : List Char} {found : List Piece} {rest : List Char}
    (h : scan s = some (found, rest)) : IsTaken s found rest := by
  induction s using scan.induct generalizing found with
  | case1 => cases h
  | case2 rest' =>
    rw [scan_quote] at h
    cases h
    exact ⟨[], rfl, fun other => scan_quote other⟩
  | case3 a b c d s ih =>
    cases hn : hexUnit? a b c d with
    | none => rw [scan, hn] at h; cases h
    | some n => exact IsTaken.step ['\\', 'u', a, b, c, d] (scan_unit hn) ih h
  | case4 e s hunit ih =>
    cases hc : shortEscape? e with
    | none => rw [scan, hc] at h; cases h; exact hunit
    | some c =>
      have he : e ≠ 'u' := by rintro rfl; cases hc
      exact IsTaken.step ['\\', e] (scan_short he hc) ih h
  | case5 c s hquote hunit hescape hcontrol ih =>
    rw [scan, if_pos hcontrol] at h
    · cases h
    all_goals assumption
  | case6 c s hquote hunit hescape hcontrol ih =>
    by_cases hc : c = '\\'
    · -- a backslash that nothing follows
      subst hc
      cases s with
      | nil => cases h
      | cons e s => exact absurd rfl (fun heq => hescape e s heq rfl)
    · exact IsTaken.step [c] (scan_plain hquote hc hcontrol) ih h

/-- A scan that ends exactly at the end of a text does not succeed on less of it, also if something
without a quote comes behind. -/
theorem scan_cut {s more tail : List Char} {found : List Piece}
    (h : scan (s ++ more) = some (found, [])) (hne : more ≠ []) (htail : '"' ∉ tail) :
    scan (s ++ tail) = none := by
  cases hs : scan (s ++ tail) with
  | none => rfl
  | some result =>
    obtain ⟨used, hsplit, hused⟩ := scan_eq_some (hs : _ = some (result.1, result.2))
    rcases List.append_eq_append_iff.1 hsplit with ⟨between, rfl, rfl⟩ | ⟨between, rfl, htext⟩
    · exact absurd (List.mem_append_right _ List.mem_cons_self) htail
    · cases between with
      | nil =>
        rw [List.nil_append] at htext
        exact absurd (htext ▸ List.mem_cons_self) htail
      | cons c between =>
        obtain ⟨rfl, -⟩ := List.cons.inj htext
        rw [List.append_assoc, List.cons_append, hused] at h
        obtain ⟨-, hnil⟩ := Prod.mk.inj (Option.some.inj h)
        exact absurd (List.append_eq_nil_iff.1 hnil).2 hne

/-- The written form of a text is no literal if it is cut short. -/
theorem readLiteral?_cut {s part more tail : List Char} (h : quoteChars s = part ++ more)
    (hne : more ≠ []) (htail : '"' ∉ tail) : readLiteral? (part ++ tail) = none := by
  cases part with
  | nil =>
    have hskip : ∀ rest, skipSpace tail ≠ '"' :: rest := by
      intro rest heq
      have hmem : '"' ∈ skipSpace tail := heq ▸ List.mem_cons_self
      exact htail ((List.dropWhile_sublist isSpace).subset hmem)
    rw [List.nil_append, readLiteral?]
    split
    · next rest heq => exact absurd heq (hskip rest)
    · rfl
  | cons c part =>
    rw [quoteChars, List.cons_append, List.cons_append] at h
    obtain ⟨rfl, hbody⟩ := List.cons.inj h
    have hscan := scan_flatMap_escapeChar s []
    rw [hbody] at hscan
    have hskip : skipSpace ('"' :: part ++ tail) = '"' :: (part ++ tail) := rfl
    rw [readLiteral?, hskip]
    simp only [scan_cut hscan hne htail]
    rfl

end TierCheck.Json
