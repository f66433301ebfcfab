import TierCheck.Proofs.Text.Cutting
import TierCheck.Text.Utf8

/-!
# Bytes of a text read back

The bytes of a text are read as the text. Bytes that end inside a character are read as the whole
characters before it and one replacement character, so reading the start of a text's bytes gives a
start of the text, with at most one more character.

* `Completes`: the bytes that a state still waits for.
* `decode_encode`: the bytes of a whole text.
* `decodeFrom_cut`: the first bytes of a text.
-/
namespace TierCheck.Utf8

def encodeChars (s : List Char) : List UInt8 := s.flatMap String.utf8EncodeChar

def encode (s : String) : List UInt8 := encodeChars s.toList

/-! ## Single characters -/

/-- The bytes complete a character from a state inside it. -/
inductive Completes (c : Char) : State → List UInt8 → Prop
  | last {bits : Nat} {low high b : UInt8} (hlow : low ≤ b) (hhigh : b ≤ high)
      (hc : Char.ofNat (bits * 64 + b.toNat % 64) = c) :
      Completes c (.inside bits 0 low high) [b]
  | more {bits n : Nat} {low high b : UInt8} {rest : List UInt8} (hlow : low ≤ b) (hhigh : b ≤ high)
      (hrest : Completes c (.inside (bits * 64 + b.toNat % 64) n 0x80 0xBF) rest) :
      Completes c (.inside bits (n + 1) low high) (b :: rest)

theorem Completes.decodeFrom_append {c : Char} {state : State} {bytes : List UInt8}
    (h : Completes c state bytes) (rest : List UInt8) :
    decodeFrom state (bytes ++ rest) = c :: decodeFrom .start rest := by
  induction h with
  | last hlow hhigh hc => simp [decodeFrom, step, hlow, hhigh, hc]
  | more hlow hhigh hrest ih => simpa [decodeFrom, step, hlow, hhigh] using ih

/-- Without the last of its bytes a character is replaced. -/
theorem Completes.decodeFrom_cut {c : Char} {state : State} {bytes : List UInt8}
    (h : Completes c state bytes) {part : List UInt8} (hpart : part <+: bytes)
    (hne : part ≠ bytes) : decodeFrom state part = [replacement] := by
  induction h generalizing part with
  | last hlow hhigh hc =>
    cases part with
    | nil => rfl
    | cons b part =>
      obtain ⟨rfl, hnil⟩ := List.cons_prefix_cons.1 hpart
      exact absurd (congrArg _ (List.prefix_nil.1 hnil)) hne
  | more hlow hhigh hrest ih =>
    cases part with
    | nil => rfl
    | cons b part =>
      obtain ⟨rfl, hlater⟩ := List.cons_prefix_cons.1 hpart
      simpa [decodeFrom, step, hlow, hhigh] using ih hlater fun heq => hne (congrArg _ heq)

/-! ### First bytes -/

theorem first_one : ∀ n < 0x80, first (UInt8.ofNat n) = ([Char.ofNat n], .start) := by
  decide +kernel

theorem first_two : ∀ n < 0x1E,
    first (UInt8.ofNat (n + 2 + 0xC0)) = ([], .inside (n + 2) 0 0x80 0xBF) := by
  decide +kernel

theorem first_three : ∀ n < 0x10, first (UInt8.ofNat (n + 0xE0)) =
    ([], .inside n 1 (if n = 0 then 0xA0 else 0x80) (if n = 0xD then 0x9F else 0xBF)) := by
  decide +kernel

theorem first_four : ∀ n < 5, first (UInt8.ofNat (n + 0xF0)) =
    ([], .inside n 2 (if n = 0 then 0x90 else 0x80) (if n = 4 then 0x8F else 0xBF)) := by
  decide +kernel

/-! ### Later bytes -/

/-- The byte that carries six bits of a character behind the first byte. -/
def laterByte (n : Nat) : UInt8 := UInt8.ofNat (n % 64 + 0x80)

theorem toNat_laterByte (n : Nat) : (laterByte n).toNat = n % 64 + 0x80 := by
  rw [laterByte, UInt8.toNat_ofNat']
  omega

theorem laterByte_bounds (n : Nat) : 0x80 ≤ laterByte n ∧ laterByte n ≤ 0xBF := by
  simp only [UInt8.le_iff_toNat_le, toNat_laterByte]
  constructor
  · exact Nat.le_add_left _ _
  · have := Nat.mod_lt n (by decide : 0 < 64)
    simp only [UInt8.reduceToNat]
    omega

theorem completes_one {c : Char} {bits n : Nat} {low high : UInt8}
    (hlow : low.toNat ≤ n % 64 + 0x80) (hhigh : n % 64 + 0x80 ≤ high.toNat)
    (hc : bits * 64 + n % 64 = c.toNat) :
    Completes c (.inside bits 0 low high) [laterByte n] := by
  refine .last ?_ ?_ ?_
  · rw [UInt8.le_iff_toNat_le, toNat_laterByte]
    exact hlow
  · rw [UInt8.le_iff_toNat_le, toNat_laterByte]
    exact hhigh
  · have hbits : bits * 64 + (laterByte n).toNat % 64 = c.toNat := by
      rw [toNat_laterByte]
      omega
    rw [hbits, Char.ofNat_toNat]

theorem completes_more {c : Char} {bits k n : Nat} {low high : UInt8} {rest : List UInt8}
    (hlow : low.toNat ≤ n % 64 + 0x80) (hhigh : n % 64 + 0x80 ≤ high.toNat)
    (hrest : Completes c (.inside (bits * 64 + n % 64) k 0x80 0xBF) rest) :
    Completes c (.inside bits (k + 1) low high) (laterByte n :: rest) := by
  refine .more ?_ ?_ ?_
  · rw [UInt8.le_iff_toNat_le, toNat_laterByte]
    exact hlow
  · rw [UInt8.le_iff_toNat_le, toNat_laterByte]
    exact hhigh
  · have hbits : (laterByte n).toNat % 64 = n % 64 := by
      rw [toNat_laterByte]
      omega
    rw [hbits]
    exact hrest

/-! ### The bytes of a character -/

/-- The bytes of a character are one byte that is read as the character, or a first byte with those
that complete it. -/
inductive IsEncoding (c : Char) : List UInt8 → Prop
  | one {b : UInt8} (h : first b = ([c], .start)) : IsEncoding c [b]
  | several {b : UInt8} {state : State} {rest : List UInt8} (hfirst : first b = ([], state))
      (hrest : Completes c state rest) : IsEncoding c (b :: rest)

theorem IsEncoding.decodeFrom_append {c : Char} {bytes : List UInt8} (h : IsEncoding c bytes)
    (rest : List UInt8) : decodeFrom .start (bytes ++ rest) = c :: decodeFrom .start rest := by
  cases h with
  | one h => simp [decodeFrom, step, h]
  | several hfirst hrest =>
    simpa [decodeFrom, step, hfirst] using hrest.decodeFrom_append rest

/-- A start of a character's bytes, and not all of them, is read as nothing or as a replacement. -/
theorem IsEncoding.decodeFrom_cut {c : Char} {bytes part : List UInt8} (h : IsEncoding c bytes)
    (hpart : part <+: bytes) (hne : part ≠ bytes) :
    decodeFrom .start part = [] ∨ decodeFrom .start part = [replacement] := by
  cases part with
  | nil => exact .inl rfl
  | cons b part =>
    cases h with
    | one h =>
      obtain ⟨rfl, hnil⟩ := List.cons_prefix_cons.1 hpart
      exact absurd (congrArg _ (List.prefix_nil.1 hnil)) hne
    | several hfirst hrest =>
      obtain ⟨rfl, hlater⟩ := List.cons_prefix_cons.1 hpart
      right
      simpa [decodeFrom, step, hfirst] using
        hrest.decodeFrom_cut hlater fun heq => hne (congrArg _ heq)

theorem utf8EncodeChar_eq (c : Char) :
    String.utf8EncodeChar c =
      if c.toNat ≤ 0x7F then [UInt8.ofNat c.toNat]
      else if c.toNat ≤ 0x7FF then [UInt8.ofNat (c.toNat / 64 % 0x20 + 0xC0), laterByte c.toNat]
      else if c.toNat ≤ 0xFFFF then
        [UInt8.ofNat (c.toNat / 4096 % 0x10 + 0xE0), laterByte (c.toNat / 64), laterByte c.toNat]
      else
        [UInt8.ofNat (c.toNat / 262144 % 8 + 0xF0), laterByte (c.toNat / 4096),
          laterByte (c.toNat / 64), laterByte c.toNat] := rfl

theorem isEncoding_utf8EncodeChar (c : Char) : IsEncoding c (String.utf8EncodeChar c) := by
  have hvalid : c.toNat < 0xD800 ∨ (0xDFFF < c.toNat ∧ c.toNat < 0x110000) := c.valid
  rw [utf8EncodeChar_eq]
  generalize hn : c.toNat = n at hvalid
  split
  · refine .one ?_
    rw [first_one n (by omega), ← hn, Char.ofNat_toNat]
  split
  · have hfirst := first_two (n / 64 - 2) (by omega)
    rw [show n / 64 - 2 + 2 = n / 64 % 0x20 by omega] at hfirst
    refine .several hfirst (completes_one ?_ ?_ ?_)
    · simp
    · simp only [UInt8.reduceToNat]; omega
    · omega
  split
  · have hfirst := first_three (n / 4096 % 0x10) (by omega)
    refine .several hfirst (completes_more ?_ ?_ (completes_one ?_ ?_ ?_))
    · split
      · simp only [UInt8.reduceToNat]; omega
      · simp
    · split
      · simp only [UInt8.reduceToNat]; omega
      · simp only [UInt8.reduceToNat]; omega
    · simp
    · simp only [UInt8.reduceToNat]; omega
    · omega
  · have hfirst := first_four (n / 262144 % 8) (by omega)
    refine .several hfirst (completes_more ?_ ?_ (completes_more ?_ ?_ (completes_one ?_ ?_ ?_)))
    · split
      · simp only [UInt8.reduceToNat]; omega
      · simp
    · split
      · simp only [UInt8.reduceToNat]; omega
      · simp only [UInt8.reduceToNat]; omega
    · simp
    · simp only [UInt8.reduceToNat]; omega
    · simp
    · simp only [UInt8.reduceToNat]; omega
    · omega

/-! ## Texts -/

theorem decodeFrom_encodeChars (s : List Char) (rest : List UInt8) :
    decodeFrom .start (encodeChars s ++ rest) = s ++ decodeFrom .start rest := by
  induction s with
  | nil => rfl
  | cons c s ih =>
    rw [encodeChars, List.flatMap_cons, List.append_assoc,
      (isEncoding_utf8EncodeChar c).decodeFrom_append]
    exact congrArg (c :: ·) ih

/-- The bytes of a text are read as the text. -/
theorem decode_encode (s : String) : decode (encode s) = s := by
  have h := decodeFrom_encodeChars s.toList []
  rw [List.append_nil, decodeFrom, List.append_nil] at h
  rw [decode, encode, h, String.ofList_toList]

/-- The first bytes of a text are read as its first characters, with a replacement behind them if a
character is cut. -/
theorem decodeFrom_cut {s : List Char} {part : List UInt8} (h : part <+: encodeChars s) :
    ∃ before after tail, s = before ++ after ∧ decodeFrom .start part = before ++ tail ∧
      (tail = [] ∨ tail = [replacement] ∧ after ≠ []) := by
  induction s generalizing part with
  | nil =>
    obtain rfl := List.prefix_nil.1 h
    exact ⟨[], [], [], rfl, rfl, .inl rfl⟩
  | cons c s ih =>
    rcases prefix_append_cases h with ⟨hpart, hne⟩ | ⟨part, rfl, hpart⟩
    · rcases (isEncoding_utf8EncodeChar c).decodeFrom_cut hpart hne with hnil | hcut
      · exact ⟨[], c :: s, [], rfl, hnil, .inl rfl⟩
      · exact ⟨[], c :: s, [replacement], rfl, hcut, .inr ⟨rfl, List.cons_ne_nil c s⟩⟩
    · obtain ⟨before, after, tail, rfl, hdecode, htail⟩ := ih hpart
      refine ⟨c :: before, after, tail, rfl, ?_, htail⟩
      rw [(isEncoding_utf8EncodeChar c).decodeFrom_append, hdecode]
      rfl

/-- A byte below `0x80` is a character by itself. -/
theorem mem_utf8EncodeChar {c : Char} {b : UInt8} (hb : b < 0x80)
    (h : b ∈ String.utf8EncodeChar c) : b.toNat = c.toNat := by
  have hlater : ∀ n, b ≠ laterByte n := by
    rintro n rfl
    exact UInt8.not_le.2 hb (laterByte_bounds n).1
  have hfirst : ∀ n, n < 256 → 0x80 ≤ n → b ≠ UInt8.ofNat n := by
    rintro n hn hle rfl
    rw [UInt8.lt_iff_toNat_lt, UInt8.toNat_ofNat'] at hb
    simp only [UInt8.reduceToNat] at hb
    omega
  rw [utf8EncodeChar_eq] at h
  split at h
  · rw [List.mem_singleton.1 h, UInt8.toNat_ofNat']
    omega
  · exfalso
    split at h
    · simp only [List.mem_cons, hlater, List.not_mem_nil, or_false] at h
      exact hfirst _ (by omega) (by omega) h
    · split at h
      · simp only [List.mem_cons, hlater, List.not_mem_nil, or_false] at h
        exact hfirst _ (by omega) (by omega) h
      · simp only [List.mem_cons, hlater, List.not_mem_nil, or_false] at h
        exact hfirst _ (by omega) (by omega) h

theorem not_mem_encodeChars {s : List Char} {b : UInt8} (hb : b < 0x80)
    (h : ∀ c ∈ s, c.toNat ≠ b.toNat) : b ∉ encodeChars s := by
  intro hmem
  obtain ⟨c, hc, hbyte⟩ := List.mem_flatMap.1 hmem
  exact h c hc (mem_utf8EncodeChar hb hbyte).symm

end TierCheck.Utf8
