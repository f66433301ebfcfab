import Mathlib.Data.List.Flatten
import Mathlib.Data.List.Nodup
import TierCheck.Catalog.Standard
import TierCheck.Proofs.Number.Digits
import TierCheck.Script.Probe

/-!
# Ids of the built-in scenarios

The ids of the built-in scenarios tell what a scenario is: its family, what its function does, and
the numbers it is made for. Two scenarios that differ in one of these have different ids. Ids hold
no character that the name of a script's file would replace by another one, except for a slash, so
the scripts of different scenarios go to different files.

* `append_cons_inj`, `append_toDigits_inj`: a text is told apart into what stands before and after
  its last separator, or before its last number.
* `IsId`: the characters of an id, and `Probe.fileName_inj`: the file of its script.
* `Plan.callId_inj`, `Plan.vectorId_inj`: what can be read off an id.
* `Plan.nodup_ids`: the ids of one plan.
-/
namespace TierCheck

/-! ## Telling texts apart -/

theorem append_cons_inj {a b s t : List Char} {c : Char} (h : a ++ c :: s = b ++ c :: t)
    (hs : c ∉ s) (ht : c ∉ t) : a = b ∧ s = t := by
  rcases List.append_eq_append_iff.1 h with ⟨m, rfl, hm⟩ | ⟨m, rfl, hm⟩
  · cases m with
    | nil => exact ⟨(List.append_nil a).symm, (List.cons.inj hm).2⟩
    | cons x m =>
      refine absurd ?_ hs
      rw [(List.cons.inj hm).2]
      exact List.mem_append_right _ List.mem_cons_self
  · cases m with
    | nil => exact ⟨List.append_nil b, ((List.cons.inj hm).2).symm⟩
    | cons x m =>
      refine absurd ?_ ht
      rw [(List.cons.inj hm).2]
      exact List.mem_append_right _ List.mem_cons_self

theorem toDigits_inj {m n : Nat} (h : Nat.toDigits 10 m = Nat.toDigits 10 n) : m = n := by
  have hread := readDigits?_toDigits m
  rw [h, readDigits?_toDigits] at hread
  exact (Option.some.inj hread).symm

/-- The text ends with a character that is no digit. -/
def EndsPlainly (s : List Char) : Prop := ∃ start c, s = start ++ [c] ∧ c.isDigit = false

theorem append_toDigits_inj {a b : List Char} {m n : Nat} (ha : EndsPlainly a)
    (hb : EndsPlainly b) (h : a ++ Nat.toDigits 10 m = b ++ Nat.toDigits 10 n) :
    a = b ∧ m = n := by
  -- what one of the texts has more in front of its number would end with a digit
  have hnil : ∀ {start more digits : List Char} {k : Nat}, EndsPlainly (start ++ more) →
      Nat.toDigits 10 k = more ++ digits → more = [] := by
    intro start more digits k hends hdigits
    rcases List.eq_nil_or_concat more with rfl | ⟨before, last, rfl⟩
    · rfl
    · obtain ⟨front, c, hfront, hc⟩ := hends
      rw [List.concat_eq_append, ← List.append_assoc] at hfront
      obtain ⟨-, hlast⟩ := List.append_inj' hfront rfl
      have hmem : last ∈ Nat.toDigits 10 k := by
        rw [hdigits]
        exact List.mem_append_left _ (by simp)
      rw [← List.singleton_inj.1 hlast, isDigit_of_mem_toDigits hmem] at hc
      cases hc
  rcases List.append_eq_append_iff.1 h with ⟨more, rfl, hmore⟩ | ⟨more, rfl, hmore⟩
  · obtain rfl := hnil hb hmore
    exact ⟨(List.append_nil a).symm, toDigits_inj hmore⟩
  · obtain rfl := hnil ha hmore
    exact ⟨List.append_nil b, (toDigits_inj hmore).symm⟩

/-! ## Ids and files -/

/-- Whether the character may stand in the id of a built-in scenario. -/
def isIdCharacter (c : Char) : Bool := c.isAlphanum || c = '-' || c = '/'

/-- A text of such characters. -/
def IsId (id : String) : Prop := ∀ c ∈ id.toList, isIdCharacter c = true

-- through `all`, so that it is never decided by going through all characters there are
instance (id : String) : Decidable (IsId id) :=
  decidable_of_iff (id.toList.all isIdCharacter = true) List.all_eq_true

theorem IsId.append {a b : String} (ha : IsId a) (hb : IsId b) : IsId (a ++ b) := by
  intro c hc
  rw [String.toList_append] at hc
  exact (List.mem_append.1 hc).elim (ha c) (hb c)

theorem isId_naturalText (n : Nat) : IsId (naturalText n) := by
  intro c hc
  rw [naturalText, String.toList_ofList] at hc
  simp [isIdCharacter, Char.isAlphanum, isDigit_of_mem_toDigits hc]

theorem toNat_of_isIdCharacter {c : Char} (h : isIdCharacter c = true) :
    0x2D ≤ c.toNat ∧ c.toNat ≤ 0x7A := by
  have hkinds : (c.isUpper || c.isLower || c.isDigit || c = '-' || c = '/') = true := h
  simp only [Bool.or_eq_true, decide_eq_true_eq] at hkinds
  have hbetween : ∀ low high : Char, 0x2D ≤ low.toNat → high.toNat ≤ 0x7A →
      low.val ≤ c.val → c.val ≤ high.val → 0x2D ≤ c.toNat ∧ c.toNat ≤ 0x7A := by
    intro low high hfirst hlast hlow hhigh
    rw [UInt32.le_iff_toNat_le] at hlow hhigh
    exact ⟨Nat.le_trans hfirst hlow, Nat.le_trans hhigh hlast⟩
  rcases hkinds with (((hupper | hlower) | hdigit) | rfl) | rfl
  · obtain ⟨hlow, hhigh⟩ := of_decide_eq_true hupper
    exact hbetween 'A' 'Z' (by decide) (by decide) hlow hhigh
  · obtain ⟨hlow, hhigh⟩ := Bool.and_eq_true_iff.1 hlower
    exact hbetween 'a' 'z' (by decide) (by decide) (of_decide_eq_true hlow)
      (of_decide_eq_true hhigh)
  · obtain ⟨hlow, hhigh⟩ := Bool.and_eq_true_iff.1 hdigit
    exact hbetween '0' '9' (by decide) (by decide) (of_decide_eq_true hlow)
      (of_decide_eq_true hhigh)
  · decide
  · decide

theorem IsId.hasBlank {id : String} (h : IsId id) : hasBlank id = false := by
  rw [TierCheck.hasBlank, List.any_eq_false]
  intro c hc hblank
  have hrange := toNat_of_isIdCharacter (h c hc)
  simp only [isBlank, Bool.or_eq_true, Bool.and_eq_true, decide_eq_true_eq] at hblank
  omega

theorem fileNameCharacter_of_isIdCharacter {c : Char} (h : isIdCharacter c = true) :
    (Probe.fileNameCharacter c = c ∧ c ≠ '_') ∨ (Probe.fileNameCharacter c = '_' ∧ c = '/') := by
  unfold Probe.fileNameCharacter
  by_cases hkept : (c.isAlphanum || decide (c = '-')) = true
  · rw [if_pos hkept]
    refine .inl ⟨rfl, ?_⟩
    rintro rfl
    revert hkept
    decide
  · rw [if_neg hkept]
    refine .inr ⟨rfl, ?_⟩
    simp only [isIdCharacter, Bool.or_eq_true (_ || _)] at h
    exact of_decide_eq_true (h.resolve_left hkept)

theorem fileNameCharacter_inj {c d : Char} (hc : isIdCharacter c = true)
    (hd : isIdCharacter d = true) (h : Probe.fileNameCharacter c = Probe.fileNameCharacter d) :
    c = d := by
  rcases fileNameCharacter_of_isIdCharacter hc with ⟨hkept, hplain⟩ | ⟨hslash, rfl⟩
  · rw [hkept] at h
    rcases fileNameCharacter_of_isIdCharacter hd with ⟨hkept', -⟩ | ⟨hslash', rfl⟩
    · exact h.trans hkept'
    · exact absurd (h.trans hslash') hplain
  · rw [hslash] at h
    rcases fileNameCharacter_of_isIdCharacter hd with ⟨hkept', hplain'⟩ | ⟨-, rfl⟩
    · exact absurd (h.trans hkept').symm hplain'
    · rfl

theorem map_fileNameCharacter_inj {s t : List Char} (hs : ∀ c ∈ s, isIdCharacter c = true)
    (ht : ∀ c ∈ t, isIdCharacter c = true)
    (h : s.map Probe.fileNameCharacter = t.map Probe.fileNameCharacter) : s = t := by
  induction s generalizing t with
  | nil => exact (List.map_eq_nil_iff.1 h.symm).symm
  | cons c s ih =>
    cases t with
    | nil => cases h
    | cons d t =>
      rw [List.forall_mem_cons] at hs ht
      rw [List.map_cons, List.map_cons, List.cons.injEq] at h
      rw [fileNameCharacter_inj hs.1 ht.1 h.1, ih hs.2 ht.2 h.2]

/-- The scripts of different scenarios go to different files. -/
theorem Probe.fileName_inj {p q : Probe} (hp : IsId p.id) (hq : IsId q.id)
    (h : p.fileName = q.fileName) : p.id = q.id := by
  have hstem : p.id.toList.map fileNameCharacter = q.id.toList.map fileNameCharacter := by
    simpa [fileName, fileStem, ← String.toList_inj] using h
  exact String.toList_inj.1 (map_fileNameCharacter_inj hp hq hstem)

/-! ## The ids of each family -/

namespace Plan

/-- What the functions with many parameters do, in the order of their scenarios. -/
def callTags : List String := ["sum", "probe", "fsum", "strtail", "nested"]

def callId (n : Nat) (tag : String) : String := "arity/" ++ (tag ++ naturalText n)

def retypingId (access : Access) (warm : Element) : String :=
  "polymorphic/" ++ access.name ++ "-from-" ++ elementTag warm

def vectorId (op : ArrayOperation) (e : Element) (n : Nat) : String :=
  "vectorized/" ++ op.name ++ "-" ++ elementTag e ++ "-len" ++ naturalText n

theorem isId_elementTag (e : Element) : IsId (elementTag e) := by
  cases e <;> decide

theorem isId_callId (n : Nat) {tag : String} (h : tag ∈ callTags) : IsId (callId n tag) := by
  have htags : ∀ tag ∈ callTags, IsId tag := by decide
  exact IsId.append (by decide) ((htags tag h).append (isId_naturalText n))

theorem isId_retypingId (access : Access) (warm : Element) : IsId (retypingId access warm) := by
  have hname : IsId access.name := by cases access <;> decide
  have hslash : IsId "polymorphic/" := by decide
  have hfrom : IsId "-from-" := by decide
  exact ((hslash.append hname).append hfrom).append (isId_elementTag warm)

theorem isId_vectorId (op : ArrayOperation) (e : Element) (n : Nat) : IsId (vectorId op e n) := by
  have hname : IsId op.name := by cases op <;> decide
  have hslash : IsId "vectorized/" := by decide
  have hdash : IsId "-" := by decide
  have hlength : IsId "-len" := by decide
  exact ((((hslash.append hname).append hdash).append (isId_elementTag e)).append hlength).append
    (isId_naturalText n)

/-- The number of parameters and what the function does can be read off the id. -/
theorem callId_inj {m n : Nat} {tag tag' : String} (htag : tag ∈ callTags)
    (htag' : tag' ∈ callTags) (h : callId m tag = callId n tag') : m = n ∧ tag = tag' := by
  have hplain : ∀ tag ∈ callTags, EndsPlainly tag.toList := by
    intro tag htag
    have hlast : ∀ tag ∈ callTags, tag.toList.getLast?.any (fun c => !c.isDigit) = true := by
      decide
    obtain ⟨c, hc, hdigit⟩ := (Option.any_eq_true _ _).1 (hlast tag htag)
    obtain ⟨start, hstart⟩ := List.getLast?_eq_some_iff.1 hc
    exact ⟨start, c, hstart, by simpa using hdigit⟩
  have hlist : tag.toList ++ Nat.toDigits 10 m = tag'.toList ++ Nat.toDigits 10 n := by
    simpa [callId, naturalText, ← String.toList_inj] using h
  obtain ⟨hsame, hn⟩ := append_toDigits_inj (hplain tag htag) (hplain tag' htag') hlist
  exact ⟨hn, String.toList_inj.1 hsame⟩

theorem elementTag_inj {e e' : Element} (h : elementTag e = elementTag e') : e = e' := by
  have hmem : ∀ e, e ∈ elements := by intro e; cases e <;> decide
  have hnodup : (elements.map elementTag).Nodup := by decide
  exact List.inj_on_of_nodup_map hnodup (hmem e) (hmem e') h

theorem operationName_inj {op op' : ArrayOperation} (h : op.name = op'.name) : op = op' := by
  have hmem : ∀ op, op ∈ ArrayOperation.all := by intro op; cases op <;> decide
  have hnodup : (ArrayOperation.all.map ArrayOperation.name).Nodup := by decide
  exact List.inj_on_of_nodup_map hnodup (hmem op) (hmem op') h

/-- The operation, the element type and the length can be read off the id, from its end: the last
two dashes stand before the length and before the element type. -/
theorem vectorId_inj {op op' : ArrayOperation} {e e' : Element} {m n : Nat}
    (h : vectorId op e m = vectorId op' e' n) : op = op' ∧ e = e' ∧ m = n := by
  have hdigits : ∀ n, '-' ∉ "len".toList ++ Nat.toDigits 10 n := by
    intro n hmem
    rcases List.mem_append.1 hmem with hmem | hmem
    · revert hmem
      decide
    · exact absurd (isDigit_of_mem_toDigits hmem) (by decide)
  have htag : ∀ e, '-' ∉ (elementTag e).toList := by intro e; cases e <;> decide
  have hlist : ("vectorized/".toList ++ op.name.toList ++ '-' :: (elementTag e).toList) ++
        '-' :: ("len".toList ++ Nat.toDigits 10 m) =
      ("vectorized/".toList ++ op'.name.toList ++ '-' :: (elementTag e').toList) ++
        '-' :: ("len".toList ++ Nat.toDigits 10 n) := by
    have hdash : "-".toList = ['-'] := rfl
    have hlen : "-len".toList = '-' :: "len".toList := rfl
    unfold vectorId at h
    rw [← String.toList_inj] at h
    simpa only [naturalText, String.toList_append, String.toList_ofList, hdash, hlen,
      List.append_assoc, List.cons_append, List.nil_append] using h
  obtain ⟨hfront, hlength⟩ := append_cons_inj hlist (hdigits m) (hdigits n)
  obtain ⟨hname, hsame⟩ := append_cons_inj hfront (htag e) (htag e')
  exact ⟨operationName_inj (String.toList_inj.1 (List.append_cancel_left hname)),
    elementTag_inj (String.toList_inj.1 hsame), toDigits_inj (List.append_cancel_left hlength)⟩

/-! ## The ids of one plan -/

/-- Rows without duplicates make a list without duplicates if what is in a row tells the row. -/
theorem nodup_flatMap_of_inj {α β : Type} {l : List α} {row : α → List β} (hl : l.Nodup)
    (hrow : ∀ a ∈ l, (row a).Nodup) (hinj : ∀ a b x, x ∈ row a → x ∈ row b → a = b) :
    (l.flatMap row).Nodup := by
  refine List.nodup_flatMap.2 ⟨hrow, hl.imp fun {a b} hne => ?_⟩
  intro x hx hx'
  exact hne (hinj a b x hx hx')

theorem nodup_arities (registerLimit : Nat) : (arities registerLimit).Nodup := by
  have hsweep : ∀ low count, (List.range' low count).Nodup := fun _ _ => List.nodup_range'
  unfold arities
  dsimp only
  split
  · exact hsweep _ _
  · next hnot =>
    split
    · exact List.nodup_cons.2 ⟨hnot, hsweep _ _⟩
    · refine List.nodup_append.2 ⟨hsweep _ _, by simp, fun n hn m hm => ?_⟩
      rw [List.mem_singleton.1 hm]
      rintro rfl
      exact hnot hn

theorem canonicalArity_mem (registerLimit : Nat) : canonicalArity ∈ arities registerLimit := by
  unfold arities
  dsimp only
  split
  · assumption
  · split <;> simp

theorem nodup_lengths {lanes : Nat} (h : 0 < lanes) : (lengths lanes).Nodup := by
  unfold lengths
  refine List.nodup_append.2 ⟨by decide, List.Nodup.filter _ ?_, fun n hn m hm => ?_⟩
  · simp only [List.nodup_cons, List.mem_cons, List.not_mem_nil, or_false, not_or,
      List.nodup_nil, not_false_eq_true, and_true]
    omega
  · have hm := of_decide_eq_true (List.mem_filter.1 hm).2
    simp only [List.mem_cons, List.not_mem_nil, or_false] at hn
    omega

def callIds (plan : Plan) : List String :=
  (arities plan.registerLimit).flatMap fun n => callTags.map (callId n)

def retypingIds : List String :=
  Access.all.flatMap fun access => rotations.map fun (warm, _) => retypingId access warm

def unwindingIds : List String :=
  ["exceptions/every-third-throw", "exceptions/finally-count", "exceptions/nested-finally-order",
    "exceptions/deep-unwind", "exceptions/rethrow", "exceptions/thrown-values",
    "exceptions/return-through-finally", "exceptions/loop-catch-sum"]

def vectorIds (plan : Plan) : List String :=
  ArrayOperation.all.flatMap fun op => elements.flatMap fun e =>
    (lengths (e.lanes plan.chunkBytes)).map fun n => vectorId op e n

def ids (plan : Plan) : List String :=
  plan.callIds ++ retypingIds ++ unwindingIds ++ plan.vectorIds

theorem nodup_callIds (plan : Plan) : plan.callIds.Nodup := by
  have htags : callTags.Nodup := by decide
  refine nodup_flatMap_of_inj (nodup_arities _) (fun n _ => ?_) fun m n id hm hn => ?_
  · exact htags.map_on fun tag htag tag' htag' h => (callId_inj htag htag' h).2
  · obtain ⟨tag, htag, rfl⟩ := List.mem_map.1 hm
    obtain ⟨tag', htag', h⟩ := List.mem_map.1 hn
    exact (callId_inj htag' htag h).1.symm

theorem nodup_vectorIds (plan : Plan) : plan.vectorIds.Nodup := by
  have hlanes : ∀ e : Element, 0 < e.lanes plan.chunkBytes := fun e =>
    Nat.lt_of_lt_of_le Nat.zero_lt_one (Nat.le_max_left _ _)
  refine nodup_flatMap_of_inj (by decide) (fun op _ => ?_) fun op op' id hid hid' => ?_
  · refine nodup_flatMap_of_inj (by decide) (fun e _ => ?_) fun e e' id hid hid' => ?_
    · exact (nodup_lengths (hlanes e)).map fun m n h => (vectorId_inj h).2.2
    · obtain ⟨m, -, rfl⟩ := List.mem_map.1 hid
      obtain ⟨n, -, h⟩ := List.mem_map.1 hid'
      exact (vectorId_inj h).2.1.symm
  · obtain ⟨e, -, hid⟩ := List.mem_flatMap.1 hid
    obtain ⟨e', -, hid'⟩ := List.mem_flatMap.1 hid'
    obtain ⟨m, -, rfl⟩ := List.mem_map.1 hid
    obtain ⟨n, -, h⟩ := List.mem_map.1 hid'
    exact (vectorId_inj h).1.symm

/-- The first character of an id tells the family. -/
theorem head_callIds {plan : Plan} {id : String} (h : id ∈ plan.callIds) :
    id.toList.head? = some 'a' := by
  obtain ⟨n, -, h⟩ := List.mem_flatMap.1 h
  obtain ⟨tag, -, rfl⟩ := List.mem_map.1 h
  simp [callId]

theorem head_vectorIds {plan : Plan} {id : String} (h : id ∈ plan.vectorIds) :
    id.toList.head? = some 'v' := by
  obtain ⟨op, -, h⟩ := List.mem_flatMap.1 h
  obtain ⟨e, -, h⟩ := List.mem_flatMap.1 h
  obtain ⟨n, -, rfl⟩ := List.mem_map.1 h
  unfold vectorId
  simp

theorem head_fixedIds : ∀ id ∈ retypingIds ++ unwindingIds,
    id.toList.head? = some 'p' ∨ id.toList.head? = some 'e' := by decide

/-- All ids of a plan are different. -/
theorem nodup_ids (plan : Plan) : plan.ids.Nodup := by
  have hfixed : (retypingIds ++ unwindingIds).Nodup := by decide
  rw [ids, List.append_assoc, List.append_assoc, ← List.append_assoc retypingIds,
    List.nodup_append]
  refine ⟨plan.nodup_callIds, List.nodup_append.2 ⟨hfixed, plan.nodup_vectorIds, ?_⟩, ?_⟩
  · rintro id hid other hother rfl
    rcases head_fixedIds id hid with h | h <;> rw [head_vectorIds hother] at h <;> cases h
  · rintro id hid other hother rfl
    have ha := head_callIds hid
    rcases List.mem_append.1 hother with hother | hother
    · rcases head_fixedIds id hother with h | h <;> rw [ha] at h <;> cases h
    · rw [head_vectorIds hother] at ha
      cases ha

theorem ne_empty_of_mem_ids {plan : Plan} {id : String} (h : id ∈ plan.ids) : id ≠ "" := by
  rintro rfl
  rw [ids, List.append_assoc, List.append_assoc, ← List.append_assoc retypingIds] at h
  rcases List.mem_append.1 h with h | h
  · cases head_callIds h
  rcases List.mem_append.1 h with h | h
  · rcases head_fixedIds "" h with h | h <;> cases h
  · cases head_vectorIds h

theorem isId_of_mem_ids {plan : Plan} {id : String} (h : id ∈ plan.ids) : IsId id := by
  rw [ids, List.mem_append, List.mem_append, List.mem_append] at h
  rcases h with ((h | h) | h) | h
  · obtain ⟨n, -, h⟩ := List.mem_flatMap.1 h
    obtain ⟨tag, htag, rfl⟩ := List.mem_map.1 h
    exact isId_callId n htag
  · obtain ⟨access, -, h⟩ := List.mem_flatMap.1 h
    obtain ⟨rotation, -, rfl⟩ := List.mem_map.1 h
    exact isId_retypingId access rotation.1
  · have hfixed : ∀ id ∈ unwindingIds, IsId id := by decide
    exact hfixed id h
  · obtain ⟨op, -, h⟩ := List.mem_flatMap.1 h
    obtain ⟨e, -, h⟩ := List.mem_flatMap.1 h
    obtain ⟨n, -, rfl⟩ := List.mem_map.1 h
    exact isId_vectorId op e n

end Plan

end TierCheck
