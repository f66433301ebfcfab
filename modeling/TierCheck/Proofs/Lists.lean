import Mathlib.Data.List.Forall2

/-!
# Lists side by side

Much of what the library does goes along a list and gives a result for each element, and stops at
the first failure. `List.Forall₂` says which result belongs to which element; these lemmas take a
list of results apart again.

* `bind_eq_ok_iff`, `bind_eq_error_iff`: two steps, one after the other.
* `exists_of_mem_forall₂`: where a result comes from.
* `map_eq_of_forall₂`: what is the same about the elements and the results.
* `mapM_eq_ok_iff`, `exists_of_mapM_eq_error`: going along a list is doing each step, and where it
  stops.
* `lookup_eq_some`: what is found in a table.
-/
namespace TierCheck

variable {α β γ ε : Type}

theorem bind_eq_ok_iff {x : Except ε α} {f : α → Except ε β} {b : β} :
    x >>= f = .ok b ↔ ∃ a, x = .ok a ∧ f a = .ok b := by
  cases x <;> simp [bind, Except.bind]

theorem bind_eq_error_iff {x : Except ε α} {f : α → Except ε β} {e : ε} :
    x >>= f = .error e ↔ x = .error e ∨ ∃ a, x = .ok a ∧ f a = .error e := by
  cases x <;> simp [bind, Except.bind]

theorem mapError_eq_ok_iff {x : Except ε α} {f : ε → γ} {a : α} :
    x.mapError f = .ok a ↔ x = .ok a := by
  cases x <;> simp [Except.mapError]

theorem mapError_eq_error_iff {x : Except ε α} {f : ε → γ} {e : γ} :
    x.mapError f = .error e ↔ ∃ e', x = .error e' ∧ f e' = e := by
  cases x <;> simp [Except.mapError]

theorem map_eq_of_forall₂ {f : α → γ} {g : β → γ} {l : List α} {l' : List β}
    (h : List.Forall₂ (fun a b => g b = f a) l l') : l'.map g = l.map f := by
  have hmap : List.Forall₂ Eq (l'.map g) (l.map f) := by
    rw [List.forall₂_map_left_iff, List.forall₂_map_right_iff]
    exact h.flip
  rwa [List.forall₂_eq_eq_eq] at hmap

theorem exists_of_mem_forall₂ {R : α → β → Prop} {l : List α} {l' : List β}
    (h : List.Forall₂ R l l') {b : β} (hb : b ∈ l') : ∃ a ∈ l, R a b := by
  induction h with
  | nil => cases hb
  | @cons a b' l l' hab _ ih =>
    rcases List.mem_cons.1 hb with rfl | hb
    · exact ⟨a, List.mem_cons_self, hab⟩
    · obtain ⟨a', ha', hr⟩ := ih hb
      exact ⟨a', List.mem_cons_of_mem _ ha', hr⟩

theorem exists_forall₂ {R : α → β → Prop} {l : List α} (h : ∀ a ∈ l, ∃ b, R a b) :
    ∃ l', List.Forall₂ R l l' := by
  induction l with
  | nil => exact ⟨[], .nil⟩
  | cons a l ih =>
    rw [List.forall_mem_cons] at h
    obtain ⟨b, hb⟩ := h.1
    obtain ⟨l', hl'⟩ := ih h.2
    exact ⟨b :: l', .cons hb hl'⟩

theorem exists_append_of_forall₂ {R : α → β → Prop} {l m : List α} {l' : List β}
    (h : List.Forall₂ R (l ++ m) l') :
    ∃ first rest, l' = first ++ rest ∧ List.Forall₂ R l first ∧ List.Forall₂ R m rest := by
  induction l generalizing l' with
  | nil => exact ⟨[], l', rfl, .nil, h⟩
  | cons a l ih =>
    obtain ⟨b, others, hb, hothers, rfl⟩ := List.forall₂_cons_left_iff.1 h
    obtain ⟨first, rest, rfl, hfirst, hrest⟩ := ih hothers
    exact ⟨b :: first, rest, rfl, .cons hb hfirst, hrest⟩

theorem forall₂_filterMap {f : α → Option β} {R : α → β → Prop} {l : List α}
    (h : ∀ a ∈ l, ∃ b, f a = some b ∧ R a b) : List.Forall₂ R l (l.filterMap f) := by
  induction l with
  | nil => exact .nil
  | cons a l ih =>
    rw [List.forall_mem_cons] at h
    obtain ⟨b, hb, hr⟩ := h.1
    rw [List.filterMap_cons_some hb]
    exact .cons hr (ih h.2)

/-- Steps that may fail give a list of results if each of them gives its result. -/
theorem mapM_eq_ok_iff {f : α → Except ε β} {l : List α} {l' : List β} :
    l.mapM f = .ok l' ↔ List.Forall₂ (fun a b => f a = .ok b) l l' := by
  induction l generalizing l' with
  | nil =>
    rw [List.mapM_nil, List.forall₂_nil_left_iff]
    exact ⟨fun h => (Except.ok.inj h).symm, fun h => by rw [h]; rfl⟩
  | cons a l ih =>
    rw [List.mapM_cons, List.forall₂_cons_left_iff]
    cases hfirst : f a with
    | error e => simp [bind, Except.bind]
    | ok b =>
      cases hrest : l.mapM f with
      | error e =>
        rw [hrest] at ih
        simp [bind, Except.bind, ← ih]
      | ok others =>
        rw [hrest] at ih
        simp [bind, Except.bind, pure, Except.pure, ← ih, eq_comm]

/-- Steps that may fail fail together only if one of them does. -/
theorem exists_of_mapM_eq_error {f : α → Except ε β} {l : List α} {e : ε}
    (h : l.mapM f = .error e) : ∃ a ∈ l, f a = .error e := by
  induction l with
  | nil => cases h
  | cons a l ih =>
    rw [List.mapM_cons, bind_eq_error_iff] at h
    rcases h with h | ⟨b, -, h⟩
    · exact ⟨a, List.mem_cons_self, h⟩
    · rcases bind_eq_error_iff.1 h with h | ⟨others, -, h⟩
      · obtain ⟨a', ha', hfailure⟩ := ih h
        exact ⟨a', List.mem_cons_of_mem _ ha', hfailure⟩
      · cases h

/-- What was written element by element is read back if each element is. -/
theorem mapM_eq_some {read : β → Option α} {write : α → β} {l : List α}
    (h : ∀ a ∈ l, read (write a) = some a) : (l.map write).mapM read = some l := by
  induction l with
  | nil => rfl
  | cons a l ih =>
    have hrest := ih fun b hb => h b (List.mem_cons_of_mem _ hb)
    rw [List.map_cons, List.mapM_cons, h a List.mem_cons_self, hrest]
    rfl

theorem forall_of_any_eq_false {p : α → Bool} {l : List α} (h : l.any p = false) :
    ∀ a ∈ l, p a = false :=
  fun a ha => Bool.eq_false_iff.2 (List.any_eq_false.1 h a ha)

/-- What a table without duplicate keys has for a key. -/
theorem lookup_eq_some {table : List (String × α)} (h : (table.map (·.1)).Nodup) {key : String}
    {value : α} (hmem : (key, value) ∈ table) : List.lookup key table = some value := by
  induction table with
  | nil => cases hmem
  | cons entry table ih =>
    obtain ⟨first, other⟩ := entry
    obtain ⟨hfirst, htable⟩ := List.nodup_cons.1 h
    rw [List.lookup_cons]
    rcases List.mem_cons.1 hmem with heq | hrest
    · cases heq
      simp
    · have hne : key ≠ first := by
        rintro rfl
        exact hfirst (List.mem_map.2 ⟨_, hrest, rfl⟩)
      rw [beq_eq_false_iff_ne.2 hne]
      exact ih htable hrest

end TierCheck
