import TierCheck.Proofs.Settings.Environment
import TierCheck.Proofs.Text.Words

/-!
# Flags and variables

A setting can be given by a flag or by a variable, and it makes no difference which: the flags of a
command line override the settings of an environment to the same settings as their texts would in
the environment. A text is trimmed when it is read, so the only trace of where it came from are the
blanks around the two filters, which a command line keeps.

* `Spells`: the words that give flags with values.
* `CommandLine.read_eq_ok_iff`: the command line of such words.
* `Environment.withTexts`: an environment with the texts of flags in its variables.
* `Settings.ofEnvironment_withTexts_eq_ok_iff`: the settings of that environment.
* `CommandLine.gives_iff_ofEnvironment_withTexts`: the two ways come to the same.
-/
namespace TierCheck

/-! ## Words -/

namespace Flag

theorem find?_name (f : Flag) : (all.find? fun flag => flag.name = f.name) = some f := by
  cases f <;> rfl

theorem equals_notMem_name (f : Flag) : '=' ∉ f.name.toList := by
  cases f <;> decide

theorem ofWord?_attached (f : Flag) (text : String) :
    ofWord? ("--" ++ f.name ++ "=" ++ text) = some (f, some text) := by
  have hword : ("--" ++ f.name ++ "=" ++ text).toList =
      "--".toList ++ (f.name.toList ++ '=' :: text.toList) := by
    simp
  unfold ofWord?
  rw [hword, after?_append]
  simp [splitOnce?_append f.equals_notMem_name, find?_name]

theorem ofWord?_separate (f : Flag) : ofWord? ("--" ++ f.name) = some (f, none) := by
  unfold ofWord?
  rw [String.toList_append, after?_append]
  simp [splitOnce?_eq_none f.equals_notMem_name, find?_name]

theorem ne_dashes {word : String} {found : Flag × Option String} (h : ofWord? word = some found) :
    word ≠ "--" := by
  rintro rfl
  cases h

end Flag

/-- The words give the flags with their values, each value behind an equals sign or in the next
word. -/
inductive Spells : List String → List (Flag × String) → Prop where
  | nil : Spells [] []
  | attached (flag : Flag) (text : String) {words : List String} {given : List (Flag × String)}
      (rest : Spells words given) :
      Spells (("--" ++ flag.name ++ "=" ++ text) :: words) ((flag, text) :: given)
  | separate (flag : Flag) (text : String) {words : List String} {given : List (Flag × String)}
      (accepted : flag.acceptsWord text = true) (rest : Spells words given) :
      Spells (("--" ++ flag.name) :: text :: words) ((flag, text) :: given)

def textOf (given : List (Flag × String)) (flag : Flag) : Option String := given.lookup flag

/-- The text of one flag. -/
def Flag.only (flag : Flag) (text : String) (other : Flag) : Option String :=
  if other = flag then some text else none

theorem mem_of_textOf {given : List (Flag × String)} {flag : Flag} {text : String}
    (h : textOf given flag = some text) : (flag, text) ∈ given := by
  obtain ⟨before, after, rfl, -⟩ := List.lookup_eq_some_iff.1 h
  simp

/-- Different flags for settings, with values that are not blank. -/
structure GivesSettings (given : List (Flag × String)) : Prop where
  setting : ∀ g ∈ given, g.1.key?.isSome = true
  text : ∀ g ∈ given, trim g.2 ≠ ""
  distinct : (given.map (·.1)).Nodup

section

variable {given : List (Flag × String)} {flag : Flag} {text : String}

theorem GivesSettings.tail (h : GivesSettings ((flag, text) :: given)) : GivesSettings given where
  setting g hg := h.setting g (List.mem_cons_of_mem _ hg)
  text g hg := h.text g (List.mem_cons_of_mem _ hg)
  distinct := (List.nodup_cons.1 h.distinct).2

theorem GivesSettings.takesValue (h : GivesSettings given) {g : Flag × String} (hg : g ∈ given) :
    g.1.takesValue = true := by
  have hsetting := h.setting g hg
  cases hflag : g.1 <;> first | rfl | (rw [hflag] at hsetting; cases hsetting)

theorem GivesSettings.tail_notMem (h : GivesSettings ((flag, text) :: given)) {seen : List Flag}
    (hseen : ∀ g ∈ (flag, text) :: given, g.1 ∉ seen) : ∀ g ∈ given, g.1 ∉ flag :: seen := by
  intro g hg hmem
  rcases List.mem_cons.1 hmem with rfl | hmem
  · exact (List.nodup_cons.1 h.distinct).1 (List.mem_map.2 ⟨g, hg, rfl⟩)
  · exact hseen g (List.mem_cons_of_mem _ hg) hmem

theorem textOf_eq_none (h : GivesSettings ((flag, text) :: given)) : textOf given flag = none := by
  rw [textOf, List.lookup_eq_none_iff]
  intro g hg
  have hne : flag ≠ g.1 := by
    rintro rfl
    exact (List.nodup_cons.1 h.distinct).1 (List.mem_map.2 ⟨g, hg, rfl⟩)
  simpa using hne

theorem textOf_cons (h : GivesSettings ((flag, text) :: given)) (other : Flag) :
    textOf ((flag, text) :: given) other = (textOf given other).or (flag.only text other) := by
  by_cases hother : other = flag
  · subst hother
    rw [textOf_eq_none h]
    simp [textOf, Flag.only]
  · simp [textOf, Flag.only, List.lookup_cons, hother, beq_eq_false_iff_ne.2 hother]

end

namespace CommandLine

variable {c c' : CommandLine} {seen : List Flag} {flag : Flag} {text : String} {words : List String}

theorem readFrom_attached (hvalue : flag.takesValue = true) (hseen : flag ∉ seen) :
    c.readFrom seen (("--" ++ flag.name ++ "=" ++ text) :: words) =
      (do (← c.withValue flag text).readFrom (flag :: seen) words) := by
  have hword := flag.ofWord?_attached text
  rw [readFrom, if_neg (Flag.ne_dashes hword), hword]
  simp [hvalue, hseen]

theorem readFrom_separate (hvalue : flag.takesValue = true) (hseen : flag ∉ seen)
    (haccepted : flag.acceptsWord text = true) :
    c.readFrom seen (("--" ++ flag.name) :: text :: words) =
      (do (← c.withValue flag text).readFrom (flag :: seen) words) := by
  have hword := flag.ofWord?_separate
  rw [readFrom, if_neg (Flag.ne_dashes hword), hword]
  simp [hvalue, hseen, haccepted]

end CommandLine

/-! ## Values and texts -/

section

variable {α β : Type} {R : α → β → Prop} {a a' : Option α} {b b' : Option β}

theorem rel_or (h : Option.Rel R a b) (h' : Option.Rel R a' b') :
    Option.Rel R (a.or a') (b.or b') := by
  cases h with
  | none => exact h'
  | some h => exact .some h

theorem rel_unique (h : Option.Rel R a b) (h' : Option.Rel R a b')
    (hR : ∀ {x y y'}, R x y → R x y' → y = y') : b = b' := by
  cases h with
  | none => cases h'; rfl
  | some h =>
    cases h' with
    | some h' => rw [hR h h']

theorem exists_rel_iff : (∃ b, Option.Rel R a b) ↔ ∀ x ∈ a, ∃ y, R x y := by
  constructor
  · rintro ⟨_, h | _⟩
    · rintro x ⟨⟩
      exact ⟨_, h⟩
    · rintro x ⟨⟩
  · intro h
    cases a with
    | none => exact ⟨none, .none⟩
    | some x =>
      obtain ⟨y, hy⟩ := h x rfl
      exact ⟨some y, .some hy⟩

theorem rel_map_iff {f : α → α} (hR : ∀ {x y}, R (f x) y ↔ R x y) :
    Option.Rel R (a.map f) b ↔ Option.Rel R a b := by
  constructor
  · intro h
    cases a with
    | none => exact h
    | some x =>
      cases h with
      | some h => exact .some (hR.1 h)
  · rintro (h | _)
    · exact .some (hR.2 h)
    · exact .none

end

section

variable {text : String}

theorem HoldsCount.unique {m n : Nat} (hm : HoldsCount text m) (hn : HoldsCount text n) : m = n :=
  Option.some.inj (hm.1.symm.trans hn.1)

theorem HoldsTolerance.unique {x y : Double} (hx : HoldsTolerance text x)
    (hy : HoldsTolerance text y) : x = y :=
  Option.some.inj (hx.1.symm.trans hy.1)

theorem HoldsTimeout.unique {t u : Timespan} (ht : HoldsTimeout text t)
    (hu : HoldsTimeout text u) : t = u := by
  obtain ⟨x, hx, ht⟩ := ht
  obtain ⟨y, hy, hu⟩ := hu
  obtain rfl : x = y := Option.some.inj (hx.1.symm.trans hy.1)
  exact Option.some.inj (ht.symm.trans hu)

theorem HoldsSchedule.unique {schedule schedule' : Schedule} (h : HoldsSchedule text schedule)
    (h' : HoldsSchedule text schedule') : schedule = schedule' :=
  Except.ok.inj (h.symm.trans h')

theorem holdsCount_trim_iff {n : Nat} : HoldsCount (trim text) n ↔ HoldsCount text n := by
  rw [HoldsCount, HoldsCount, trim_trim]

theorem holdsTolerance_trim_iff {x : Double} :
    HoldsTolerance (trim text) x ↔ HoldsTolerance text x := by
  rw [HoldsTolerance, HoldsTolerance, trim_trim]

theorem holdsTimeout_trim_iff {t : Timespan} :
    HoldsTimeout (trim text) t ↔ HoldsTimeout text t := by
  simp only [HoldsTimeout, HoldsSeconds, trim_trim]

/-- The text of a schedule is read for complaints about a term, but a term that is read needs
none. -/
theorem readTerm_eq_ok_iff {term : String} {checkpoint : Checkpoint} (schedule schedule' : String) :
    Schedule.readTerm schedule term = .ok checkpoint ↔
      Schedule.readTerm schedule' term = .ok checkpoint := by
  unfold Schedule.readTerm
  rcases (splitOnce? '=' term.toList).getD ([], term.toList) with ⟨name, count⟩
  dsimp only
  cases Schedule.readGrouped? count <;> simp

theorem holdsSchedule_trim_iff {schedule : Schedule} :
    HoldsSchedule (trim text) schedule ↔ HoldsSchedule text schedule := by
  have hblank (c : Char) (h : isBlank c = true) : isListSeparator c = true := by
    simp [isListSeparator, h]
  simp only [holdsSchedule_iff, terms_trim hblank, readTerm_eq_ok_iff (trim text) text]

end

namespace Overrides

/-- The values of `o`, and those of `p` where `o` has none. -/
def or (o p : Overrides) : Overrides where
  schedule := o.schedule.or p.schedule
  tolerance := o.tolerance.or p.tolerance
  lengthThreshold := o.lengthThreshold.or p.lengthThreshold
  timeout := o.timeout.or p.timeout
  registerLimit := o.registerLimit.or p.registerLimit
  chunkBytes := o.chunkBytes.or p.chunkBytes
  runs := o.runs.or p.runs
  filter := o.filter.or p.filter
  advisory := o.advisory.or p.advisory

/-- The values with trimmed filters. -/
def trimmed (o : Overrides) : Overrides :=
  { o with filter := o.filter.map trim, advisory := o.advisory.map trim }

theorem or_none (o : Overrides) : o.or {} = o := by
  simp [or]

theorem or_assoc (o p q : Overrides) : (o.or p).or q = o.or (p.or q) := by
  simp [or, Option.or_assoc]

end Overrides

namespace Overrides.AreHeldBy

variable {o p : Overrides} {texts texts' : Flag → Option String}

protected theorem or (ho : o.AreHeldBy texts) (hp : p.AreHeldBy texts') :
    (o.or p).AreHeldBy fun flag => (texts flag).or (texts' flag) where
  schedule := rel_or ho.schedule hp.schedule
  tolerance := rel_or ho.tolerance hp.tolerance
  lengthThreshold := rel_or ho.lengthThreshold hp.lengthThreshold
  timeout := rel_or ho.timeout hp.timeout
  registerLimit := rel_or ho.registerLimit hp.registerLimit
  chunkBytes := rel_or ho.chunkBytes hp.chunkBytes
  runs := rel_or ho.runs hp.runs
  filter := by rw [← ho.filter, ← hp.filter, Overrides.or]
  advisory := by rw [← ho.advisory, ← hp.advisory, Overrides.or]

theorem unique (ho : o.AreHeldBy texts) (hp : p.AreHeldBy texts) : o = p := by
  cases o
  cases p
  rw [Overrides.mk.injEq]
  exact ⟨rel_unique ho.schedule hp.schedule HoldsSchedule.unique,
    rel_unique ho.tolerance hp.tolerance HoldsTolerance.unique,
    rel_unique ho.lengthThreshold hp.lengthThreshold HoldsCount.unique,
    rel_unique ho.timeout hp.timeout HoldsTimeout.unique,
    rel_unique ho.registerLimit hp.registerLimit HoldsCount.unique,
    rel_unique ho.chunkBytes hp.chunkBytes HoldsCount.unique,
    rel_unique ho.runs hp.runs HoldsCount.unique, ho.filter.trans hp.filter.symm,
    ho.advisory.trans hp.advisory.symm⟩

theorem trim (ho : o.AreHeldBy texts) :
    o.trimmed.AreHeldBy fun flag => (texts flag).map TierCheck.trim where
  schedule := (rel_map_iff holdsSchedule_trim_iff).2 ho.schedule
  tolerance := (rel_map_iff holdsTolerance_trim_iff).2 ho.tolerance
  lengthThreshold := (rel_map_iff holdsCount_trim_iff).2 ho.lengthThreshold
  timeout := (rel_map_iff holdsTimeout_trim_iff).2 ho.timeout
  registerLimit := (rel_map_iff holdsCount_trim_iff).2 ho.registerLimit
  chunkBytes := (rel_map_iff holdsCount_trim_iff).2 ho.chunkBytes
  runs := (rel_map_iff holdsCount_trim_iff).2 ho.runs
  filter := by rw [← ho.filter, trimmed]
  advisory := by rw [← ho.advisory, trimmed]

end Overrides.AreHeldBy

/-- The text holds a value for the flag. -/
def Flag.Reads (flag : Flag) (text : String) : Prop :=
  match flag with
  | schedule => ∃ schedule, HoldsSchedule text schedule
  | tolerance => ∃ x, HoldsTolerance text x
  | timeoutSecs => ∃ t, HoldsTimeout text t
  | corruptionThreshold | registerLimit | chunkBytes | stabilityRuns => ∃ n, HoldsCount text n
  | _ => True

theorem Overrides.exists_areHeldBy_iff {texts : Flag → Option String} :
    (∃ o : Overrides, o.AreHeldBy texts) ↔ ∀ flag, ∀ text ∈ texts flag, flag.Reads text := by
  constructor
  · rintro ⟨o, ho⟩ flag
    cases flag with
    | schedule => exact exists_rel_iff.1 ⟨_, ho.schedule⟩
    | tolerance => exact exists_rel_iff.1 ⟨_, ho.tolerance⟩
    | corruptionThreshold => exact exists_rel_iff.1 ⟨_, ho.lengthThreshold⟩
    | timeoutSecs => exact exists_rel_iff.1 ⟨_, ho.timeout⟩
    | registerLimit => exact exists_rel_iff.1 ⟨_, ho.registerLimit⟩
    | chunkBytes => exact exists_rel_iff.1 ⟨_, ho.chunkBytes⟩
    | stabilityRuns => exact exists_rel_iff.1 ⟨_, ho.runs⟩
    | _ => exact fun _ _ => trivial
  · intro h
    obtain ⟨schedule, hschedule⟩ := exists_rel_iff.2 (h .schedule)
    obtain ⟨tolerance, htolerance⟩ := exists_rel_iff.2 (h .tolerance)
    obtain ⟨lengthThreshold, hthreshold⟩ := exists_rel_iff.2 (h .corruptionThreshold)
    obtain ⟨timeout, htimeout⟩ := exists_rel_iff.2 (h .timeoutSecs)
    obtain ⟨registerLimit, hregisterLimit⟩ := exists_rel_iff.2 (h .registerLimit)
    obtain ⟨chunkBytes, hchunkBytes⟩ := exists_rel_iff.2 (h .chunkBytes)
    obtain ⟨runs, hruns⟩ := exists_rel_iff.2 (h .stabilityRuns)
    exact ⟨⟨schedule, tolerance, lengthThreshold, timeout, registerLimit, chunkBytes, runs,
      texts .filter, texts .advisory⟩, hschedule, htolerance, hthreshold, htimeout, hregisterLimit,
      hchunkBytes, hruns, rfl, rfl⟩

theorem Flag.reads_trim_iff {flag : Flag} {text : String} :
    flag.Reads (trim text) ↔ flag.Reads text := by
  cases flag <;>
    simp only [Reads, holdsSchedule_trim_iff, holdsTolerance_trim_iff, holdsTimeout_trim_iff,
      holdsCount_trim_iff]

/-! ## The command line of words -/

theorem readValue_eq_ok_iff {α : Type} {result : Except SettingFault α} {value : α} :
    readValue result = .ok value ↔ result = .ok value :=
  mapError_eq_ok_iff

theorem readDeadline_eq_ok_iff {text : String} {t : Timespan} :
    readDeadline text = .ok t ↔ HoldsTimeout text t :=
  mapError_eq_ok_iff.trans readTimeout_eq_ok_iff

namespace Overrides

variable {o o' : Overrides} {flag : Flag} {text : String}

/-- A value that is read is put in place of the one before. -/
theorem withValue_eq_ok (hsetting : flag.key?.isSome = true)
    (h : o.withValue flag text = .ok o') :
    ∃ p : Overrides, p.AreHeldBy (flag.only text) ∧ o' = p.or o := by
  unfold withValue at h
  cases flag with
  | schedule =>
    obtain ⟨v, hv, ⟨⟩⟩ := bind_eq_ok_iff.1 h
    have hheld := readSchedule_eq_ok_iff.1 (readValue_eq_ok_iff.1 hv)
    exact ⟨{ schedule := v },
      ⟨.some hheld, .none, .none, .none, .none, .none, .none, rfl, rfl⟩, rfl⟩
  | tolerance =>
    obtain ⟨v, hv, ⟨⟩⟩ := bind_eq_ok_iff.1 h
    have hheld := readTolerance_eq_ok_iff.1 (readValue_eq_ok_iff.1 hv)
    exact ⟨{ tolerance := v },
      ⟨.none, .some hheld, .none, .none, .none, .none, .none, rfl, rfl⟩, rfl⟩
  | corruptionThreshold =>
    obtain ⟨v, hv, ⟨⟩⟩ := bind_eq_ok_iff.1 h
    have hheld := readCount_eq_ok_iff.1 (readValue_eq_ok_iff.1 hv)
    exact ⟨{ lengthThreshold := v },
      ⟨.none, .none, .some hheld, .none, .none, .none, .none, rfl, rfl⟩, rfl⟩
  | timeoutSecs =>
    obtain ⟨v, hv, ⟨⟩⟩ := bind_eq_ok_iff.1 h
    have hheld := readDeadline_eq_ok_iff.1 hv
    exact ⟨{ timeout := v },
      ⟨.none, .none, .none, .some hheld, .none, .none, .none, rfl, rfl⟩, rfl⟩
  | registerLimit =>
    obtain ⟨v, hv, ⟨⟩⟩ := bind_eq_ok_iff.1 h
    have hheld := readCount_eq_ok_iff.1 (readValue_eq_ok_iff.1 hv)
    exact ⟨{ registerLimit := v },
      ⟨.none, .none, .none, .none, .some hheld, .none, .none, rfl, rfl⟩, rfl⟩
  | chunkBytes =>
    obtain ⟨v, hv, ⟨⟩⟩ := bind_eq_ok_iff.1 h
    have hheld := readCount_eq_ok_iff.1 (readValue_eq_ok_iff.1 hv)
    exact ⟨{ chunkBytes := v },
      ⟨.none, .none, .none, .none, .none, .some hheld, .none, rfl, rfl⟩, rfl⟩
  | stabilityRuns =>
    obtain ⟨v, hv, ⟨⟩⟩ := bind_eq_ok_iff.1 h
    have hheld := readCount_eq_ok_iff.1 (readValue_eq_ok_iff.1 hv)
    exact ⟨{ runs := v },
      ⟨.none, .none, .none, .none, .none, .none, .some hheld, rfl, rfl⟩, rfl⟩
  | filter =>
    cases h
    exact ⟨{ filter := text }, ⟨.none, .none, .none, .none, .none, .none, .none, rfl, rfl⟩, rfl⟩
  | advisory =>
    cases h
    exact ⟨{ advisory := text }, ⟨.none, .none, .none, .none, .none, .none, .none, rfl, rfl⟩, rfl⟩
  | _ => cases hsetting

theorem exists_withValue (h : flag.Reads text) : ∃ o', o.withValue flag text = .ok o' := by
  unfold withValue
  cases flag with
  | schedule =>
    obtain ⟨v, hv⟩ := h
    exact ⟨_, bind_eq_ok_iff.2 ⟨v, readValue_eq_ok_iff.2 (readSchedule_eq_ok_iff.2 hv), rfl⟩⟩
  | tolerance =>
    obtain ⟨v, hv⟩ := h
    exact ⟨_, bind_eq_ok_iff.2 ⟨v, readValue_eq_ok_iff.2 (readTolerance_eq_ok_iff.2 hv), rfl⟩⟩
  | timeoutSecs =>
    obtain ⟨v, hv⟩ := h
    exact ⟨_, bind_eq_ok_iff.2 ⟨v, readDeadline_eq_ok_iff.2 hv, rfl⟩⟩
  | corruptionThreshold | registerLimit | chunkBytes | stabilityRuns =>
    obtain ⟨v, hv⟩ := h
    exact ⟨_, bind_eq_ok_iff.2 ⟨v, readValue_eq_ok_iff.2 (readCount_eq_ok_iff.2 hv), rfl⟩⟩
  | _ => exact ⟨_, rfl⟩

theorem withValue_eq_ok_iff (hsetting : flag.key?.isSome = true) :
    o.withValue flag text = .ok o' ↔
      ∃ p : Overrides, p.AreHeldBy (flag.only text) ∧ o' = p.or o := by
  refine ⟨withValue_eq_ok hsetting, ?_⟩
  rintro ⟨p, hp, rfl⟩
  have hreads : flag.Reads text :=
    exists_areHeldBy_iff.1 ⟨p, hp⟩ flag text (by simp [Flag.only])
  obtain ⟨o', ho'⟩ := exists_withValue (o := o) hreads
  obtain ⟨p', hp', rfl⟩ := withValue_eq_ok hsetting ho'
  rw [ho', hp'.unique hp]

end Overrides

namespace CommandLine

variable {c c' : CommandLine} {seen : List Flag} {flag : Flag} {text : String} {words : List String}
  {given : List (Flag × String)}

theorem withValue_eq_ok_iff (hsetting : flag.key?.isSome = true) :
    c.withValue flag text = .ok c' ↔
      ∃ o : Overrides, o.AreHeldBy (flag.only text) ∧
        c' = { c with overrides := o.or c.overrides } := by
  have hwith : c.withValue flag text =
      (do return { c with overrides := ← c.overrides.withValue flag text }) := by
    cases flag <;> first | rfl | cases hsetting
  rw [hwith, bind_eq_ok_iff]
  simp only [Overrides.withValue_eq_ok_iff hsetting]
  constructor
  · rintro ⟨_, ⟨o, ho, rfl⟩, ⟨⟩⟩
    exact ⟨o, ho, rfl⟩
  · rintro ⟨o, ho, rfl⟩
    exact ⟨_, ⟨o, ho, rfl⟩, rfl⟩

/-- The first flag and the others: later values come before earlier ones, but no flag is given
twice. -/
theorem bind_readFrom_eq_ok_iff (hgiven : GivesSettings ((flag, text) :: given))
    (hrest : ∀ c, readFrom c (flag :: seen) words = .ok c' ↔
      ∃ o : Overrides, o.AreHeldBy (textOf given) ∧
        c' = { c with overrides := o.or c.overrides }) :
    (do readFrom (← c.withValue flag text) (flag :: seen) words) = .ok c' ↔
      ∃ o : Overrides, o.AreHeldBy (textOf ((flag, text) :: given)) ∧
        c' = { c with overrides := o.or c.overrides } := by
  have htexts : textOf ((flag, text) :: given) =
      fun other => (textOf given other).or (flag.only text other) :=
    funext (textOf_cons hgiven)
  rw [htexts, bind_eq_ok_iff]
  simp only [withValue_eq_ok_iff (hgiven.setting _ List.mem_cons_self), hrest]
  constructor
  · rintro ⟨_, ⟨p, hp, rfl⟩, o, ho, rfl⟩
    exact ⟨o.or p, ho.or hp, by rw [o.or_assoc]⟩
  · rintro ⟨q, hq, rfl⟩
    have hreads := Overrides.exists_areHeldBy_iff.1 ⟨q, hq⟩
    obtain ⟨o, ho⟩ : ∃ o : Overrides, o.AreHeldBy (textOf given) := by
      refine Overrides.exists_areHeldBy_iff.2 fun other text htext => hreads other text ?_
      rw [Option.mem_def] at htext ⊢
      rw [htext, Option.some_or]
    obtain ⟨p, hp⟩ : ∃ p : Overrides, p.AreHeldBy (flag.only text) := by
      refine Overrides.exists_areHeldBy_iff.2 fun other text' htext => hreads other text' ?_
      have hother : other = flag := by
        by_contra hne
        simp [Flag.only, hne] at htext
      subst hother
      rw [Option.mem_def] at htext ⊢
      rw [textOf_eq_none hgiven, Option.none_or, htext]
    obtain rfl := (ho.or hp).unique hq
    exact ⟨_, ⟨p, hp, rfl⟩, o, ho, by rw [o.or_assoc]⟩

/-- Words that give different flags for settings are read if all values can be, and they are read as
those values. -/
theorem readFrom_eq_ok_iff (hwords : Spells words given) (hgiven : GivesSettings given)
    (hseen : ∀ g ∈ given, g.1 ∉ seen) : c.readFrom seen words = .ok c' ↔
      ∃ o : Overrides, o.AreHeldBy (textOf given) ∧
        c' = { c with overrides := o.or c.overrides } := by
  induction hwords generalizing c seen with
  | nil =>
    have hheld : ({} : Overrides).AreHeldBy (textOf []) :=
      ⟨.none, .none, .none, .none, .none, .none, .none, rfl, rfl⟩
    constructor
    · rintro ⟨⟩
      exact ⟨{}, hheld, rfl⟩
    · rintro ⟨o, ho, rfl⟩
      rw [ho.unique hheld]
      rfl
  | attached flag text _ ih =>
    rw [readFrom_attached (hgiven.takesValue List.mem_cons_self) (hseen _ List.mem_cons_self)]
    exact bind_readFrom_eq_ok_iff hgiven fun c => ih hgiven.tail (hgiven.tail_notMem hseen)
  | separate flag text haccepted _ ih =>
    rw [readFrom_separate (hgiven.takesValue List.mem_cons_self) (hseen _ List.mem_cons_self)
      haccepted]
    exact bind_readFrom_eq_ok_iff hgiven fun c => ih hgiven.tail (hgiven.tail_notMem hseen)

theorem read_eq_ok_iff (hwords : Spells words given) (hgiven : GivesSettings given) :
    read words = .ok c' ↔
      ∃ o : Overrides, o.AreHeldBy (textOf given) ∧ c' = { overrides := o } := by
  rw [read, readFrom_eq_ok_iff hwords hgiven fun _ _ => List.not_mem_nil]
  simp only [Overrides.or_none]

end CommandLine

/-! ## The settings of a command line -/

/-- The settings without blanks around the filters. -/
def Settings.trimmed (s : Settings) : Settings :=
  { s with filter := s.filter.map trim, advisory := s.advisory.map trim }

/-- The settings have the same value for the flag. -/
def Settings.AgreesAt (s : Settings) (flag : Flag) (s' : Settings) : Prop :=
  match flag with
  | .schedule => s.plan.schedule = s'.plan.schedule
  | .tolerance => s.criteria.tolerance = s'.criteria.tolerance
  | .corruptionThreshold => s.criteria.lengthThreshold = s'.criteria.lengthThreshold
  | .timeoutSecs => s.criteria.timeout = s'.criteria.timeout
  | .registerLimit => s.plan.registerLimit = s'.plan.registerLimit
  | .chunkBytes => s.plan.chunkBytes = s'.plan.chunkBytes
  | .stabilityRuns => s.runs = s'.runs
  | .filter => s.filter = s'.filter
  | .advisory => s.advisory = s'.advisory
  | _ => True

theorem Overrides.apply_eq (o : Overrides) (s : Settings) :
    o.apply s = if wordLimit 32 ≤ (s.override o).runs then .error .tooManyRuns else
      (do (s.override o).check.mapError .run; return s.override o) :=
  rfl

theorem Overrides.apply_eq_ok_iff {o : Overrides} {s s' : Settings} : o.apply s = .ok s' ↔
    s' = s.override o ∧ s'.runs < wordLimit 32 ∧ s'.fault? = none := by
  rw [apply_eq]
  split
  · next hle =>
    simp only [reduceCtorEq, false_iff]
    rintro ⟨rfl, hlt, -⟩
    omega
  · next hlt =>
    rw [bind_eq_ok_iff]
    simp only [mapError_eq_ok_iff]
    constructor
    · rintro ⟨_, hcheck, ⟨⟩⟩
      exact ⟨rfl, Nat.lt_of_not_le hlt, Settings.check_eq_ok_iff.1 hcheck⟩
    · rintro ⟨rfl, -, hfault⟩
      exact ⟨(), Settings.check_eq_ok_iff.2 hfault, rfl⟩

theorem Overrides.apply_eq_error {o : Overrides} {s : Settings} {failure : CommandFailure}
    (h : o.apply s = .error failure) :
    failure = .tooManyRuns ∨ ∃ fault, failure = .run (.invalidSetting fault) := by
  rw [apply_eq] at h
  split at h
  · exact .inl (Except.error.inj h).symm
  · rcases bind_eq_error_iff.1 h with h | ⟨_, -, h⟩
    · obtain ⟨other, hcheck, rfl⟩ := mapError_eq_error_iff.1 h
      obtain ⟨fault, rfl⟩ := Settings.check_eq_error hcheck
      exact .inr ⟨fault, rfl⟩
    · cases h

theorem Settings.override_override (s : Settings) (o p : Overrides) :
    (s.override p).override o = s.override (o.or p) := by
  simp [override, Overrides.or, Option.or_assoc, Option.getD_or]

/-- The variable of a setting's flag. -/
def Flag.ofKey? (key : String) : Option Flag := all.find? fun flag => flag.key? = some key

theorem Flag.ofKey?_key (flag : Flag) {key : String} (h : flag.key? = some key) :
    ofKey? key = some flag := by
  cases flag <;> cases h <;> rfl

/-- The environment with texts in the variables of their flags. -/
def Environment.withTexts (env : Environment) (texts : Flag → Option String) : Environment :=
  fun key => ((Flag.ofKey? key).bind texts).or (env key)

theorem Environment.texts_withTexts {env : Environment} {given : List (Flag × String)}
    (hgiven : GivesSettings given) (flag : Flag) : (env.withTexts (textOf given)).texts flag =
      ((textOf given flag).map trim).or (env.texts flag) := by
  unfold texts
  cases hkey : flag.key? with
  | none =>
    have hnone : textOf given flag = none := by
      rw [textOf, List.lookup_eq_none_iff]
      intro g hg
      have hsetting := hgiven.setting g hg
      have hne : flag ≠ g.1 := by
        rintro rfl
        rw [hkey] at hsetting
        cases hsetting
      simpa using hne
    rw [hnone]
    rfl
  | some key =>
    have hflag := flag.ofKey?_key hkey
    simp only [Option.bind_some, value?, withTexts, hflag]
    cases htext : textOf given flag with
    | none => rfl
    | some text =>
      have hne : trim text ≠ "" := hgiven.text (flag, text) (mem_of_textOf htext)
      simp [hne]

/-- The texts of an environment are trimmed. -/
theorem Environment.map_trim_texts (env : Environment) (flag : Flag) :
    (env.texts flag).map trim = env.texts flag := by
  unfold texts
  cases flag.key? with
  | none => rfl
  | some key =>
    simp only [Option.bind_some, value?]
    cases env key with
    | none => rfl
    | some text => by_cases htext : trim text = "" <;> simp [Option.filter, htext, trim_trim]

theorem Settings.ofEnvironment_withTexts_eq_ok_iff {env : Environment} {base s' : Settings}
    {given : List (Flag × String)} (hbase : ofEnvironment env = .ok base)
    (hgiven : GivesSettings given) : ofEnvironment (env.withTexts (textOf given)) = .ok s' ↔
      ∃ o : Overrides, o.AreHeldBy (textOf given) ∧ s' = (base.override o).trimmed ∧
        s'.runs < wordLimit 32 ∧ s'.fault? = none := by
  obtain ⟨b, hb, rfl, -, -⟩ := ofEnvironment_eq_ok_iff.1 hbase
  have htexts : (env.withTexts (textOf given)).texts =
      fun flag => ((textOf given flag).map trim).or (env.texts flag) :=
    funext (Environment.texts_withTexts hgiven)
  rw [ofEnvironment_eq_ok_iff, htexts]
  have hsettings (o : Overrides) : ({} : Settings).override (o.trimmed.or b) =
      ((({} : Settings).override b).override o).trimmed := by
    rw [override_override]
    have hfilter : b.filter.map trim = b.filter := by rw [hb.filter, env.map_trim_texts]
    have hadvisory : b.advisory.map trim = b.advisory := by rw [hb.advisory, env.map_trim_texts]
    simp [override, trimmed, Overrides.or, Overrides.trimmed, Option.map_or, hfilter, hadvisory]
  constructor
  · rintro ⟨p, hp, rfl, h⟩
    have hreads := Overrides.exists_areHeldBy_iff.1 ⟨p, hp⟩
    obtain ⟨o, ho⟩ : ∃ o : Overrides, o.AreHeldBy (textOf given) := by
      refine Overrides.exists_areHeldBy_iff.2 fun flag text htext => ?_
      rw [← Flag.reads_trim_iff]
      refine hreads flag (trim text) ?_
      rw [Option.mem_def] at htext ⊢
      rw [htext, Option.map_some, Option.some_or]
    obtain rfl := (ho.trim.or hb).unique hp
    exact ⟨o, ho, hsettings o, h⟩
  · rintro ⟨o, ho, rfl, h⟩
    exact ⟨o.trimmed.or b, ho.trim.or hb, (hsettings o).symm, h⟩

/-- The words give the settings in the environment. -/
def CommandLine.Gives (words : List String) (env : Environment) (s : Settings) : Prop :=
  ∃ c, CommandLine.read words = .ok c ∧ c.settings env = .ok s

theorem CommandLine.gives_iff {env : Environment} {base s : Settings}
    {given : List (Flag × String)} {words : List String}
    (hbase : Settings.ofEnvironment env = .ok base) (hgiven : GivesSettings given)
    (hwords : Spells words given) : Gives words env s ↔
      ∃ o : Overrides, o.AreHeldBy (textOf given) ∧ s = base.override o ∧
        s.runs < wordLimit 32 ∧ s.fault? = none := by
  unfold Gives
  simp only [read_eq_ok_iff hwords hgiven, settings, hbase]
  constructor
  · rintro ⟨_, ⟨o, ho, rfl⟩, h⟩
    exact ⟨o, ho, Overrides.apply_eq_ok_iff.1 h⟩
  · rintro ⟨o, ho, h⟩
    exact ⟨_, ⟨o, ho, rfl⟩, Overrides.apply_eq_ok_iff.2 h⟩

theorem Overrides.AreHeldBy.agreesAt {o : Overrides} {texts : Flag → Option String} {s : Settings}
    {flag : Flag} (h : o.AreHeldBy texts) (hnone : texts flag = none) :
    (s.override o).AgreesAt flag s := by
  have hvalue {α : Type} {Holds : String → α → Prop} {value? : Option α} (default : α)
      (hheld : Option.Rel Holds (texts flag) value?) : value?.getD default = default := by
    rw [hnone] at hheld
    cases hheld
    rfl
  cases flag with
  | schedule => exact hvalue _ h.schedule
  | tolerance => exact hvalue _ h.tolerance
  | corruptionThreshold => exact hvalue _ h.lengthThreshold
  | timeoutSecs => exact hvalue _ h.timeout
  | registerLimit => exact hvalue _ h.registerLimit
  | chunkBytes => exact hvalue _ h.chunkBytes
  | stabilityRuns => exact hvalue _ h.runs
  | filter => simp [Settings.AgreesAt, Settings.override, h.filter, hnone]
  | advisory => simp [Settings.AgreesAt, Settings.override, h.advisory, hnone]
  | _ => trivial

theorem Settings.AgreesAt.trimmed {s s' : Settings} {flag : Flag} (h : s.AgreesAt flag s') :
    s.trimmed.AgreesAt flag s'.trimmed := by
  cases flag with
  | filter => exact congrArg (Option.map trim) h
  | advisory => exact congrArg (Option.map trim) h
  | _ => exact h

theorem Settings.trimmed_of_ofEnvironment {env : Environment} {s : Settings}
    (h : ofEnvironment env = .ok s) : s.trimmed = s := by
  obtain ⟨o, ho, rfl, -, -⟩ := ofEnvironment_eq_ok_iff.1 h
  simp [trimmed, override, ho.filter, ho.advisory, env.map_trim_texts]

/-- **It makes no difference whether a setting is given by a flag or by a variable.** In an
environment that gives settings, words that spell out different flags for settings, with values that
are not blank, give settings if and only if the environment with the same texts in the variables
does, and they are the same settings but for blanks around the filters. What is not given stays as
it was. -/
theorem CommandLine.gives_iff_ofEnvironment_withTexts {env : Environment} {base : Settings}
    {given : List (Flag × String)} {words : List String}
    (hbase : Settings.ofEnvironment env = .ok base) (hgiven : GivesSettings given)
    (hwords : Spells words given) :
    (∀ s', Settings.ofEnvironment (env.withTexts (textOf given)) = .ok s' ↔
      ∃ s, CommandLine.Gives words env s ∧ s' = s.trimmed) ∧
    ∀ s, CommandLine.Gives words env s → ∀ flag, textOf given flag = none →
      s.AgreesAt flag base ∧ s.trimmed.AgreesAt flag base := by
  constructor
  · intro s'
    rw [Settings.ofEnvironment_withTexts_eq_ok_iff hbase hgiven]
    simp only [gives_iff hbase hgiven hwords]
    constructor
    · rintro ⟨o, ho, rfl, h⟩
      exact ⟨_, ⟨o, ho, rfl, h⟩, rfl⟩
    · rintro ⟨_, ⟨o, ho, rfl, h⟩, rfl⟩
      exact ⟨o, ho, rfl, h⟩
  · intro s hs flag hnone
    obtain ⟨o, ho, rfl, -⟩ := (gives_iff hbase hgiven hwords).1 hs
    have hagrees : (base.override o).trimmed.AgreesAt flag base.trimmed :=
      (ho.agreesAt hnone).trimmed
    rw [Settings.trimmed_of_ofEnvironment hbase] at hagrees
    exact ⟨ho.agreesAt hnone, hagrees⟩

/-- Two flags, one with its value behind an equals sign and the other before a value with a blank in
front, in an environment that gives a deadline. -/
theorem CommandLine.gives_runs_and_filter :
    let env : Environment := fun key => if key = "TIERPROBE_TIMEOUT_SECS" then some "2.5" else none
    let texts := textOf [(.stabilityRuns, "3"), (.filter, " id:arity/sum7")]
    ∃ s, CommandLine.Gives ["--stability-runs=3", "--filter", " id:arity/sum7"] env s ∧
      Settings.ofEnvironment (env.withTexts texts) = .ok s.trimmed ∧
      s.AgreesAt .timeoutSecs { criteria := { timeout := ⟨2500000000⟩ } } := by
  intro env texts
  have hbase : Settings.ofEnvironment env = .ok { criteria := { timeout := ⟨2500000000⟩ } } := by
    decide +kernel
  have hgiven : GivesSettings [(.stabilityRuns, "3"), (.filter, " id:arity/sum7")] :=
    ⟨by decide, by decide, by decide⟩
  have hwords : Spells ["--stability-runs=3", "--filter", " id:arity/sum7"]
      [(.stabilityRuns, "3"), (.filter, " id:arity/sum7")] :=
    .attached .stabilityRuns "3" (.separate .filter " id:arity/sum7" (by decide) .nil)
  obtain ⟨hsame, hothers⟩ :=
    CommandLine.gives_iff_ofEnvironment_withTexts hbase hgiven hwords
  have hvariables : Settings.ofEnvironment (env.withTexts texts) =
      .ok { criteria := { timeout := ⟨2500000000⟩ }, runs := 3, filter := "id:arity/sum7" } := by
    decide +kernel
  obtain ⟨s, hs, -⟩ := (hsame _).1 hvariables
  exact ⟨s, hs, (hsame _).2 ⟨s, hs, rfl⟩, (hothers s hs .timeoutSecs (by decide)).1⟩

end TierCheck
