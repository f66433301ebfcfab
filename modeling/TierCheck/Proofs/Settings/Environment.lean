import TierCheck.CommandLine.Run
import TierCheck.Proofs.Lists
import TierCheck.Proofs.Number.Digits
import TierCheck.Proofs.Number.Nearest
import TierCheck.Proofs.Scenario.Validity

/-!
# What an environment comes to

Every variable is read by itself, and what is read replaces a default. So an environment is a set of
values that override others, and whether it gives settings depends on whether each of its texts
holds a value and whether the settings that come of it are in range. A text that holds none is a
fault of the settings, with one exception: a deadline of `2 ^ 64` seconds or more stops the program.

* `HoldsCount`, `HoldsTolerance`, `HoldsTimeout`, `HoldsSchedule`: what a text stands for.
* `Overrides.AreHeldBy`: the values that a set of texts holds, and `Settings.override`: the settings
  with them.
* `Settings.ofEnvironment_eq_ok_iff`: the settings of an environment.
* `Settings.IsUsable`: the ranges that they are in.
* `Environment.StopsAtDeadline`: when the program stops.
* `Settings.ofEnvironment_outcome`: the result, and `Settings.ofEnvironment_deadline`: an
  environment that stops the program.
-/
namespace TierCheck

/-! ## What a text stands for -/

/-- The text holds a positive number below `2 ^ 64`. -/
def HoldsCount (text : String) (n : Nat) : Prop :=
  Schedule.readGrouped? (trim text).toList = some n ∧ 0 < n

/-- The text holds a finite number that is not negative. -/
def HoldsTolerance (text : String) (x : Double) : Prop :=
  Double.read? (trim text).toList = some x ∧ x.isFinite = true ∧ Double.zero ≤ x

/-- The text holds a positive number of seconds. -/
def HoldsSeconds (text : String) (x : Double) : Prop :=
  Double.read? (trim text).toList = some x ∧ x.isFinite = true ∧ Double.zero < x

def HoldsTimeout (text : String) (t : Timespan) : Prop :=
  ∃ x, HoldsSeconds text x ∧ Timespan.ofSeconds? x = some t

def HoldsSchedule (text : String) (schedule : Schedule) : Prop :=
  Schedule.read text = .ok schedule

section

variable {key text : String}

theorem readCount_eq_ok_iff {n : Nat} : readCount key text = .ok n ↔ HoldsCount text n := by
  unfold readCount HoldsCount
  rcases Schedule.readGrouped? (trim text).toList with _ | _ | m
  · simp
  · simp only [Option.some.injEq, reduceCtorEq, false_iff, not_and]
    omega
  · simp only [Except.ok.injEq, Option.some.injEq]
    omega

theorem readTolerance_eq_ok_iff {x : Double} :
    readTolerance key text = .ok x ↔ HoldsTolerance text x := by
  unfold readTolerance HoldsTolerance
  cases Double.read? (trim text).toList with
  | none => simp
  | some y =>
    by_cases h : y.isFinite = true ∧ Double.zero ≤ y
    · simp only [if_pos h, Except.ok.injEq, Option.some.injEq]
      constructor
      · rintro rfl
        exact ⟨rfl, h⟩
      · exact And.left
    · simp only [if_neg h, reduceCtorEq, Option.some.injEq, false_iff, not_and]
      rintro rfl hfinite hle
      exact h ⟨hfinite, hle⟩

theorem readRuns_eq_ok_iff {n : Nat} :
    readRuns key text = .ok n ↔ HoldsCount text n ∧ n < wordLimit 32 := by
  unfold readRuns
  rw [bind_eq_ok_iff]
  simp only [readCount_eq_ok_iff]
  constructor
  · rintro ⟨m, hm, h⟩
    split at h
    · next hlt =>
      cases h
      exact ⟨hm, hlt⟩
    · cases h
  · rintro ⟨hn, hlt⟩
    exact ⟨n, hn, by rw [if_pos hlt]; rfl⟩

theorem readSchedule_eq_ok_iff {schedule : Schedule} :
    readSchedule text = .ok schedule ↔ HoldsSchedule text schedule :=
  mapError_eq_ok_iff

theorem readTimeout_of_holdsSeconds {x : Double} (h : HoldsSeconds text x) :
    readTimeout key text =
      match Timespan.ofSeconds? x with
      | some t => .ok t
      | none => .error .timeoutOverflow := by
  unfold readTimeout
  rw [h.1]
  exact if_pos h.2

theorem readTimeout_of_not_holdsSeconds (h : ∀ x, ¬HoldsSeconds text x) :
    readTimeout key text = .error (.invalidSetting (.notSeconds key text)) := by
  unfold readTimeout
  cases hread : Double.read? (trim text).toList with
  | none => rfl
  | some x => exact if_neg fun hx => h x ⟨hread, hx⟩

theorem readTimeout_eq_ok_iff {t : Timespan} :
    readTimeout key text = .ok t ↔ HoldsTimeout text t := by
  by_cases h : ∃ x, HoldsSeconds text x
  · obtain ⟨x, hx⟩ := h
    rw [readTimeout_of_holdsSeconds hx]
    constructor
    · intro ht
      refine ⟨x, hx, ?_⟩
      cases hspan : Timespan.ofSeconds? x <;> rw [hspan] at ht <;> cases ht
      rfl
    · rintro ⟨y, hy, ht⟩
      have hxy : x = y := Option.some.inj (hx.1.symm.trans hy.1)
      rw [hxy, ht]
  · rw [not_exists] at h
    rw [readTimeout_of_not_holdsSeconds h]
    constructor
    · intro ht
      cases ht
    · rintro ⟨x, hx, -⟩
      exact absurd hx (h x)

theorem readTimeout_eq_error {failure : Failure} (h : readTimeout key text = .error failure) :
    (∃ fault, failure = .invalidSetting fault) ∨
      failure = .timeoutOverflow ∧ ∃ x, HoldsSeconds text x ∧ Timespan.ofSeconds? x = none := by
  by_cases hseconds : ∃ x, HoldsSeconds text x
  · obtain ⟨x, hx⟩ := hseconds
    rw [readTimeout_of_holdsSeconds hx] at h
    cases hspan : Timespan.ofSeconds? x <;> rw [hspan] at h <;> cases h
    exact .inr ⟨rfl, x, hx, hspan⟩
  · rw [readTimeout_of_not_holdsSeconds (not_exists.1 hseconds)] at h
    cases h
    exact .inl ⟨_, rfl⟩

end

/-! ## Deadlines -/

namespace Double

theorem isFinite_iff {x : Double} : x.isFinite = true ↔ ∃ negative o, x = .finite negative o := by
  cases x <;> simp [isFinite]

/-- A positive number has no sign. -/
theorem negative_of_pos {negative : Bool} {o : Fin Format.binary64.overflow}
    (h : zero < finite negative o) : negative = false := by
  have hzero : zero.rank? = some 0 := by decide
  change compareRanks _ zero (finite negative o) = true at h
  unfold compareRanks at h
  rw [hzero] at h
  cases negative with
  | false => rfl
  | true =>
    simp [rank?] at h
    omega

end Double

namespace Timespan

/-- The whole seconds of a number without a sign, and the span of a number of them that fits. -/
theorem ofSeconds?_finite (o : Fin Format.binary64.overflow) :
    ∃ n : Nat, (Double.finite false o).truncate? = some (n : Int) ∧
      (ofSeconds? (.finite false o) = none ↔ wordLimit 64 ≤ n) := by
  let ratio := scaleRatio (Format.binary64.significand o) 1 (Format.binary64.exponent o)
  refine ⟨ratio.1 / ratio.2, rfl, ?_⟩
  change (if ratio.1 / ratio.2 < wordLimit 64 then _ else none) = none ↔ _
  split
  · next hlt => simpa using hlt
  · next hge => simpa using hge

theorem ofSeconds?_eq_none_iff {text : String} {x : Double} (h : HoldsSeconds text x) :
    ofSeconds? x = none ↔ ∃ n : Nat, x.truncate? = some (n : Int) ∧ wordLimit 64 ≤ n := by
  obtain ⟨-, hfinite, hpos⟩ := h
  obtain ⟨negative, o, rfl⟩ := Double.isFinite_iff.1 hfinite
  obtain rfl := Double.negative_of_pos hpos
  obtain ⟨n, hn, hnone⟩ := ofSeconds?_finite o
  rw [hnone, hn]
  constructor
  · intro hle
    exact ⟨n, rfl, hle⟩
  · rintro ⟨m, hm, hle⟩
    have hmn : n = m := Int.ofNat.inj (Option.some.inj hm)
    rwa [hmn]

/-- A deadline that fits still fits when it is rounded to nanoseconds. -/
theorem seconds_lt_of_ofSeconds? {x : Double} {t : Timespan} (h : ofSeconds? x = some t) :
    t.seconds < wordLimit 64 := by
  obtain _ | _ | ⟨_ | _, o⟩ := x
  · cases h
  · cases h
  · let f := Format.binary64
    have hlt : f.significand o < 2 * 2 ^ 52 := f.significand_lt o
    change (let ratio := scaleRatio (f.significand o) 1 (f.exponent o)
      if ratio.1 / ratio.2 < wordLimit 64 then
        some (Timespan.mk (roundHalfEven (ratio.1 * perSecond) ratio.2)) else none) = some t at h
    cases hexponent : f.exponent o with
    | ofNat s =>
      -- whole seconds are not rounded
      simp only [hexponent, scaleRatio, Nat.div_one, roundHalfEven_one] at h
      split at h
      · next hfits =>
        cases h
        rwa [seconds, Nat.mul_div_cancel _ (by decide)]
      · cases h
    | negSucc s =>
      -- and fractions leave room for one more
      have hround := roundHalfEven_le_div_add_one (f.significand o * perSecond) (1 <<< (s + 1))
      have hdiv := Nat.div_le_self (f.significand o * perSecond) (1 <<< (s + 1))
      simp only [hexponent, scaleRatio] at h
      split at h
      · cases h
        simp only [seconds, perSecond, wordLimit, Nat.pow_eq] at hround hdiv ⊢
        omega
      · cases h
  · cases h

end Timespan

/-! ## The ranges of what texts hold -/

theorem HoldsCount.lt {text : String} {n : Nat} (h : HoldsCount text n) : n < wordLimit 64 :=
  lt_of_readNatural? h.1

theorem HoldsTimeout.seconds_lt {text : String} {t : Timespan} (h : HoldsTimeout text t) :
    t.seconds < wordLimit 64 := by
  obtain ⟨x, -, hspan⟩ := h
  exact Timespan.seconds_lt_of_ofSeconds? hspan

theorem holdsSchedule_iff {text : String} {schedule : Schedule} : HoldsSchedule text schedule ↔
    List.Forall₂ (fun term checkpoint => Schedule.readTerm text term = .ok checkpoint)
      (terms isListSeparator text) schedule.checkpoints ∧ IsSchedule schedule.checkpoints := by
  unfold HoldsSchedule Schedule.read
  rw [bind_eq_ok_iff]
  simp only [mapM_eq_ok_iff]
  constructor
  · rintro ⟨checkpoints, hterms, h⟩
    split at h
    · cases h
    · obtain ⟨rfl, hschedule⟩ := Schedule.ofCheckpoints_eq_ok_iff.1 h
      exact ⟨hterms, hschedule⟩
  · rintro ⟨hterms, hschedule⟩
    refine ⟨_, hterms, ?_⟩
    rw [if_neg hschedule.nonempty]
    exact Schedule.ofCheckpoints_eq_ok_iff.2 ⟨rfl, hschedule⟩

/-- What is true of the default and of every value that a text can hold is true of the setting. -/
theorem holds_getD {α : Type} {Holds : String → α → Prop} {P : α → Prop} {text? : Option String}
    {value? : Option α} {default : α} (h : Option.Rel Holds text? value?) (hdefault : P default)
    (hvalue : ∀ {text value}, Holds text value → P value) : P (value?.getD default) := by
  cases h with
  | none => exact hdefault
  | some h => exact hvalue h

/-! ## Values that override others -/

/-- The variable that gives the same setting as the flag. -/
def Flag.key? : Flag → Option String
  | schedule => some "TIERPROBE_SCHEDULE"
  | tolerance => some "TIERPROBE_FLOAT_TOLERANCE"
  | corruptionThreshold => some "TIERPROBE_CORRUPTION_THRESHOLD"
  | timeoutSecs => some "TIERPROBE_TIMEOUT_SECS"
  | registerLimit => some "TIERPROBE_REGISTER_ARG_LIMIT"
  | chunkBytes => some "TIERPROBE_CHUNK_BYTES"
  | stabilityRuns => some "TIERPROBE_STABILITY_RUNS"
  | filter => some "TIERPROBE_FILTER"
  | advisory => some "TIERPROBE_ADVISORY"
  | sut | sutArg | profile | reportJson | list | calibrate => none

/-- The texts that an environment gives for the settings. -/
def Environment.texts (env : Environment) (flag : Flag) : Option String :=
  flag.key?.bind env.value?

/-- Each value is the one that its text holds, and there is a value where there is a text. -/
structure Overrides.AreHeldBy (o : Overrides) (texts : Flag → Option String) : Prop where
  schedule : Option.Rel HoldsSchedule (texts .schedule) o.schedule
  tolerance : Option.Rel HoldsTolerance (texts .tolerance) o.tolerance
  lengthThreshold : Option.Rel HoldsCount (texts .corruptionThreshold) o.lengthThreshold
  timeout : Option.Rel HoldsTimeout (texts .timeoutSecs) o.timeout
  registerLimit : Option.Rel HoldsCount (texts .registerLimit) o.registerLimit
  chunkBytes : Option.Rel HoldsCount (texts .chunkBytes) o.chunkBytes
  runs : Option.Rel HoldsCount (texts .stabilityRuns) o.runs
  filter : o.filter = texts .filter
  advisory : o.advisory = texts .advisory

namespace Settings

/-- The settings with the values in place of their own, whether or not they are in range. -/
def override (s : Settings) (o : Overrides) : Settings :=
  { plan :=
      { schedule := o.schedule.getD s.plan.schedule
        registerLimit := o.registerLimit.getD s.plan.registerLimit
        chunkBytes := o.chunkBytes.getD s.plan.chunkBytes }
    criteria :=
      { tolerance := o.tolerance.getD s.criteria.tolerance
        lengthThreshold := o.lengthThreshold.getD s.criteria.lengthThreshold
        timeout := o.timeout.getD s.criteria.timeout }
    runs := o.runs.getD s.runs
    filter := o.filter.or s.filter
    advisory := o.advisory.or s.advisory }

theorem check_eq_ok_iff {s : Settings} : s.check = .ok () ↔ s.fault? = none := by
  unfold check
  cases s.fault? <;> simp

section

variable {α : Type} {env : Environment} {key : String} {default value : α}
  {read : String → Except Failure α}

theorem valueOr_eq_ok_iff : valueOr env key default read = .ok value ↔
    ∃ value?, Option.Rel (fun text v => read text = .ok v) (env.value? key) value? ∧
      value = value?.getD default := by
  unfold valueOr
  cases env.value? key with
  | none =>
    constructor
    · intro h
      exact ⟨none, .none, (Except.ok.inj h).symm⟩
    · rintro ⟨_, _ | _, rfl⟩
      rfl
  | some text =>
    constructor
    · intro h
      exact ⟨some value, .some h, rfl⟩
    · rintro ⟨_, h | _, rfl⟩
      exact h

theorem valueOr_eq_error_iff {failure : Failure} :
    valueOr env key default read = .error failure ↔
      ∃ text, env.value? key = some text ∧ read text = .error failure := by
  unfold valueOr
  cases env.value? key <;> simp

end

theorem readChecked_eq_ok_iff {α : Type} {read : String → Except SettingFault α} {text : String}
    {value : α} : checked read text = .ok value ↔ read text = .ok value :=
  mapError_eq_ok_iff

/-- A number of runs fits 32 bits if it is the default or its text says so. -/
theorem rel_runs_iff {text? : Option String} {n? : Option Nat} :
    Option.Rel (fun text n => HoldsCount text n ∧ n < wordLimit 32) text? n? ↔
      Option.Rel HoldsCount text? n? ∧ n?.getD 1 < wordLimit 32 := by
  constructor
  · rintro (⟨h, hlt⟩ | _)
    · exact ⟨.some h, hlt⟩
    · exact ⟨.none, by decide⟩
  · rintro ⟨h | _, hlt⟩
    · exact .some ⟨h, hlt⟩
    · exact .none

/-- The settings of an environment are the defaults with the values of its texts, if all of its
texts hold values, the number of runs fits 32 bits and no setting is out of range. -/
theorem ofEnvironment_eq_ok_iff {env : Environment} {s : Settings} :
    ofEnvironment env = .ok s ↔
      ∃ o : Overrides, o.AreHeldBy env.texts ∧ s = ({} : Settings).override o ∧
        s.runs < wordLimit 32 ∧ s.fault? = none := by
  unfold ofEnvironment
  simp only [bind_eq_ok_iff, valueOr_eq_ok_iff, readChecked_eq_ok_iff, readCount_eq_ok_iff,
    readTolerance_eq_ok_iff, readTimeout_eq_ok_iff, readRuns_eq_ok_iff, readSchedule_eq_ok_iff,
    rel_runs_iff]
  constructor
  · rintro ⟨_, ⟨schedule, hschedule, rfl⟩, _, ⟨tolerance, htolerance, rfl⟩, _,
      ⟨lengthThreshold, hlengthThreshold, rfl⟩, _, ⟨timeout, htimeout, rfl⟩, _,
      ⟨registerLimit, hregisterLimit, rfl⟩, _, ⟨chunkBytes, hchunkBytes, rfl⟩, _,
      ⟨runs, ⟨hruns, hlt⟩, rfl⟩, _, hcheck, hs⟩
    cases hs
    refine ⟨⟨schedule, tolerance, lengthThreshold, timeout, registerLimit, chunkBytes, runs,
      env.value? "TIERPROBE_FILTER", env.value? "TIERPROBE_ADVISORY"⟩,
      ⟨hschedule, htolerance, hlengthThreshold, htimeout, hregisterLimit, hchunkBytes, hruns, rfl,
        rfl⟩, ?_, hlt, check_eq_ok_iff.1 hcheck⟩
    simp [override]
  · rintro ⟨o, h, rfl, hlt, hfault⟩
    have hfilter : o.filter = env.value? "TIERPROBE_FILTER" := h.filter
    have hadvisory : o.advisory = env.value? "TIERPROBE_ADVISORY" := h.advisory
    refine ⟨_, ⟨_, h.schedule, rfl⟩, _, ⟨_, h.tolerance, rfl⟩, _, ⟨_, h.lengthThreshold, rfl⟩, _,
      ⟨_, h.timeout, rfl⟩, _, ⟨_, h.registerLimit, rfl⟩, _, ⟨_, h.chunkBytes, rfl⟩, _,
      ⟨_, ⟨h.runs, hlt⟩, rfl⟩, (), ?_, ?_⟩
    · rw [← hfilter, ← hadvisory, check_eq_ok_iff, ← hfault]
      simp [override]
    · rw [← hfilter, ← hadvisory]
      simp [override]
      rfl

/-! ## What is wrong otherwise -/

section

variable {α : Type} {env : Environment} {key : String} {default : α}
  {read : String → Except SettingFault α} {failure : Failure}

theorem valueOr_checked_eq_error (h : valueOr env key default (checked read) = .error failure) :
    ∃ fault, failure = .invalidSetting fault := by
  obtain ⟨text, -, hread⟩ := valueOr_eq_error_iff.1 h
  obtain ⟨fault, -, hfault⟩ := mapError_eq_error_iff.1 hread
  exact ⟨fault, hfault.symm⟩

theorem valueOr_checked_ne_timeoutOverflow :
    valueOr env key default (checked read) ≠ .error .timeoutOverflow := by
  intro h
  obtain ⟨fault, hfault⟩ := valueOr_checked_eq_error h
  cases hfault

/-- A variable gives a value if its text, where there is one, holds a value. -/
theorem exists_valueOr_checked_iff {Holds : String → α → Prop}
    (hread : ∀ {text value}, read text = .ok value ↔ Holds text value) :
    (∃ value, valueOr env key default (checked read) = .ok value) ↔
      ∀ text ∈ env.value? key, ∃ value, Holds text value := by
  unfold valueOr
  cases env.value? key with
  | none => simp
  | some text =>
    simp only [readChecked_eq_ok_iff, hread, Option.mem_def, Option.some.injEq, forall_eq']

end

theorem check_eq_error {s : Settings} {failure : Failure} (h : s.check = .error failure) :
    ∃ fault, failure = .invalidSetting fault := by
  unfold check at h
  cases hfault : s.fault? <;> rw [hfault] at h <;> cases h
  exact ⟨_, rfl⟩

theorem readTimeout_eq_timeoutOverflow_iff {key text : String} :
    readTimeout key text = .error .timeoutOverflow ↔
      ∃ x, HoldsSeconds text x ∧ ∃ n : Nat, x.truncate? = some (n : Int) ∧ wordLimit 64 ≤ n := by
  constructor
  · intro h
    obtain ⟨fault, hfault⟩ | ⟨-, x, hx, hnone⟩ := readTimeout_eq_error h
    · cases hfault
    · exact ⟨x, hx, (Timespan.ofSeconds?_eq_none_iff hx).1 hnone⟩
  · rintro ⟨x, hx, hle⟩
    rw [readTimeout_of_holdsSeconds hx, (Timespan.ofSeconds?_eq_none_iff hx).2 hle]

end Settings

/-- The environment's deadline is a number of `2 ^ 64` seconds or more, and nothing that is read
before it is wrong. -/
structure Environment.StopsAtDeadline (env : Environment) : Prop where
  schedule : ∀ text ∈ env.texts .schedule, ∃ schedule, HoldsSchedule text schedule
  tolerance : ∀ text ∈ env.texts .tolerance, ∃ x, HoldsTolerance text x
  lengthThreshold : ∀ text ∈ env.texts .corruptionThreshold, ∃ n, HoldsCount text n
  timeout : ∃ text ∈ env.texts .timeoutSecs, ∃ x, HoldsSeconds text x ∧
    ∃ n : Nat, x.truncate? = some (n : Int) ∧ wordLimit 64 ≤ n

namespace Settings

theorem ofEnvironment_eq_error {env : Environment} {failure : Failure}
    (h : ofEnvironment env = .error failure) :
    (∃ fault, failure = .invalidSetting fault) ∨ failure = .timeoutOverflow := by
  unfold ofEnvironment at h
  simp only [bind_eq_error_iff] at h
  obtain h | ⟨_, -, h | ⟨_, -, h | ⟨_, -, h | ⟨_, -, h | ⟨_, -, h | ⟨_, -, h | ⟨_, -, h |
    ⟨_, -, h⟩⟩⟩⟩⟩⟩⟩⟩ := h
  · exact .inl (valueOr_checked_eq_error h)
  · exact .inl (valueOr_checked_eq_error h)
  · exact .inl (valueOr_checked_eq_error h)
  · obtain ⟨text, -, hread⟩ := valueOr_eq_error_iff.1 h
    exact (readTimeout_eq_error hread).imp_right And.left
  · exact .inl (valueOr_checked_eq_error h)
  · exact .inl (valueOr_checked_eq_error h)
  · exact .inl (valueOr_checked_eq_error h)
  · exact .inl (check_eq_error h)
  · cases h

theorem ofEnvironment_eq_timeoutOverflow_iff {env : Environment} :
    ofEnvironment env = .error .timeoutOverflow ↔ env.StopsAtDeadline := by
  have hcheck (s : Settings) : s.check ≠ .error .timeoutOverflow := by
    intro h
    obtain ⟨fault, hfault⟩ := check_eq_error h
    cases hfault
  have hpure (s : Settings) : (pure s : Except Failure Settings) ≠ .error .timeoutOverflow := nofun
  unfold ofEnvironment
  simp only [bind_eq_error_iff, valueOr_checked_ne_timeoutOverflow, hcheck, hpure, false_or,
    and_false, exists_false, or_false]
  constructor
  · rintro ⟨schedule, hschedule, tolerance, htolerance, lengthThreshold, hthreshold, htimeout⟩
    obtain ⟨text, htext, hread⟩ := valueOr_eq_error_iff.1 htimeout
    exact ⟨(exists_valueOr_checked_iff readSchedule_eq_ok_iff).1 ⟨_, hschedule⟩,
      (exists_valueOr_checked_iff readTolerance_eq_ok_iff).1 ⟨_, htolerance⟩,
      (exists_valueOr_checked_iff readCount_eq_ok_iff).1 ⟨_, hthreshold⟩,
      text, htext, readTimeout_eq_timeoutOverflow_iff.1 hread⟩
  · rintro ⟨hschedules, htolerances, hthresholds, text, htext, hseconds⟩
    obtain ⟨schedule, hschedule⟩ := (exists_valueOr_checked_iff readSchedule_eq_ok_iff).2 hschedules
    obtain ⟨tolerance, htolerance⟩ :=
      (exists_valueOr_checked_iff readTolerance_eq_ok_iff).2 htolerances
    obtain ⟨lengthThreshold, hthreshold⟩ :=
      (exists_valueOr_checked_iff readCount_eq_ok_iff).2 hthresholds
    exact ⟨schedule, hschedule, tolerance, htolerance, lengthThreshold, hthreshold,
      valueOr_eq_error_iff.2 ⟨text, htext, readTimeout_eq_timeoutOverflow_iff.2 hseconds⟩⟩

/-- Settings in range, with numbers that fit their words. -/
structure IsUsable (s : Settings) : Prop where
  schedule : IsSchedule s.plan.schedule.checkpoints
  registerLimit : 1 ≤ s.plan.registerLimit ∧ s.plan.registerLimit ≤ 64
  chunkBytes : 1 ≤ s.plan.chunkBytes ∧ s.plan.chunkBytes ≤ 4096
  tolerance : s.criteria.tolerance.isFinite = true ∧ Double.zero ≤ s.criteria.tolerance
  lengthThreshold : 0 < s.criteria.lengthThreshold ∧ s.criteria.lengthThreshold < wordLimit 64
  timeout : 0 < s.criteria.timeout.nanoseconds ∧ s.criteria.timeout.seconds < wordLimit 64
  runs : 1 ≤ s.runs ∧ s.runs < wordLimit 32

theorem fault?_eq_none_iff {s : Settings} : s.fault? = none ↔
    (s.criteria.tolerance.isFinite = true ∧ Double.zero ≤ s.criteria.tolerance) ∧
      s.criteria.lengthThreshold ≠ 0 ∧ s.criteria.timeout.nanoseconds ≠ 0 ∧ s.runs ≠ 0 ∧
      (1 ≤ s.plan.registerLimit ∧ s.plan.registerLimit ≤ highestRegisterLimit) ∧
      (1 ≤ s.plan.chunkBytes ∧ s.plan.chunkBytes ≤ highestChunkBytes) := by
  unfold fault?
  grind

theorem isUsable_of_ofEnvironment {env : Environment} {s : Settings}
    (h : ofEnvironment env = .ok s) : s.IsUsable := by
  obtain ⟨o, ho, rfl, hlt, hfault⟩ := ofEnvironment_eq_ok_iff.1 h
  obtain ⟨htolerance, hthreshold, htimeout, hruns, hregister, hchunk⟩ := fault?_eq_none_iff.1 hfault
  refine ⟨?_, hregister, hchunk, htolerance, ⟨Nat.pos_of_ne_zero hthreshold, ?_⟩,
    ⟨Nat.pos_of_ne_zero htimeout, ?_⟩, Nat.pos_of_ne_zero hruns, hlt⟩
  · exact holds_getD ho.schedule Schedule.isSchedule_standard fun h =>
      (holdsSchedule_iff.1 h).2
  · exact holds_getD ho.lengthThreshold (by decide) HoldsCount.lt
  · exact holds_getD ho.timeout (by decide) HoldsTimeout.seconds_lt

/-- **An environment gives settings in range, or is refused for a setting, or stops the program.**
Settings that are given pass their own check, which is made again whenever they change. The program
stops if and only if the deadline is too large for a time span and is read, that is, if nothing
before it is wrong. -/
theorem ofEnvironment_outcome (env : Environment) :
    (∀ s, ofEnvironment env = .ok s → s.check = .ok () ∧ s.IsUsable) ∧
    (∀ failure, ofEnvironment env = .error failure →
      (∃ fault, failure = .invalidSetting fault) ∨ failure = .timeoutOverflow) ∧
    (ofEnvironment env = .error .timeoutOverflow ↔ env.StopsAtDeadline) := by
  refine ⟨?_, fun _ => ofEnvironment_eq_error, ofEnvironment_eq_timeoutOverflow_iff⟩
  intro s h
  obtain ⟨o, -, -, -, hfault⟩ := ofEnvironment_eq_ok_iff.1 h
  exact ⟨check_eq_ok_iff.2 hfault, isUsable_of_ofEnvironment h⟩

/-- A deadline of `10 ^ 20` seconds is a positive number of seconds, but it neither gives settings
nor is refused for the setting. -/
theorem ofEnvironment_deadline :
    ofEnvironment (fun key => if key = "TIERPROBE_TIMEOUT_SECS" then some "1e20" else none) =
      .error .timeoutOverflow := by
  rfl

end Settings

end TierCheck
