import Mathlib.Algebra.Group.Action.Defs
import TierCheck.Proofs.Catalog.Standard
import TierCheck.Proofs.Run.Soundness
import TierCheck.Proofs.Script.Expression
import TierCheck.Settings

/-!
# A string behind integers

One of the functions with many parameters puts its last argument in front of the sum of the others.
Its source says so, and so does its reference, but they are written apart: the source adds the
parameters from the first one on and has a zero where there are none, and the reference starts with
negative zero. The two agree unless every integer is negative zero, which is also so where there is
no integer at all.

* `tailExpression`, `readDefinition?_stringTail`: what the source says.
* `call?_stringTail`: what a call of the function gives.
* `stringTail_eq`: what the reference gives.
* `stringTail_agrees`: where they agree.
-/
namespace TierCheck.Plan

open Script

/-! ## The source -/

/-- Parameters added up from the first one on, and a zero for none. -/
def sumOf : List String → Expression
  | [] => .natural 0
  | first :: rest =>
    rest.foldl (fun sum name => .add sum (.parameter name)) (.parameter first)

/-- The last parameter, a colon, and the sum of the others. -/
def tailExpression (n : Nat) : Expression :=
  .add (.add (.parameter (parameterName (n - 1))) (.literal ":"))
    (.group (sumOf (parameterNames (n - 1))))

theorem isFunctionName_parameterName (place : Nat) :
    isFunctionName (parameterName place) = true :=
  isFunctionName_append_naturalText (by decide) _

theorem isFunctionName_of_mem_parameterNames {n : Nat} {name : String}
    (h : name ∈ parameterNames n) : isFunctionName name = true := by
  obtain ⟨place, -, rfl⟩ := List.mem_map.1 h
  exact isFunctionName_parameterName place

theorem isReadable_sumOf {names : List String} (h : ∀ name ∈ names, isFunctionName name = true) :
    IsReadable (sumOf names) := by
  cases names with
  | nil => exact .natural 0
  | cons first rest =>
    rw [List.forall_mem_cons] at h
    have hfold : ∀ (rest : List String) (e : Expression), IsReadable e →
        (∀ name ∈ rest, isFunctionName name = true) →
        IsReadable (rest.foldl (fun sum name => .add sum (.parameter name)) e) := by
      intro rest
      induction rest with
      | nil => exact fun _ he _ => he
      | cons name rest ih =>
        intro e he h
        rw [List.forall_mem_cons] at h
        exact ih _ (.add he (.parameter h.1) rfl) h.2
    exact hfold rest _ (.parameter h.1) h.2

theorem isReadable_tailExpression (n : Nat) : IsReadable (tailExpression n) :=
  .add
    (.add (.parameter (isFunctionName_parameterName _))
      (.literal (List.all_eq_true.1 (by decide))) rfl)
    (.group (isReadable_sumOf fun _ => isFunctionName_of_mem_parameterNames)) rfl

/-- Terms that are added to an expression stand behind it. -/
theorem text_foldl_add (names : List String) (e : Expression) :
    (names.foldl (fun sum name => .add sum (.parameter name)) e).text =
      " + ".intercalate (e.text :: names) := by
  induction names generalizing e with
  | nil => simp
  | cons name rest ih =>
    rw [List.foldl_cons, ih, Expression.text, String.intercalate_cons_cons]
    cases rest with
    | nil => simp [Expression.text]
    | cons next rest => simp [String.intercalate_cons_cons, Expression.text, String.append_assoc]

theorem text_sumOf (m : Nat) :
    (sumOf (parameterNames m)).text = if m = 0 then "0" else sumCode m := by
  cases m with
  | zero => decide
  | succ m =>
    have hnames : parameterNames (m + 1) = parameterName 0 :: (parameterNames (m + 1)).tail := by
      simp [parameterNames, List.range_succ_eq_map]
    rw [if_neg (Nat.succ_ne_zero m), sumCode, hnames, sumOf, text_foldl_add]
    rfl

variable (plan : Plan)

theorem source_stringTailDraft {n : Nat} (hn : 1 ≤ n) : (plan.stringTailDraft n).source =
    "function " ++ ("strtail" ++ naturalText n) ++ "(" ++ ", ".intercalate (parameterNames n) ++
      ") \x7b" ++ "\n" ++ ("  return " ++ (tailExpression n).text ++ ";" ++ "\n" ++ "\x7d") := by
  have htotal : (sumOf (parameterNames (n - 1))).text =
      if n ≤ 1 then "0" else sumCode (n - 1) := by
    rw [text_sumOf]
    refine if_congr ?_ rfl rfl
    omega
  rw [stringTailDraft, tailExpression, Expression.text, Expression.text, Expression.text,
    Expression.text, Expression.text, htotal]
  simp only [returning, Code.block, Code.chain, Code.chainRest, Code.indent, Code.joined,
    List.map_cons, List.map_nil, List.singleton_append, String.intercalate_cons_cons,
    String.intercalate_singleton, parameterList, ← String.toList_inj, String.toList_append,
    List.append_assoc]
  rfl

theorem readDefinition?_stringTail {n : Nat} (hn : 1 ≤ n) :
    readDefinition? (plan.stringTailDraft n).source =
      some ⟨"strtail" ++ naturalText n, parameterNames n, tailExpression n⟩ := by
  rw [source_stringTailDraft plan hn]
  refine readDefinition?_text (isFunctionName_append_naturalText (by decide) n)
    (fun name hname => ?_) (isReadable_tailExpression n)
  have hvalid := isFunctionName_of_mem_parameterNames hname
  obtain ⟨hne, hchars⟩ := isNameCharacter_of_isFunctionName hvalid
  refine ⟨⟨fun hempty => hne (by rw [hempty]; rfl), fun c hc => ?_⟩,
    isOneLine_of_isFunctionName hvalid⟩
  have hplain := hchars c hc
  constructor <;> rintro rfl <;> revert hplain <;> decide

/-! ## A call of the function -/

theorem nodup_parameterNames (n : Nat) : (parameterNames n).Nodup := by
  refine List.Nodup.map (fun i j h => ?_) List.nodup_range
  have hdigits : 'p' :: Nat.toDigits 10 (i + 1) = 'p' :: Nat.toDigits 10 (j + 1) := by
    simpa [parameterName, naturalText, ← String.toList_inj] using h
  exact Nat.succ.inj (toDigits_inj (List.cons.inj hdigits).2)

/-- A parameter has the argument at its place. -/
theorem lookup_parameterName {arguments : List Value} {place : Nat} {v : Value}
    (h : arguments[place]? = some v) :
    List.lookup (parameterName place) ((parameterNames arguments.length).zip arguments) =
      some v := by
  have hlength : (parameterNames arguments.length).length = arguments.length := by
    simp [parameterNames]
  refine lookup_eq_some ?_ ?_
  · rw [List.map_fst_zip hlength.le]
    exact nodup_parameterNames _
  · have hplace : place < arguments.length := (List.getElem?_eq_some_iff.1 h).1
    refine List.mem_of_getElem? (i := place) (List.getElem?_zip_eq_some.2 ⟨?_, h⟩)
    simp [parameterNames, hplace]

variable {lookup : String → Option Value} {names : List String} {integers : List Double}
  {values : List Int}

theorem value?_foldl_add
    (hlookup : List.Forall₂ (fun name d => lookup name = some (.number d)) names integers)
    {e : Expression} {start : Double} (he : e.value? lookup = some (.number start)) :
    (names.foldl (fun sum name => .add sum (.parameter name)) e).value? lookup =
      some (.number (integers.foldl (· + ·) start)) := by
  induction hlookup generalizing e start with
  | nil => exact he
  | @cons name d names integers hname _ ih =>
    refine ih ?_
    rw [Expression.value?, he, Expression.value?, hname]
    rfl

/-- The parameters add up to the sum of the integers. -/
theorem value?_sumOf
    (hlookup : List.Forall₂ (fun name d => lookup name = some (.number d)) names integers)
    (hvalues : List.Forall₂ (fun d (n : Int) => d.StandsFor n) integers values)
    (hbound : ∀ k, |(values.take k).sum| ≤ 2 ^ 53) :
    ∃ total, (sumOf names).value? lookup = some (.number total) ∧
      total.StandsFor values.sum := by
  cases hlookup with
  | nil =>
    cases hvalues
    exact ⟨Double.ofNat 0, rfl, by simpa using Double.standsFor_ofNat (n := 0) (by norm_num)⟩
  | cons hname hnames =>
    cases hvalues with
    | @cons _ first _ rest hfirst hrest =>
      have hsum := (Double.foldl_add hrest hfirst fun k => by simpa using hbound (k + 1)).1
      exact ⟨_, value?_foldl_add hnames hname, by rwa [List.sum_cons]⟩

/-- The arguments: integers, and a string behind them. -/
def tailArguments (integers : List Double) (s : String) : List Value :=
  integers.map .number ++ [.string s]

/-- The function puts the string in front of the sum. -/
theorem call?_tailExpression
    (hvalues : List.Forall₂ (fun d (n : Int) => d.StandsFor n) integers values)
    (hbound : ∀ k, |(values.take k).sum| ≤ 2 ^ 53) (name s : String) :
    Definition.call? ⟨name, parameterNames (integers.length + 1),
      tailExpression (integers.length + 1)⟩ (tailArguments integers s) =
        some (.string (s ++ ":" ++ integerText values.sum)) := by
  have hlength : (tailArguments integers s).length = integers.length + 1 := by
    simp [tailArguments]
  have hlast : (tailArguments integers s)[integers.length]? = some (.string s) := by
    simp [tailArguments]
  have hlookup : List.Forall₂ (fun name d =>
      List.lookup name ((parameterNames (integers.length + 1)).zip (tailArguments integers s)) =
        some (.number d)) (parameterNames integers.length) integers := by
    rw [List.forall₂_iff_get]
    refine ⟨by simp [parameterNames], fun place hplace hplace' => ?_⟩
    have hargument : (tailArguments integers s)[place]? = some (.number integers[place]) := by
      simp [tailArguments, List.getElem?_append, hplace']
    simpa [hlength, parameterNames] using lookup_parameterName hargument
  obtain ⟨total, htotal, hstands⟩ := value?_sumOf hlookup hvalues hbound
  have hsum : |values.sum| ≤ 2 ^ 53 := by simpa using hbound values.length
  have hprinted := Double.printed_of_integer hstands hsum
  have htail := lookup_parameterName hlast
  rw [hlength] at htail
  rw [Definition.call?, tailExpression, Expression.value?, Expression.value?, Expression.value?,
    Expression.value?, Expression.value?, Nat.add_sub_cancel, htail, htotal, ← hprinted]
  rfl

/-! ## The reference -/

/-- The reference shows the sign of the sum of negative zeros. -/
theorem stringTail_eq
    (hvalues : List.Forall₂ (fun d (n : Int) => d.StandsFor n) integers values)
    (hbound : ∀ k, |(values.take k).sum| ≤ 2 ^ 53) (s : String) :
    stringTail (tailArguments integers s) = .string (s ++ ":" ++
      if integers.all (· = Double.negZero) then "-0" else integerText values.sum) := by
  have hnumbers : (integers.map Value.number).map numberOf = integers := by
    rw [List.map_map]
    exact List.map_id _
  have hsum : |values.sum| ≤ 2 ^ 53 := by simpa using hbound values.length
  have hnegative : Double.negZero.text = "-0" := by decide
  rw [stringTail, tailArguments, List.getLast?_concat, List.dropLast_concat, plainSum, hnumbers,
    Double.sum_of_integers hvalues hbound]
  dsimp only
  split
  · rw [hnegative]
    rfl
  · rw [Double.text_ofInt hsum]
    rfl

/-- The text of an integer shows no sign of a zero. -/
theorem integerText_ne_negative_zero (n : Int) : integerText n ≠ "-0" := by
  intro h
  have hlist : (integerText n).toList = ['-', '0'] := by
    rw [h]
    rfl
  unfold integerText at hlist
  split at hlist
  · next hneg =>
    have hdigits : Nat.toDigits 10 n.natAbs = Nat.toDigits 10 0 := by
      simpa [naturalText] using hlist
    have := toDigits_inj hdigits
    omega
  · have hmem : '-' ∈ Nat.toDigits 10 n.natAbs := by
      have hdigits : Nat.toDigits 10 n.natAbs = ['-', '0'] := by simpa [naturalText] using hlist
      rw [hdigits]
      exact List.mem_cons_self
    cases isDigit_of_mem_toDigits hmem

theorem agrees_iff {integers : List Double} {n : Int} {s : String} :
    s ++ ":" ++ integerText n = (s ++ ":" ++
      if integers.all (· = Double.negZero) then "-0" else integerText n) ↔
      ∃ d ∈ integers, d ≠ Double.negZero := by
  have hall : (∃ d ∈ integers, d ≠ Double.negZero) ↔
      ¬integers.all (· = Double.negZero) = true := by
    rw [List.all_eq_true]
    simp
  rw [hall, String.append_right_inj]
  split
  · next hzero => simp [hzero, integerText_ne_negative_zero]
  · next hsome => simp [hsome]

/-! ## The standard catalog -/

theorem mem_arities_iff {registerLimit n : Nat} : n ∈ arities registerLimit ↔
    n = canonicalArity ∨ (max 1 (registerLimit - 2) ≤ n ∧ n ≤ registerLimit + 3) := by
  have hsweep : n ∈ List.range' (max 1 (registerLimit - 2))
      (registerLimit + 4 - max 1 (registerLimit - 2)) ↔
        max 1 (registerLimit - 2) ≤ n ∧ n ≤ registerLimit + 3 := by
    rw [List.mem_range'_1]
    omega
  unfold arities
  dsimp only
  split
  · next hmem =>
    rw [hsweep]
    refine ⟨.inr, fun h => h.elim (fun heq => ?_) id⟩
    rw [← hsweep, heq]
    exact hmem
  · split
    · rw [List.mem_cons, hsweep]
    · rw [List.mem_append, List.mem_singleton, hsweep, or_comm]

/-- The scenario of a string behind integers. -/
def stringTailScenario (n : Nat) : Scenario := (plan.stringTailDraft n).toScenario stringTail

theorem stringTailScenario_mem {c : Catalog} (hc : Catalog.standard plan = .ok c) {n : Nat}
    (hn : n ∈ arities plan.registerLimit) : plan.stringTailScenario n ∈ c.toList := by
  have hdraft : plan.stringTailDraft n ∈ plan.drafts := by
    refine List.mem_append_left _ (List.mem_append_left _ (List.mem_append_left _ ?_))
    exact List.mem_flatMap.2 ⟨n, hn, by simp⟩
  obtain ⟨s, hs, hbuild⟩ :=
    exists_of_mem_forall₂ (Catalog.forall₂_of_standard hc).flip hdraft
  obtain ⟨reference, hreference, rfl, -⟩ := Draft.build_eq_ok_iff.1 hbuild
  cases hreference
  exact hs

/-- The integers that the scenario is called with. -/
def countingNumbers (m : Nat) : List Nat := (List.range m).map (· + 1)

theorem argumentSets_stringTailDraft (n : Nat) : (plan.stringTailDraft n).argumentSets =
    [tailArguments ((countingNumbers (n - 1)).map Double.ofNat) "tail"] := by
  have hvalue : ∀ m : Nat, Value.ofNat m = .number (Double.ofNat m) := fun _ => rfl
  simp only [stringTailDraft, tailArguments, countingArguments, countingNumbers, List.map_map,
    hvalue, Function.comp_def]

theorem sum_countingNumbers_le {m : Nat} (hm : m ≤ highestRegisterLimit + 2) :
    (countingNumbers m).sum ≤ 2 ^ 53 := by
  have hle : ∀ number ∈ countingNumbers m, number ≤ m := by
    intro number hnumber
    obtain ⟨place, hplace, rfl⟩ := List.mem_map.1 hnumber
    exact List.mem_range.1 hplace
  have hsum : (countingNumbers m).sum ≤ (countingNumbers m).length • m :=
    List.sum_le_card_nsmul _ _ hle
  have hlength : (countingNumbers m).length = m := by simp [countingNumbers]
  have hlimit : highestRegisterLimit = 64 := rfl
  rw [hlength, smul_eq_mul] at hsum
  nlinarith

theorem argumentsAt_stringTailScenario {n : Nat} (hvalid : (plan.stringTailScenario n).IsValid)
    {checkpoint : Checkpoint} (h : checkpoint ∈ (plan.stringTailScenario n).checkpoints) :
    (plan.stringTailScenario n).argumentsAt checkpoint =
      tailArguments ((countingNumbers (n - 1)).map Double.ofNat) "tail" := by
  have hsets : (plan.stringTailScenario n).argumentSets =
      [tailArguments ((countingNumbers (n - 1)).map Double.ofNat) "tail"] :=
    argumentSets_stringTailDraft plan n
  have hchosen := ((Scenario.isValid_iff _).1 hvalid).2.2.2.2.2.2 checkpoint h
  rw [hsets, List.length_singleton, Nat.lt_one_iff] at hchosen
  rw [Scenario.argumentsAt, hsets, hchosen]
  rfl

/-- A run of the source passes all checkpoints, unless there is no integer. -/
theorem judge_stringTailScenario {n : Nat} (hn : 1 ≤ n) (hlimit : n ≤ highestRegisterLimit + 3)
    (hvalid : (plan.stringTailScenario n).IsValid) :
    ∃ f value, readDefinition? (plan.stringTailScenario n).source = some f ∧
      ∀ checkpoint ∈ (plan.stringTailScenario n).checkpoints,
        f.call? ((plan.stringTailScenario n).argumentsAt checkpoint) = some value ∧
        ∀ (criteria : Criteria) (raw : String),
          (criteria.judge (plan.stringTailScenario n) checkpoint value raw).kind = .pass ↔
            n ≠ 1 := by
  obtain ⟨m, rfl⟩ := Nat.exists_eq_add_of_le' hn
  obtain ⟨hvalues, hbound⟩ :=
    Double.forall₂_ofNat (sum_countingNumbers_le (m := m) (by omega))
  have hlength : ((countingNumbers m).map Double.ofNat).length = m := by simp [countingNumbers]
  have hcall := call?_tailExpression hvalues hbound ("strtail" ++ naturalText (m + 1)) "tail"
  rw [hlength] at hcall
  let value : Value :=
    .string ("tail" ++ ":" ++ integerText ((countingNumbers m).map Nat.cast).sum)
  refine ⟨_, value, readDefinition?_stringTail plan hn, fun checkpoint hcheckpoint => ?_⟩
  have harguments := argumentsAt_stringTailScenario plan hvalid hcheckpoint
  rw [harguments]
  refine ⟨hcall, fun criteria raw => ?_⟩
  have hexpected : (plan.stringTailScenario (m + 1)).expectedAt checkpoint =
      stringTail (tailArguments ((countingNumbers m).map Double.ofNat) "tail") :=
    congrArg stringTail harguments
  have hpass := criteria.judgeReading_kind_eq_pass_iff (plan.stringTailScenario (m + 1))
    ⟨checkpoint, value, raw⟩
  rw [hexpected, stringTail_eq hvalues hbound "tail"] at hpass
  refine hpass.trans ?_
  simp only [value, Agreement.holds, decide_eq_true_iff, Value.string.injEq]
  rw [agrees_iff]
  constructor
  · rintro ⟨d, hd, -⟩ hm
    obtain rfl : m = 0 := by omega
    cases hd
  · intro hm
    refine ⟨Double.ofNat 1, List.mem_map_of_mem (List.mem_map.2 ⟨0, ?_, rfl⟩),
      Double.ofNat_ne_negZero (by norm_num)⟩
    rw [List.mem_range]
    omega

/-- **The reference and the source of a string behind integers.** A call of the source gives the
string, a colon and the sum of the integers. The reference gives the same unless all integers are
negative zero: then it has the sign of the zero. So what the source gives passes in every scenario
of a standard catalog but in that without an integer, and there is one with registers for at most
three arguments. -/
theorem stringTail_agrees (plan : Plan) :
    (∀ (integers : List Double) (values : List Int) (s : String),
      List.Forall₂ (fun d (n : Int) => d.StandsFor n) integers values →
      (∀ k, |(values.take k).sum| ≤ 2 ^ 53) →
      ∃ f reference,
        readDefinition? (plan.stringTailDraft (integers.length + 1)).source = some f ∧
        (plan.stringTailDraft (integers.length + 1)).reference? = some reference ∧
        f.call? (tailArguments integers s) =
          some (.string (s ++ ":" ++ integerText values.sum)) ∧
        reference (tailArguments integers s) = .string (s ++ ":" ++
          if integers.all (· = Double.negZero) then "-0" else integerText values.sum) ∧
        (f.call? (tailArguments integers s) = some (reference (tailArguments integers s)) ↔
          ∃ d ∈ integers, d ≠ Double.negZero)) ∧
    (∀ c, Catalog.standard plan = .ok c → plan.registerLimit ≤ highestRegisterLimit →
      ∀ n ∈ arities plan.registerLimit, ∃ scenario ∈ c.toList,
        scenario.id = "arity/strtail" ++ naturalText n ∧
        ∃ f value, readDefinition? scenario.source = some f ∧
          ∀ checkpoint ∈ scenario.checkpoints,
            f.call? (scenario.argumentsAt checkpoint) = some value ∧
            ∀ (criteria : Criteria) (raw : String),
              (criteria.judge scenario checkpoint value raw).kind = .pass ↔ n ≠ 1) ∧
    (1 ∈ arities plan.registerLimit ↔ plan.registerLimit ≤ 3) := by
  refine ⟨fun integers values s hvalues hbound => ?_, fun c hc hlimit n hn => ?_, ?_⟩
  · have hcall := call?_tailExpression hvalues hbound
      ("strtail" ++ naturalText (integers.length + 1)) s
    have hreference := stringTail_eq hvalues hbound s
    refine ⟨_, stringTail, readDefinition?_stringTail plan (Nat.le_add_left _ _), rfl, hcall,
      hreference, ?_⟩
    rw [hcall, hreference, Option.some_inj, Value.string.injEq, agrees_iff]
  · have hbounds := mem_arities_iff.1 hn
    have hcanonical : canonicalArity = 7 := rfl
    have hhighest : highestRegisterLimit = 64 := rfl
    have hmem := stringTailScenario_mem plan hc hn
    have hvalid := (Catalog.standard_eq_ok hc).1.valid _ hmem
    refine ⟨_, hmem, ?_, judge_stringTailScenario plan (by omega) (by omega) hvalid⟩
    change "arity/" ++ ("strtail" ++ naturalText n) = _
    rw [← String.append_assoc]
    rfl
  · have hcanonical : canonicalArity = 7 := rfl
    rw [mem_arities_iff]
    omega

/-- Two integers that cancel out, and the scenarios of the default plan. -/
theorem stringTail_agrees_cancelled :
    (∃ f, readDefinition? (stringTailDraft {} 3).source = some f ∧
      f.call? [.ofInt 2, .ofInt (-2), .string "x"] = some (.string "x:0") ∧
      stringTail [.ofInt 2, .ofInt (-2), .string "x"] = .string "x:0") ∧
    ∃ c, Catalog.standard {} = .ok c ∧ ∃ scenario ∈ c.toList, scenario.id = "arity/strtail7" ∧
      ∃ f value, readDefinition? scenario.source = some f ∧
        ∀ checkpoint ∈ scenario.checkpoints,
          f.call? (scenario.argumentsAt checkpoint) = some value ∧
          (({} : Criteria).judge scenario checkpoint value "").kind = .pass := by
  obtain ⟨hcalls, hcatalog, -⟩ := stringTail_agrees {}
  have hvalues : List.Forall₂ (fun d (n : Int) => d.StandsFor n)
      [Double.ofInt 2, Double.ofInt (-2)] [2, -2] :=
    .cons (Double.standsFor_ofInt (by decide)) (.cons (Double.standsFor_ofInt (by decide)) .nil)
  have hbound : ∀ k, |(([2, -2] : List Int).take k).sum| ≤ 2 ^ 53 := by
    intro k
    rcases k with _ | _ | k <;> simp
  obtain ⟨f, reference, hf, hreference, hcall, hgives, -⟩ := hcalls _ _ "x" hvalues hbound
  obtain ⟨c, hc⟩ := (Catalog.standard_wellFormed {}).1.2 ⟨by rfl, by decide⟩
  obtain ⟨scenario, hmem, hid, g, value, hg, hpasses⟩ := hcatalog c hc (by decide) 7 (by decide)
  cases hreference
  refine ⟨⟨f, hf, hcall, ?_⟩, c, hc, scenario, hmem, hid, g, value, hg, fun checkpoint h => ?_⟩
  · exact hgives
  · exact ⟨(hpasses checkpoint h).1, ((hpasses checkpoint h).2 {} "").2 (by decide)⟩

/-- Without an integer, the reference gives a negative zero where the source has the literal `0`,
and the right result counts as wrong. -/
theorem stringTail_alone :
    (∃ f, readDefinition? (stringTailDraft { registerLimit := 1 } 1).source = some f ∧
      f.call? [.string "tail"] = some (.string "tail:0")) ∧
    stringTail [.string "tail"] = .string "tail:-0" ∧
    (({} : Criteria).judge (stringTailScenario { registerLimit := 1 } 1) ⟨"interpreted", 1, 0⟩
      (.string "tail:0") "tail:0").kind = .wrongValue := by
  refine ⟨⟨⟨"strtail1", ["p1"], tailExpression 1⟩, by decide, by decide⟩, by decide, ?_⟩
  decide

end TierCheck.Plan
