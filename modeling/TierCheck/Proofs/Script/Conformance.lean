import Mathlib.Data.List.Sigma
import TierCheck.Proofs.Catalog.Identity
import TierCheck.Proofs.Lists
import TierCheck.Proofs.Scenario.Validity
import TierCheck.Proofs.Script.Reading

/-!
# Scripts say what their scenarios say

The script of a valid scenario, read back from its text, names the scenario and its checkpoints,
gives every argument a variable of its own, and makes exactly the calls of the warm-up: the calls
before a report are as many as its checkpoint says, each with the arguments of the checkpoint's set.

* `Script.RunsSchedule`: what the loops of a script have to be for that.
* `Script.Declares`: the same for its variables.
* `Script.IsApart`: a line that is about no argument.
* `Script.conforms_ofScenario`: the script of a valid scenario.
-/
namespace TierCheck

/-! ## Lines -/

theorem Code.text_cons (line : String) (rest : Code) :
    Code.text (line :: rest) = line ++ "\n" ++ Code.text rest := by
  rw [text, List.map_cons, String.join_cons]
  rfl

theorem lines_text_append {plain : Code} (h : ∀ line ∈ plain, IsOneLine line) (rest : Code) :
    lines (Code.text (plain ++ rest)) = plain ++ lines (Code.text rest) := by
  rw [← lines_join_append h, Code.text, List.map_append, String.join_append]
  rfl

/-! ## The header -/

namespace Script

theorem readCheckpoints_append (names : List String) (rest : List String) :
    readCheckpoints (names.map Probe.checkpointHeader ++ "" :: rest) = names := by
  induction names with
  | nil => rfl
  | cons name names ih =>
    have hname : after? "// checkpoint: " (Probe.checkpointHeader name).toList =
        some name.toList :=
      after?_eq_some_iff.2 (String.toList_append ..)
    rw [List.map_cons, List.cons_append, readCheckpoints, hname]
    simp [ih]

/-- The line is about no argument: it is a comment, or it does not hold the variable of one. -/
inductive IsApart (line : String) : Prop where
  | comment (hline : IsOneLine line) (hstart : "//".toList <+: line.toList)
  | absent (h : ∀ set place, ¬(Probe.argumentName set place).toList <:+: line.toList)

theorem isComment_of_mem_header {s : Scenario} (h : s.IsValid) {line : String}
    (hline : line ∈ Probe.header s.id ::
      (s.checkpoints.map (·.name)).map Probe.checkpointHeader) :
    IsOneLine line ∧ "//".toList <+: line.toList := by
  obtain ⟨⟨-, hid⟩, -, -, -, -, hschedule, -⟩ := (Scenario.isValid_iff s).1 h
  have hcomment {start rest : String} (hline : IsOneLine start)
      (hstart : "//".toList <+: start.toList) (hrest : hasBlank rest = false) :
      IsOneLine (start ++ rest) ∧ "//".toList <+: (start ++ rest).toList := by
    refine ⟨isOneLine_append hline (isOneLine_of_hasBlank hrest), ?_⟩
    rw [String.toList_append]
    exact hstart.trans (List.prefix_append _ _)
  rcases List.mem_cons.1 hline with rfl | hline
  · exact hcomment (by constructor <;> decide) (by decide) hid
  · obtain ⟨name, hname, rfl⟩ := List.mem_map.1 hline
    obtain ⟨checkpoint, hcheckpoint, rfl⟩ := List.mem_map.1 hname
    have hnamed := hschedule.named checkpoint hcheckpoint
    simp [isCheckpointName] at hnamed
    exact hcomment (by constructor <;> decide) (by decide) hnamed.1.2

theorem toList_argumentName (set place : Nat) : (Probe.argumentName set place).toList =
    ("__tp_a".toList ++ Nat.toDigits 10 set) ++ '_' :: Nat.toDigits 10 place := by
  simp [Probe.argumentName, naturalText]

theorem isApart_of_mem_prelude {line : String} (h : line ∈ prelude) : IsApart line := by
  have habsent : ∀ line ∈ prelude, occursIn "__tp_a".toList line.toList = false := by
    decide +kernel
  refine .absent fun set place hin => ?_
  have hstart : "__tp_a".toList <+: (Probe.argumentName set place).toList := by
    rw [toList_argumentName, List.append_assoc]
    exact List.prefix_append _ _
  have hoccurs := occursIn_iff.2 (hstart.isInfix.trans hin)
  rw [habsent line h] at hoccurs
  cases hoccurs

/-- The lines of a script begin with those of its header, and an empty line ends the header. -/
theorem lines_ofScenario {s : Scenario} (h : s.IsValid) : ∃ rest,
    lines (Probe.ofScenario s).source =
      Probe.header s.id :: (s.checkpoints.map (·.name)).map Probe.checkpointHeader ++
        "" :: rest := by
  have hheader : ∀ line ∈ Probe.header s.id ::
      (s.checkpoints.map (·.name)).map Probe.checkpointHeader, IsOneLine line :=
    fun line hline => (isComment_of_mem_header h hline).1
  have hcode : ∃ more, Probe.code s =
      (Probe.header s.id :: (s.checkpoints.map (·.name)).map Probe.checkpointHeader) ++
        "" :: more := by
    rw [Probe.code, prelude, List.map_map]
    simp only [List.append_assoc, List.cons_append, List.nil_append]
    exact ⟨_, rfl⟩
  obtain ⟨more, hmore⟩ := hcode
  refine ⟨lines (Code.text more), ?_⟩
  rw [Probe.ofScenario, hmore, lines_text_append hheader,
    Code.text_cons, lines_append (by constructor <;> decide)]

theorem readHeader?_ofScenario {s : Scenario} (h : s.IsValid) :
    readHeader? (Probe.ofScenario s).source = some (s.id, s.checkpoints.map (·.name)) := by
  obtain ⟨rest, hlines⟩ := lines_ofScenario h
  have hid : after? "// tierprobe scenario: " (Probe.header s.id).toList = some s.id.toList :=
    after?_eq_some_iff.2 (String.toList_append ..)
  unfold readHeader?
  rw [hlines, List.cons_append]
  simp only [hid, Option.map_some, String.ofList_toList, readCheckpoints_append]

/-! ## The variables -/

/-- The variables of a script are those of the arguments, each with the literal of its value and
each only once. -/
structure Declares (table : List (String × String)) (s : Scenario) : Prop where
  distinct : (table.map (·.1)).Nodup
  mem_iff : ∀ name literal, (name, literal) ∈ table ↔ ∃ set place values value,
    s.argumentSets[set]? = some values ∧ values[place]? = some value ∧
      name = Probe.argumentName set place ∧ literal = value.literal

def tableOf (sets : List (List Value)) : List (String × String) :=
  sets.zipIdx.flatMap fun (set, number) =>
    set.zipIdx.map fun (value, place) => (Probe.argumentName number place, value.literal)

theorem argumentName_inj {set set' place place' : Nat}
    (h : Probe.argumentName set place = Probe.argumentName set' place') :
    set = set' ∧ place = place' := by
  have hplain (n : Nat) : '_' ∉ Nat.toDigits 10 n := by
    intro hmem
    cases isDigit_of_mem_toDigits hmem
  have hsplit := congrArg String.toList h
  rw [toList_argumentName, toList_argumentName] at hsplit
  obtain ⟨hset, hplace⟩ := append_cons_inj hsplit (hplain _) (hplain _)
  exact ⟨toDigits_inj (List.append_cancel_left hset), toDigits_inj hplace⟩

theorem readDeclaration?_eq_some {name literal : String} (h : ' ' ∉ name.toList) :
    readDeclaration? ("var " ++ name ++ " = " ++ literal ++ ";") = some (name, literal) := by
  have hbetween : between? "var " ";" ("var " ++ name ++ " = " ++ literal ++ ";") =
      some (name.toList ++ ' ' :: ("= ".toList ++ literal.toList)) :=
    between?_eq_some (by simp)
  unfold readDeclaration?
  rw [hbetween, Option.bind_eq_bind, Option.bind_some, splitOnce?_append h, Option.bind_eq_bind,
    Option.bind_some]
  dsimp only
  rw [after?_append]
  simp

theorem mem_tableOf {sets : List (List Value)} {entry : String × String} : entry ∈ tableOf sets ↔
    ∃ set place values value, sets[set]? = some values ∧ values[place]? = some value ∧
      entry = (Probe.argumentName set place, value.literal) := by
  simp only [tableOf, List.mem_flatMap, List.mem_map, Prod.exists, List.mem_zipIdx_iff_getElem?]
  constructor
  · rintro ⟨values, set, hset, value, place, hplace, rfl⟩
    exact ⟨set, place, values, value, hset, hplace, rfl⟩
  · rintro ⟨set, place, values, value, hset, hplace, rfl⟩
    exact ⟨values, set, hset, value, place, hplace, rfl⟩

theorem mapM_readDeclaration? (sets : List (List Value)) :
    (Probe.declarations sets).mapM readDeclaration? = some (tableOf sets) := by
  have hwritten : Probe.declarations sets = (tableOf sets).map fun entry =>
      "var " ++ entry.1 ++ " = " ++ entry.2 ++ ";" := by
    simp [Probe.declarations, Probe.setDeclarations, tableOf, List.map_flatMap, Function.comp_def]
  have hread : ∀ entry ∈ tableOf sets,
      readDeclaration? ("var " ++ entry.1 ++ " = " ++ entry.2 ++ ";") = some entry := by
    intro entry hentry
    obtain ⟨set, place, -, value, -, -, rfl⟩ := mem_tableOf.1 hentry
    exact readDeclaration?_eq_some fun hmem => ((isListed_argumentName set place).2 _ hmem).2 rfl
  rw [hwritten]
  exact mapM_eq_some hread

theorem declares_tableOf (s : Scenario) : Declares (tableOf s.argumentSets) s where
  distinct := by
    rw [tableOf, List.map_flatMap]
    have hplaces {α : Type} (l : List α) : l.zipIdx.Pairwise fun a b => a.2 ≠ b.2 :=
      List.pairwise_map.1 l.nodup_zipIdx_map_snd
    refine List.nodup_flatMap.2 ⟨?_, (hplaces _).imp ?_⟩
    · rintro ⟨set, number⟩ -
      rw [List.map_map, List.Nodup, List.pairwise_map]
      exact (hplaces set).imp fun hne heq => hne (argumentName_inj heq).2
    · rintro ⟨set, number⟩ ⟨set', number'⟩ hne name hname hname'
      dsimp only at hname hname'
      rw [List.map_map, List.mem_map] at hname hname'
      obtain ⟨_, -, rfl⟩ := hname
      obtain ⟨_, -, heq⟩ := hname'
      exact hne (argumentName_inj heq).1.symm
  mem_iff name literal := by
    simp only [mem_tableOf, Prod.mk.injEq]

/-! ## The calls -/

def totalCalls : List Loop → Nat
  | [] => 0
  | loop :: rest => loop.calls + totalCalls rest

/-- The loops of a script make the calls of the scenario's warm-up. -/
structure RunsSchedule (loops : List Loop) (s : Scenario) : Prop where
  /-- No subtraction is cut off at zero. -/
  calls : (loops.map fun loop => (loop.calls : Int)) =
    List.zipWith (fun after before => (after : Int) - before) (s.checkpoints.map (·.iterations))
      (0 :: s.checkpoints.map (·.iterations))
  positive : ∀ loop ∈ loops, 1 ≤ loop.calls
  /-- The number of calls before a report. -/
  reached : ∀ place checkpoint, s.checkpoints[place]? = some checkpoint →
    totalCalls (loops.take (place + 1)) = checkpoint.iterations
  warmup : totalCalls loops = s.warmup
  function : ∀ loop ∈ loops, loop.function = s.function
  arguments : loops.map (·.arguments) = s.checkpoints.map fun checkpoint =>
    (List.range s.arity).map (Probe.argumentName checkpoint.argumentSet)
  faulted : loops.map (·.faulted) = s.checkpoints.map (·.name)
  emitted : loops.map (·.emitted) = s.checkpoints.map (·.name)

section

variable {function : String} {arity made : Nat} {checkpoints : List Checkpoint}

theorem length_loopsOf : (loopsOf function arity made checkpoints).length = checkpoints.length := by
  induction checkpoints generalizing made with
  | nil => rfl
  | cons checkpoint rest ih => simp [loopsOf, ih]

theorem calls_loopsOf (h : (made :: checkpoints.map (·.iterations)).Pairwise (· < ·)) :
    ((loopsOf function arity made checkpoints).map fun loop => (loop.calls : Int)) =
      List.zipWith (fun after before => (after : Int) - before) (checkpoints.map (·.iterations))
        (made :: checkpoints.map (·.iterations)) := by
  induction checkpoints generalizing made with
  | nil => rfl
  | cons checkpoint rest ih =>
    have hlt : made < checkpoint.iterations := List.rel_of_pairwise_cons h List.mem_cons_self
    simp only [loopsOf, List.map_cons, List.zipWith_cons_cons, List.cons.injEq]
    exact ⟨by omega, ih (List.Pairwise.of_cons h)⟩

theorem positive_of_mem_loopsOf (h : (made :: checkpoints.map (·.iterations)).Pairwise (· < ·))
    {loop : Loop} (hloop : loop ∈ loopsOf function arity made checkpoints) : 1 ≤ loop.calls := by
  induction checkpoints generalizing made with
  | nil => cases hloop
  | cons checkpoint rest ih =>
    have hlt := List.rel_of_pairwise_cons h List.mem_cons_self
    rcases List.mem_cons.1 hloop with rfl | hloop
    · exact Nat.sub_pos_of_lt hlt
    · exact ih (List.Pairwise.of_cons h) hloop

/-- The calls up to a report, with those made before, are as many as its checkpoint says. -/
theorem totalCalls_take_loopsOf (h : (made :: checkpoints.map (·.iterations)).Pairwise (· < ·))
    {place : Nat} {checkpoint : Checkpoint} (hplace : checkpoints[place]? = some checkpoint) :
    made + totalCalls ((loopsOf function arity made checkpoints).take (place + 1)) =
      checkpoint.iterations := by
  induction checkpoints generalizing made place with
  | nil => cases hplace
  | cons first rest ih =>
    have hlt : made < first.iterations := List.rel_of_pairwise_cons h List.mem_cons_self
    rw [loopsOf, List.take_succ_cons, totalCalls]
    cases place with
    | zero =>
      cases hplace
      simp only [List.take_zero, totalCalls]
      omega
    | succ place =>
      have hrest := ih (List.Pairwise.of_cons h) hplace
      dsimp only at hrest ⊢
      omega

theorem function_of_mem_loopsOf {loop : Loop}
    (hloop : loop ∈ loopsOf function arity made checkpoints) : loop.function = function := by
  induction checkpoints generalizing made with
  | nil => cases hloop
  | cons checkpoint rest ih =>
    rcases List.mem_cons.1 hloop with rfl | hloop
    · rfl
    · exact ih hloop

theorem arguments_loopsOf : (loopsOf function arity made checkpoints).map (·.arguments) =
    checkpoints.map fun checkpoint =>
      (List.range arity).map (Probe.argumentName checkpoint.argumentSet) := by
  induction checkpoints generalizing made with
  | nil => rfl
  | cons checkpoint rest ih => rw [loopsOf, List.map_cons, ih, List.map_cons]

theorem faulted_loopsOf : (loopsOf function arity made checkpoints).map (·.faulted) =
    checkpoints.map (·.name) := by
  induction checkpoints generalizing made with
  | nil => rfl
  | cons checkpoint rest ih => rw [loopsOf, List.map_cons, ih, List.map_cons]

theorem emitted_loopsOf : (loopsOf function arity made checkpoints).map (·.emitted) =
    checkpoints.map (·.name) := by
  induction checkpoints generalizing made with
  | nil => rfl
  | cons checkpoint rest ih => rw [loopsOf, List.map_cons, ih, List.map_cons]

end

theorem runsSchedule_loopsOf {s : Scenario} (h : IsSchedule s.checkpoints) :
    RunsSchedule (loopsOf s.function s.arity 0 s.checkpoints) s := by
  have hincreasing : (0 :: s.checkpoints.map (·.iterations)).Pairwise (· < ·) := by
    rw [List.pairwise_cons, List.pairwise_map]
    refine ⟨fun n hn => ?_, h.increasing⟩
    obtain ⟨checkpoint, hcheckpoint, rfl⟩ := List.mem_map.1 hn
    exact h.positive checkpoint hcheckpoint
  have hreached : ∀ place checkpoint, s.checkpoints[place]? = some checkpoint →
      totalCalls ((loopsOf s.function s.arity 0 s.checkpoints).take (place + 1)) =
        checkpoint.iterations := by
    intro place checkpoint hplace
    have htotal : 0 + totalCalls ((loopsOf s.function s.arity 0 s.checkpoints).take (place + 1)) =
        checkpoint.iterations := totalCalls_take_loopsOf hincreasing hplace
    rwa [Nat.zero_add] at htotal
  refine ⟨calls_loopsOf hincreasing, fun _ => positive_of_mem_loopsOf hincreasing, hreached, ?_,
    fun _ => function_of_mem_loopsOf, arguments_loopsOf, faulted_loopsOf, emitted_loopsOf⟩
  -- the last report comes after all loops
  obtain ⟨before, last, hlast⟩ := List.eq_nil_or_concat s.checkpoints |>.resolve_left h.nonempty
  have hplace : s.checkpoints[before.length]? = some last := by simp [hlast]
  have hlength : (loopsOf s.function s.arity 0 s.checkpoints).length = before.length + 1 := by
    rw [length_loopsOf, hlast, List.length_concat]
  rw [← List.take_of_length_le (Nat.le_of_eq hlength), hreached _ _ hplace, Scenario.warmup, hlast,
    List.concat_eq_append, warmup_concat]

/-! ## The arguments of the calls -/

/-- What a call before a checkpoint passes are the arguments of the checkpoint's set. -/
def Passes (table : List (String × String)) (loops : List Loop) (s : Scenario) : Prop :=
  List.Forall₂ (fun loop checkpoint => (loop.arguments.map fun name => List.lookup name table) =
    (s.argumentsAt checkpoint).map fun value => some value.literal) loops s.checkpoints

theorem Declares.lookup_argumentNames {table : List (String × String)} {s : Scenario}
    (h : Declares table s) {set : Nat} {values : List Value}
    (hset : s.argumentSets[set]? = some values) :
    (((List.range values.length).map (Probe.argumentName set)).map fun name =>
      List.lookup name table) = values.map fun value => some value.literal := by
  refine List.ext_getElem (by simp) fun place hplace hplace' => ?_
  have hlength : place < values.length := by simpa using hplace'
  simp only [List.getElem_map, List.getElem_range]
  exact lookup_eq_some h.distinct ((h.mem_iff _ _).2
    ⟨set, place, values, _, hset, List.getElem?_eq_getElem hlength, rfl, rfl⟩)

theorem passes_loopsOf {s : Scenario} (h : s.IsValid) {table : List (String × String)}
    (htable : Declares table s) :
    Passes table (loopsOf s.function s.arity 0 s.checkpoints) s := by
  obtain ⟨-, -, -, -, hlength, -, hchosen⟩ := (Scenario.isValid_iff s).1 h
  have hpasses : ∀ checkpoints : List Checkpoint, (∀ checkpoint ∈ checkpoints,
      checkpoint.argumentSet < s.argumentSets.length) → ∀ made,
      List.Forall₂ (fun loop checkpoint =>
        (loop.arguments.map fun name => List.lookup name table) =
          (s.argumentsAt checkpoint).map fun value => some value.literal)
        (loopsOf s.function s.arity made checkpoints) checkpoints := by
    intro checkpoints hchosen
    induction checkpoints with
    | nil => exact fun _ => .nil
    | cons checkpoint rest ih =>
      intro made
      rw [List.forall_mem_cons] at hchosen
      refine .cons ?_ (ih hchosen.2 _)
      have hset := List.getElem?_eq_getElem hchosen.1
      have harity := hlength _ (List.getElem_mem hchosen.1)
      have hlookup := htable.lookup_argumentNames hset
      rw [harity] at hlookup
      rw [hlookup, Scenario.argumentsAt, hset, Option.getD_some]
  exact hpasses s.checkpoints hchosen 0

/-- **The script of a valid scenario says what the scenario says.** Its lines begin with the
scenario and the checkpoints. Apart from the scenario's own source, nothing before its variables is
about them. The variables are the arguments, each once and with a literal that says its value, and
no two arguments have the same variable. The function that it runs makes the calls of the warm-up,
with the arguments of the checkpoint that they lead to, and reports each checkpoint by its name. -/
theorem conforms_ofScenario (s : Scenario) (h : s.IsValid) :
    (∃ rest, lines (Probe.ofScenario s).source =
      (("// tierprobe scenario: " ++ s.id) ::
        s.checkpoints.map fun checkpoint => "// checkpoint: " ++ checkpoint.name) ++ rest) ∧
    readHeader? (Probe.ofScenario s).source = some (s.id, s.checkpoints.map (·.name)) ∧
    (∃ opening declarations run table loops,
      (Probe.ofScenario s).source = Code.text (opening ++ ["", trim s.source, ""] ++
        declarations ++ [""] ++ run ++
        ["", "if (__tp_run()) \x7b", "  __tp_print(\"DONE\");", "\x7d"]) ∧
      (∀ line ∈ opening, IsApart line) ∧
      declarations.mapM readDeclaration? = some table ∧ Declares table s ∧
      readRunner? run = some loops ∧ RunsSchedule loops s ∧ Passes table loops s) ∧
    (∀ value : Value, IsLiteral value value.literal) ∧
    ∀ set place set' place', Probe.argumentName set place = Probe.argumentName set' place' →
      set = set' ∧ place = place' := by
  obtain ⟨-, -, hfunction, -, -, hschedule, -⟩ := (Scenario.isValid_iff s).1 h
  refine ⟨?_, readHeader?_ofScenario h, ?_, isLiteral_literal, fun _ _ _ _ => argumentName_inj⟩
  · obtain ⟨rest, hlines⟩ := lines_ofScenario h
    refine ⟨"" :: rest, ?_⟩
    rw [hlines, List.map_map]
    rfl
  · let headers := Probe.header s.id :: (s.checkpoints.map (·.name)).map Probe.checkpointHeader
    have hapart : ∀ line ∈ headers ++ prelude, IsApart line := by
      intro line hline
      rcases List.mem_append.1 hline with hline | hline
      · obtain ⟨honeLine, hstart⟩ := isComment_of_mem_header h hline
        exact .comment honeLine hstart
      · exact isApart_of_mem_prelude hline
    refine ⟨headers ++ prelude, Probe.declarations s.argumentSets, Probe.runner s,
      tableOf s.argumentSets, loopsOf s.function s.arity 0 s.checkpoints, ?_, hapart,
      mapM_readDeclaration? _, declares_tableOf s, readRunner?_runner hfunction,
      runsSchedule_loopsOf hschedule, passes_loopsOf h (declares_tableOf s)⟩
    rw [Probe.ofScenario, Probe.code]
    simp only [List.map_map, List.append_assoc, headers]
    rfl

/-- A scenario that is called with an array type a hundred times, and then once with another. -/
def retypedLength : Scenario where
  id := "polymorphic/length"
  family := .polymorphic
  description := "length of an array of a type that changes"
  arity := 1
  parameters := [.typedArray .float32]
  returns := .integer
  zeroSign := false
  expectation := .strict
  checkpoints := [⟨"warm", 100, 0⟩, ⟨"retyped", 101, 1⟩]
  function := "length"
  source := "function length(C) \x7b return new C(4).length; \x7d"
  argumentSets := [[.arrayType .float32], [.arrayType .float64]]
  reference := fun _ => .ofNat 4

/-- Its script makes a hundred calls and then one, each with the variable of its type. -/
theorem conforms_retypedLength : retypedLength.IsValid ∧
    readHeader? (Probe.ofScenario retypedLength).source =
      some ("polymorphic/length", ["warm", "retyped"]) ∧
    (∃ before run after table loops,
      (Probe.ofScenario retypedLength).source = Code.text (before ++ run ++ after) ∧
      ("__tp_a1_0", "Float64Array") ∈ table ∧
      readRunner? run = some loops ∧ (loops.map fun loop => (loop.calls : Int)) = [100, 1] ∧
      loops.map (·.arguments) = [["__tp_a0_0"], ["__tp_a1_0"]] ∧
      loops.map (·.emitted) = ["warm", "retyped"] ∧ Passes table loops retypedLength) ∧
    IsLiteral (.arrayType .float64) "Float64Array" := by
  have hvalid : retypedLength.IsValid := by decide
  obtain ⟨-, hheader, ⟨opening, declarations, run, table, loops, hsource, -, -, htable, hrun,
    hloops, hpasses⟩, hliteral, -⟩ := conforms_ofScenario retypedLength hvalid
  have hentry : ("__tp_a1_0", "Float64Array") ∈ table :=
    (htable.mem_iff _ _).2 ⟨1, 0, _, .arrayType .float64, rfl, rfl, by decide, rfl⟩
  exact ⟨hvalid, hheader, ⟨_, run, _, table, loops, hsource, hentry, hrun, hloops.calls,
    hloops.arguments.trans (by decide), hloops.emitted, hpasses⟩, hliteral (.arrayType .float64)⟩

end Script

end TierCheck
