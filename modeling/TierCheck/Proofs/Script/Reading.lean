import TierCheck.Proofs.Event.RoundTrip
import TierCheck.Proofs.Number.Digits
import TierCheck.Proofs.Text.Words
import TierCheck.Script.Probe
import TierCheck.Text.Line

/-!
# Reading scripts

What a script says can be read back from its lines by a reader that knows how scripts are written,
but not what they are written from. It reads the header, the variables and the function that makes
the calls, and it refuses lines that look different.

* `Script.readHeader?`: the scenario and the checkpoints that the first lines name.
* `Script.readDeclaration?`: a variable with its literal.
* `Script.IsLiteral`: what a literal says.
* `Script.readRunner?`: the loops of the function that makes the calls, each a `Script.Loop`.
-/
namespace TierCheck.Script

/-- What stands between a known start and a known end. -/
def between? (start stop line : String) : Option (List Char) := do
  let rest ← after? start line.toList
  if stop.toList.isSuffixOf rest then some (rest.take (rest.length - stop.toList.length)) else none

theorem between?_eq_some {start stop line : String} {inner : List Char}
    (h : line.toList = start.toList ++ (inner ++ stop.toList)) :
    between? start stop line = some inner := by
  unfold between?
  rw [h, after?_append]
  simp

/-! ## Headers -/

/-- The checkpoints that the lines name, up to the first line that names none. -/
def readCheckpoints : List String → List String
  | [] => []
  | line :: rest =>
    match after? "// checkpoint: " line.toList with
    | some name => String.ofList name :: readCheckpoints rest
    | none => []

/-- The scenario and the checkpoints that the first lines of a script name. -/
def readHeader? (source : String) : Option (String × List String) :=
  match lines source with
  | [] => none
  | first :: rest =>
    (after? "// tierprobe scenario: " first.toList).map fun id =>
      (String.ofList id, readCheckpoints rest)

/-! ## Variables -/

/-- A variable with the literal that it is set to. -/
def readDeclaration? (statement : String) : Option (String × String) := do
  let (name, value) ← splitOnce? ' ' (← between? "var " ";" statement)
  return (String.ofList name, String.ofList (← after? "= " value))

/-! ### Literals -/

def arrayConstructors : List (String × Element) :=
  [("Int8Array", .int8), ("Uint8Array", .uint8), ("Uint8ClampedArray", .uint8Clamped),
    ("Int16Array", .int16), ("Uint16Array", .uint16), ("Int32Array", .int32),
    ("Uint32Array", .uint32), ("Float32Array", .float32), ("Float64Array", .float64)]

/-- The text says the value. Words stand for the values that have names, a numeral and a quotation
are read, and objects and functions have their text in parentheses. -/
inductive IsLiteral : Value → String → Prop where
  | undefined : IsLiteral .undefined "undefined"
  | null : IsLiteral .null "null"
  | true : IsLiteral (.boolean true) "true"
  | false : IsLiteral (.boolean false) "false"
  | notANumber : IsLiteral (.number .nan) "NaN"
  | infinite : IsLiteral (.number (.infinite Bool.false)) "Infinity"
  | negativeInfinite : IsLiteral (.number (.infinite Bool.true)) "-Infinity"
  | numeral {x : Double} {text : String} (hread : Double.read? text.toList = some x)
    (hplain : ∀ c ∈ text.toList, c.isDigit = Bool.true ∨ c = '.' ∨ c = '-') :
    IsLiteral (.number x) text
  | quotation {s text : String} (hread : Json.readLiteral? text.toList = some s) :
    IsLiteral (.string s) text
  | arrayType {element : Element} {text : String} (h : (text, element) ∈ arrayConstructors) :
    IsLiteral (.arrayType element) text
  | object (text : String) : IsLiteral (.object text) ("(" ++ text ++ ")")
  | function (text : String) : IsLiteral (.function text) ("(" ++ text ++ ")")
  | other (kind text : String) : IsLiteral (.other kind text) text

theorem isLiteral_literal (value : Value) : IsLiteral value value.literal := by
  cases value with
  | undefined => exact .undefined
  | null => exact .null
  | boolean b =>
    cases b
    · exact .false
    · exact .true
  | number x =>
    cases x with
    | nan => exact .notANumber
    | infinite negative =>
      cases negative
      · exact .infinite
      · exact .negativeInfinite
    | finite negative o => exact .numeral (Double.read?_text negative o) fun _ => Double.mem_text
  | string s => exact .quotation (by simp [Value.literal, Json.quote, Json.readLiteral?_quoteChars])
  | arrayType element => exact .arrayType (by cases element <;> decide)
  | object text => exact .object text
  | function text => exact .function text
  | other kind text => exact .other kind text

/-! ## Loops -/

/-- Calls in a row with the same arguments, and the report after them. -/
structure Loop where
  calls : Nat
  function : String
  /-- The variables that are passed. -/
  arguments : List String
  /-- The checkpoint that is reported when a call throws. -/
  faulted : String
  /-- The checkpoint that is reported when none does. -/
  emitted : String
deriving DecidableEq, Repr

def readBound? (line : String) : Option Nat := do
  let digits ← between? "    for (__tp_i = 0; __tp_i < " "; __tp_i++) \x7b" line
  if digits = [] then none else readDigits? digits

/-- The function that is called and the variables that are passed. -/
def readCall? (line : String) : Option (String × List String) := do
  let (function, arguments) ← splitOnce? '(' (← between? "      __tp_r = " ");" line)
  return (String.ofList function, terms (fun c => c = ',' || c = ' ') (String.ofList arguments))

def readName? (start stop line : String) : Option String := do
  Json.readLiteral? (← between? start stop line)

/-- The lines of a loop that are the same in all of them. -/
def loopFrame : Code :=
  ["  try \x7b", "    \x7d", "  \x7d catch (__tp_e) \x7b", "    return false;", "  \x7d"]

/-- The loop of the lines that are not the same in all of them. -/
def readLoop? (head body fault emit : String) : Option Loop := do
  let calls ← readBound? head
  let (function, arguments) ← readCall? body
  let faulted ← readName? "    __tp_fault(" ", __tp_e);" fault
  let emitted ← readName? "  __tp_emit(" ", __tp_r);" emit
  return { calls, function, arguments, faulted, emitted }

/-- A row of loops up to the end of the function. -/
def readLoops? : Code → Option (List Loop)
  | opening :: head :: body :: closing :: catching :: fault :: stop :: caught :: emit :: rest =>
    if [opening, closing, catching, stop, caught] = loopFrame then do
      return (← readLoop? head body fault emit) :: (← readLoops? rest)
    else none
  | rest => if rest = ["  return true;", "\x7d"] then some [] else none

def readRunner? : Code → Option (List Loop)
  | head :: result :: counter :: rest =>
    if [head, result, counter] = ["function __tp_run() \x7b", "  var __tp_r;", "  var __tp_i;"] then
      readLoops? rest
    else none
  | _ => none

/-! ## Written lines read back -/

theorem readBound?_head (calls : Nat) : readBound? ("  " ++ ("  " ++
    ("for (__tp_i = 0; __tp_i < " ++ naturalText calls ++ "; __tp_i++)" ++ " \x7b"))) =
      some calls := by
  have hbetween : between? "    for (__tp_i = 0; __tp_i < " "; __tp_i++) \x7b" ("  " ++ ("  " ++
      ("for (__tp_i = 0; __tp_i < " ++ naturalText calls ++ "; __tp_i++)" ++ " \x7b"))) =
        some (Nat.toDigits 10 calls) :=
    between?_eq_some (by simp [naturalText])
  unfold readBound?
  rw [hbetween]
  simp [Nat.toDigits_ne_nil, readDigits?_toDigits]

/-- The text can stand in a list with commas. -/
def IsListed (name : String) : Prop := name ≠ "" ∧ ∀ c ∈ name.toList, c ≠ ',' ∧ c ≠ ' '

theorem terms_listed {names : List String} (h : ∀ name ∈ names, IsListed name) :
    terms (fun c => c = ',' || c = ' ') (", ".intercalate names) = names := by
  refine terms_intercalate (by decide) (List.all_eq_true.1 (by decide)) fun name hname => ?_
  obtain ⟨hne, hplain⟩ := h name hname
  exact ⟨by simpa using hne, fun c hc => by simpa using hplain c hc⟩

theorem isListed_argumentName (set place : Nat) : IsListed (Probe.argumentName set place) := by
  have hdigits (n : Nat) : ∀ c ∈ Nat.toDigits 10 n, c ≠ ',' ∧ c ≠ ' ' := by
    intro c hc
    have hdigit := isDigit_of_mem_toDigits hc
    constructor <;> rintro rfl <;> cases hdigit
  constructor
  · intro h
    simpa [Probe.argumentName] using congrArg String.toList h
  · have hprefix : ∀ c ∈ "__tp_a".toList ++ "_".toList, c ≠ ',' ∧ c ≠ ' ' := by simp
    intro c hc
    simp only [Probe.argumentName, naturalText, String.toList_append, String.toList_ofList,
      List.mem_append] at hc hprefix
    rcases hc with ((hc | hc) | hc) | hc
    · exact hprefix c (.inl hc)
    · exact hdigits set c hc
    · exact hprefix c (.inr hc)
    · exact hdigits place c hc

theorem parenthesis_notMem_function {function : String} (h : isFunctionName function = true) :
    '(' ∉ function.toList := by
  unfold isFunctionName at h
  intro hmem
  cases hchars : function.toList with
  | nil =>
    rw [hchars] at hmem
    cases hmem
  | cons c rest =>
    simp only [hchars, Bool.and_eq_true] at h hmem
    rcases List.mem_cons.1 hmem with rfl | hmem
    · cases h.1.1
    · cases List.all_eq_true.1 h.2 _ hmem

theorem readCall?_call {function : String} (hfunction : isFunctionName function = true)
    (arity set : Nat) : readCall? ("  " ++ ("  " ++ ("  " ++
      ("__tp_r = " ++ Probe.call function arity set ++ ";")))) =
        some (function, (List.range arity).map (Probe.argumentName set)) := by
  let arguments := ", ".intercalate ((List.range arity).map (Probe.argumentName set))
  have hbetween : between? "      __tp_r = " ");" ("  " ++ ("  " ++ ("  " ++
      ("__tp_r = " ++ Probe.call function arity set ++ ";")))) =
        some (function.toList ++ '(' :: arguments.toList) :=
    between?_eq_some (by simp [Probe.call, arguments])
  have hlisted : ∀ name ∈ (List.range arity).map (Probe.argumentName set), IsListed name := by
    intro name hname
    obtain ⟨place, -, rfl⟩ := List.mem_map.1 hname
    exact isListed_argumentName set place
  unfold readCall?
  rw [hbetween, Option.bind_eq_bind, Option.bind_some,
    splitOnce?_append (parenthesis_notMem_function hfunction), Option.bind_eq_bind,
    Option.bind_some]
  dsimp only
  rw [String.ofList_toList, String.ofList_toList, terms_listed hlisted]
  rfl

theorem readName?_eq_some {start stop line name : String}
    (h : line.toList = start.toList ++ (Json.quoteChars name.toList ++ stop.toList)) :
    readName? start stop line = some name := by
  unfold readName?
  rw [between?_eq_some h, Option.bind_eq_bind, Option.bind_some, Json.readLiteral?_quoteChars,
    String.ofList_toList]

/-! ## Written loops read back -/

/-- The loops of the checkpoints when `made` calls have been made before them. -/
def loopsOf (function : String) (arity made : Nat) : List Checkpoint → List Loop
  | [] => []
  | checkpoint :: rest =>
    { calls := checkpoint.iterations - made
      function
      arguments := (List.range arity).map (Probe.argumentName checkpoint.argumentSet)
      faulted := checkpoint.name
      emitted := checkpoint.name } :: loopsOf function arity checkpoint.iterations rest

theorem readLoops?_segments {function : String} (hfunction : isFunctionName function = true)
    (arity made : Nat) (checkpoints : List Checkpoint) :
    readLoops? (Code.indent (Probe.segments function arity made checkpoints) ++
      ["  return true;", "\x7d"]) = some (loopsOf function arity made checkpoints) := by
  induction checkpoints generalizing made with
  | nil => rfl
  | cons checkpoint rest ih =>
    have hlines : Code.indent (Probe.segments function arity made (checkpoint :: rest)) ++
        ["  return true;", "\x7d"] =
      "  try \x7b" ::
      ("  " ++ ("  " ++ ("for (__tp_i = 0; __tp_i < " ++
        naturalText (checkpoint.iterations - made) ++ "; __tp_i++)" ++ " \x7b"))) ::
      ("  " ++ ("  " ++ ("  " ++
        ("__tp_r = " ++ Probe.call function arity checkpoint.argumentSet ++ ";")))) ::
      "    \x7d" :: "  \x7d catch (__tp_e) \x7b" ::
      ("  " ++ ("  " ++ ("__tp_fault(" ++ Json.quote checkpoint.name ++ ", __tp_e);"))) ::
      "    return false;" :: "  \x7d" ::
      ("  " ++ ("__tp_emit(" ++ Json.quote checkpoint.name ++ ", __tp_r);")) ::
      (Code.indent (Probe.segments function arity checkpoint.iterations rest) ++
        ["  return true;", "\x7d"]) := by
      simp only [Probe.segments, Probe.segment, Code.indent, List.map_append]
      rfl
    have hfaulted : readName? "    __tp_fault(" ", __tp_e);"
        ("  " ++ ("  " ++ ("__tp_fault(" ++ Json.quote checkpoint.name ++ ", __tp_e);"))) =
          some checkpoint.name :=
      readName?_eq_some (by simp [Json.quote])
    have hemitted : readName? "  __tp_emit(" ", __tp_r);"
        ("  " ++ ("__tp_emit(" ++ Json.quote checkpoint.name ++ ", __tp_r);")) =
          some checkpoint.name :=
      readName?_eq_some (by simp [Json.quote])
    rw [hlines, readLoops?, loopFrame, if_pos rfl]
    simp only [readLoop?, readBound?_head, readCall?_call hfunction, hfaulted, hemitted, ih,
      Option.bind_eq_bind, Option.bind_some]
    rfl

theorem readRunner?_runner {s : Scenario} (hfunction : isFunctionName s.function = true) :
    readRunner? (Probe.runner s) = some (loopsOf s.function s.arity 0 s.checkpoints) := by
  have hlines : Probe.runner s = "function __tp_run() \x7b" :: "  var __tp_r;" ::
      "  var __tp_i;" :: (Code.indent (Probe.segments s.function s.arity 0 s.checkpoints) ++
        ["  return true;", "\x7d"]) := by
    simp only [Probe.runner, Code.block, Code.chain, Code.chainRest, Code.indent, List.map_append,
      List.append_assoc]
    rfl
  rw [hlines, readRunner?, if_pos rfl, readLoops?_segments hfunction]

end TierCheck.Script
