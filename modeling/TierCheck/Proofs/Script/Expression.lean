import TierCheck.Proofs.Number.Printed
import TierCheck.Proofs.Script.Reading

/-!
# Functions that return a sum

Some functions of scripts return a sum of parameters, numerals and string literals, and nothing else
happens in them. Such a function can be read from its text and called: `+` adds numbers, and puts
texts together as soon as one side is a text.

* `Script.Expression`, `Expression.value?`: the sums and their values.
* `Script.readExpression?`: the reader, which goes through the characters once.
* `Script.readExpression?_text`: it reads an expression from its text.
* `Script.Definition`, `Script.readDefinition?`: a function that returns an expression.
-/
namespace TierCheck.Script

/-! ## Expressions -/

inductive Expression where
  | parameter (name : String)
  | natural (n : Nat)
  | literal (s : String)
  /-- An expression in parentheses. -/
  | group (inner : Expression)
  | add (left right : Expression)
deriving DecidableEq, Repr

/-- What `+` gives for two values. Numbers are added, and a number beside a text is printed. Other
kinds of values are not added here. -/
def plus? : Value → Value → Option Value
  | .number a, .number b => some (.number (a + b))
  | .number a, .string t => some (.string (a.printed ++ t))
  | .string s, .number b => some (.string (s ++ b.printed))
  | .string s, .string t => some (.string (s ++ t))
  | _, _ => none

namespace Expression

/-- The value of the expression when the parameters have the values of `lookup`. -/
def value? (lookup : String → Option Value) : Expression → Option Value
  | parameter name => lookup name
  | natural n => some (.ofNat n)
  | literal s => some (.string s)
  | group inner => inner.value? lookup
  | add left right => do plus? (← left.value? lookup) (← right.value? lookup)

def text : Expression → String
  | parameter name => name
  | natural n => naturalText n
  | literal s => "\"" ++ s ++ "\""
  | group inner => "(" ++ inner.text ++ ")"
  | add left right => left.text ++ " + " ++ right.text

/-- Whether the expression is a sum that does not stand in parentheses. -/
def isSum : Expression → Bool
  | add _ _ => true
  | _ => false

end Expression

/-! ## Tokens -/

inductive Token where
  | blank
  | plus
  | opening
  | closing
  | word (s : List Char)
  | literal (s : List Char)
deriving DecidableEq, Repr

namespace Token

/-- The token of a character that is one by itself. -/
def symbol? : Char → Option Token
  | ' ' => some blank
  | '+' => some plus
  | '(' => some opening
  | ')' => some closing
  | _ => none

/-- The tokens with a character of a word in front. -/
def extendWord (c : Char) : List Token → List Token
  | word w :: rest => word (c :: w) :: rest
  | rest => word [c] :: rest

/-- The tokens with a character of the literal that they begin with in front. -/
def extendLiteral (c : Char) : List Token → List Token
  | literal s :: rest => literal (c :: s) :: rest
  | rest => rest

/-- Whether the tokens begin with no word, so that a word in front of them ends there. -/
def endWord : List Token → Bool
  | word _ :: _ => false
  | _ => true

end Token

/-- Whether the character stands for itself in a literal. -/
def isLiteralCharacter (c : Char) : Bool := c ≠ '"' && c ≠ '\\' && c ≠ '\n' && c ≠ '\r'

/-- The tokens of a text. Inside a literal, the first of them is what is left of it. -/
def lex? (quoted : Bool) : List Char → Option (List Token)
  | [] => if quoted then none else some []
  | c :: rest =>
    if quoted then
      if c = '"' then (lex? false rest).map (.literal [] :: ·)
      else if isLiteralCharacter c then (lex? true rest).map (Token.extendLiteral c)
      else none
    else if c = '"' then lex? true rest
    else if isNameCharacter c then (lex? false rest).map (Token.extendWord c)
    else (Token.symbol? c).bind fun token => (lex? false rest).map (token :: ·)

/-! ## The reader -/

/-- The expression that a word is: a numeral without needless zeros, or a name. -/
def operand? (word : List Char) : Option Expression :=
  match (readDigits? word).filter fun n => Nat.toDigits 10 n = word with
  | some n => some (.natural n)
  | none =>
    if isFunctionName (String.ofList word) then some (.parameter (String.ofList word)) else none

/-- An operand behind the sum before it, if there is one. -/
def join (left : Option Expression) (operand : Expression) : Expression :=
  match left with
  | some sum => .add sum operand
  | none => operand

/-- How far an expression is read. The sums before the parentheses that are still open wait in
`outer`. -/
inductive Progress where
  /-- An operand has to follow. -/
  | due (left : Option Expression) (outer : List (Option Expression))
  /-- The expression may end here. -/
  | complete (sum : Expression) (outer : List (Option Expression))
deriving DecidableEq, Repr

namespace Progress

/-- One more token. -/
def step : Progress → Token → Option Progress
  | progress, .blank => some progress
  | due left outer, .word w => (operand? w).map fun operand => complete (join left operand) outer
  | due left outer, .literal s => some (complete (join left (.literal (String.ofList s))) outer)
  | due left outer, .opening => some (due none (left :: outer))
  | complete sum outer, .plus => some (due (some sum) outer)
  | complete sum (left :: outer), .closing => some (complete (join left (.group sum)) outer)
  | _, _ => none

end Progress

/-- The expression that a text is. -/
def readExpression? (s : List Char) : Option Expression := do
  match ← (← lex? false s).foldlM Progress.step (.due none []) with
  | .complete sum [] => some sum
  | _ => none

/-! ## Expressions read back -/

/-- The expression can be told from its text: sums on the right of a `+` stand in parentheses, and
literals need no escapes. -/
inductive IsReadable : Expression → Prop where
  | parameter {name : String} (hname : isFunctionName name = true) : IsReadable (.parameter name)
  | natural (n : Nat) : IsReadable (.natural n)
  | literal {s : String} (hs : ∀ c ∈ s.toList, isLiteralCharacter c = true) :
    IsReadable (.literal s)
  | group {inner : Expression} (hinner : IsReadable inner) : IsReadable (.group inner)
  | add {left right : Expression} (hleft : IsReadable left) (hright : IsReadable right)
    (hsum : right.isSum = false) : IsReadable (.add left right)

def Expression.tokens : Expression → List Token
  | parameter name => [.word name.toList]
  | natural n => [.word (Nat.toDigits 10 n)]
  | literal s => [.literal s.toList]
  | group inner => .opening :: (inner.tokens ++ [.closing])
  | add left right => left.tokens ++ .blank :: .plus :: .blank :: right.tokens

theorem isNameCharacter_of_isFunctionName {name : String} (h : isFunctionName name = true) :
    name.toList ≠ [] ∧ ∀ c ∈ name.toList, isNameCharacter c = true := by
  unfold isFunctionName at h
  cases hchars : name.toList with
  | nil =>
    rw [hchars] at h
    cases h
  | cons c rest =>
    simp only [hchars, Bool.and_eq_true] at h
    exact ⟨List.cons_ne_nil _ _, List.forall_mem_cons.2 ⟨h.1.1, List.all_eq_true.1 h.2⟩⟩

theorem lex?_word {w : List Char} (hw : ∀ c ∈ w, isNameCharacter c = true) (hne : w ≠ [])
    {rest : List Char} {tokens : List Token} (hrest : lex? false rest = some tokens)
    (hends : Token.endWord tokens = true) : lex? false (w ++ rest) = some (.word w :: tokens) := by
  have hquote : ∀ {c : Char}, isNameCharacter c = true → c ≠ '"' := by
    rintro c hc rfl
    revert hc
    decide
  induction w with
  | nil => exact absurd rfl hne
  | cons c w ih =>
    rw [List.forall_mem_cons] at hw
    rw [List.cons_append, lex?, if_neg Bool.false_ne_true, if_neg (hquote hw.1), if_pos hw.1]
    cases w with
    | nil =>
      rw [List.nil_append, hrest, Option.map_some]
      cases tokens with
      | nil => rfl
      | cons token tokens => cases token <;> first | rfl | cases hends
    | cons d w =>
      rw [ih hw.2 (List.cons_ne_nil _ _), Option.map_some]
      rfl

theorem lex?_literal {s : List Char} (hs : ∀ c ∈ s, isLiteralCharacter c = true)
    (rest : List Char) :
    lex? true (s ++ '"' :: rest) = (lex? false rest).map (.literal s :: ·) := by
  induction s with
  | nil => rfl
  | cons c s ih =>
    rw [List.forall_mem_cons] at hs
    have hquote : c ≠ '"' := by
      rintro rfl
      cases hs.1
    rw [List.cons_append, lex?, if_pos rfl, if_neg hquote, if_pos hs.1, ih hs.2, Option.map_map]
    rfl

theorem lex?_symbol {c : Char} {token : Token} (hc : Token.symbol? c = some token)
    (hplain : c ≠ '"' ∧ isNameCharacter c = false) (rest : List Char) :
    lex? false (c :: rest) = (lex? false rest).map (token :: ·) := by
  rw [lex?, if_neg Bool.false_ne_true, if_neg hplain.1, hplain.2, if_neg Bool.false_ne_true, hc]
  rfl

/-- The text of an expression, in front of other text that does not continue its last word. -/
theorem lex?_text {e : Expression} (h : IsReadable e) {rest : List Char} {tokens : List Token}
    (hrest : lex? false rest = some tokens) (hends : Token.endWord tokens = true) :
    lex? false (e.text.toList ++ rest) = some (e.tokens ++ tokens) := by
  induction h generalizing rest tokens with
  | parameter hname =>
    obtain ⟨hne, hchars⟩ := isNameCharacter_of_isFunctionName hname
    exact lex?_word hchars hne hrest hends
  | natural n =>
    rw [Expression.text, naturalText, String.toList_ofList]
    refine lex?_word (fun c hc => ?_) Nat.toDigits_ne_nil hrest hends
    simp [isNameCharacter, Char.isAlphanum, isDigit_of_mem_toDigits hc]
  | @literal s hs =>
    have htext : (Expression.literal s).text.toList ++ rest =
        '"' :: (s.toList ++ '"' :: rest) := by
      simp [Expression.text]
    rw [htext, lex?, if_neg Bool.false_ne_true, if_pos rfl, lex?_literal hs, hrest]
    rfl
  | @group inner _ ih =>
    have htext : (Expression.group inner).text.toList ++ rest =
        '(' :: (inner.text.toList ++ ')' :: rest) := by
      simp [Expression.text]
    have hclosing : lex? false (')' :: rest) = some (.closing :: tokens) := by
      rw [lex?_symbol rfl (by decide), hrest]
      rfl
    rw [htext, lex?_symbol rfl (by decide), ih hclosing rfl]
    simp [Expression.tokens]
  | @add left right _ _ _ ihleft ihright =>
    have htext : (Expression.add left right).text.toList ++ rest =
        left.text.toList ++ ' ' :: '+' :: ' ' :: (right.text.toList ++ rest) := by
      simp [Expression.text]
    have hright : lex? false (' ' :: '+' :: ' ' :: (right.text.toList ++ rest)) =
        some (.blank :: .plus :: .blank :: (right.tokens ++ tokens)) := by
      rw [lex?_symbol rfl (by decide), lex?_symbol rfl (by decide), lex?_symbol rfl (by decide),
        ihright hrest hends]
      rfl
    rw [htext, ihleft hright rfl]
    simp [Expression.tokens]

theorem operand?_natural (n : Nat) : operand? (Nat.toDigits 10 n) = some (.natural n) := by
  rw [operand?, readDigits?_toDigits, Option.filter_some, if_pos (by simp)]

theorem operand?_name {name : String} (h : isFunctionName name = true) :
    operand? name.toList = some (.parameter name) := by
  have hfirst : readDigits? name.toList = none := by
    unfold isFunctionName at h
    cases hchars : name.toList with
    | nil =>
      rw [hchars] at h
      cases h
    | cons c rest =>
      simp only [hchars, Bool.and_eq_true, Bool.not_eq_true'] at h
      have hdigit : digit? c = none := by
        rw [digit?, if_neg]
        intro hrange
        have : c.isDigit = true := by simpa [Char.isDigit, Char.le_def] using hrange
        rw [h.1.2] at this
        cases this
      rw [readDigits?, List.foldlM_cons, hdigit]
      rfl
  rw [operand?, hfirst, String.ofList_toList]
  exact if_pos h

/-- The tokens of an expression are read as an operand, or as a sum where nothing stands before
it. -/
theorem foldlM_tokens {e : Expression} (h : IsReadable e) {left : Option Expression}
    (hleft : e.isSum = true → left = none) (outer : List (Option Expression)) :
    e.tokens.foldlM Progress.step (.due left outer) = some (.complete (join left e) outer) := by
  induction h generalizing left outer with
  | parameter hname =>
    simp [Expression.tokens, Progress.step, operand?_name hname]
  | natural n => simp [Expression.tokens, Progress.step, operand?_natural]
  | literal _ => simp [Expression.tokens, Progress.step]
  | @group inner _ ih =>
    rw [Expression.tokens, List.foldlM_cons, Progress.step, Option.bind_eq_bind, Option.bind_some,
      List.foldlM_append, ih (fun _ => rfl), Option.bind_eq_bind, Option.bind_some]
    rfl
  | @add first second _ _ hsum ihfirst ihsecond =>
    obtain rfl := hleft rfl
    rw [Expression.tokens, List.foldlM_append, ihfirst (fun _ => rfl), Option.bind_eq_bind,
      Option.bind_some]
    change second.tokens.foldlM Progress.step (.due (some first) outer) = _
    rw [ihsecond fun hsecond => by rw [hsum] at hsecond; cases hsecond]
    rfl

/-- **An expression is read from its text.** -/
theorem readExpression?_text {e : Expression} (h : IsReadable e) :
    readExpression? e.text.toList = some e := by
  have htokens : lex? false e.text.toList = some e.tokens := by
    have hnil : lex? false [] = some [] := rfl
    simpa using lex?_text h hnil rfl
  rw [readExpression?, htokens, Option.bind_eq_bind, Option.bind_some,
    foldlM_tokens h (fun _ => rfl)]
  rfl

/-! ## Functions -/

/-- A function that returns an expression. -/
structure Definition where
  name : String
  parameters : List String
  result : Expression
deriving DecidableEq, Repr

/-- What the function gives for arguments. -/
def Definition.call? (f : Definition) (arguments : List Value) : Option Value :=
  f.result.value? fun name => List.lookup name (f.parameters.zip arguments)

/-- The function that a text defines: a head with the parameters, the expression that is returned,
and the closing brace, each on a line of its own. -/
def readDefinition? (source : String) : Option Definition :=
  match lines source with
  | [head, body, "\x7d"] => do
    let (name, parameters) ← splitOnce? '(' (← between? "function " ") \x7b" head)
    let result ← readExpression? (← between? "  return " ";" body)
    return {
      name := String.ofList name
      parameters := terms (fun c => c = ',' || c = ' ') (String.ofList parameters)
      result }
  | _ => none

theorem isOneLine_of_forall {s : String} {p : Char → Bool} (h : ∀ c ∈ s.toList, p c = true)
    (hp : p '\n' = false ∧ p '\r' = false) : IsOneLine s := by
  constructor
  · intro hmem
    rw [h _ hmem] at hp
    cases hp.1
  · intro hmem
    rw [h _ hmem] at hp
    cases hp.2

theorem isOneLine_of_isFunctionName {name : String} (h : isFunctionName name = true) :
    IsOneLine name :=
  isOneLine_of_forall (isNameCharacter_of_isFunctionName h).2 (by decide)

theorem isOneLine_text {e : Expression} (h : IsReadable e) : IsOneLine e.text := by
  have hquote : IsOneLine "\"" := by constructor <;> decide
  have hplus : IsOneLine " + " := by constructor <;> decide
  have hopening : IsOneLine "(" := by constructor <;> decide
  have hclosing : IsOneLine ")" := by constructor <;> decide
  induction h with
  | parameter hname => exact isOneLine_of_isFunctionName hname
  | natural n =>
    refine isOneLine_of_forall (p := Char.isDigit) (fun c hc => ?_) (by decide)
    rw [Expression.text, naturalText, String.toList_ofList] at hc
    exact isDigit_of_mem_toDigits hc
  | literal hs =>
    exact isOneLine_append (isOneLine_append hquote (isOneLine_of_forall hs (by decide))) hquote
  | group _ ih => exact isOneLine_append (isOneLine_append hopening ih) hclosing
  | add _ _ _ ihleft ihright => exact isOneLine_append (isOneLine_append ihleft hplus) ihright

/-- Names between commas stand on one line. -/
theorem isOneLine_intercalate {names : List String} (h : ∀ name ∈ names, IsOneLine name) :
    IsOneLine (", ".intercalate names) := by
  induction names with
  | nil => constructor <;> decide
  | cons name rest ih =>
    have hcomma : IsOneLine ", " := by constructor <;> decide
    rw [List.forall_mem_cons] at h
    cases rest with
    | nil => simpa using h.1
    | cons next rest =>
      rw [String.intercalate_cons_cons]
      exact isOneLine_append (isOneLine_append h.1 hcomma) (ih h.2)

/-- **A function that returns an expression is read from its text.** -/
theorem readDefinition?_text {name : String} (hname : isFunctionName name = true)
    {parameters : List String} (hparameters : ∀ p ∈ parameters, IsListed p ∧ IsOneLine p)
    {e : Expression} (he : IsReadable e) :
    readDefinition? ("function " ++ name ++ "(" ++ ", ".intercalate parameters ++ ") \x7b" ++
      "\n" ++ ("  return " ++ e.text ++ ";" ++ "\n" ++ "\x7d")) =
      some ⟨name, parameters, e⟩ := by
  have hhead : IsOneLine ("function " ++ name ++ "(" ++ ", ".intercalate parameters ++
      ") \x7b") := by
    have hlist := isOneLine_intercalate fun p hp => (hparameters p hp).2
    have hfunction : IsOneLine "function " := by constructor <;> decide
    have hopening : IsOneLine "(" := by constructor <;> decide
    have hclosing : IsOneLine ") \x7b" := by constructor <;> decide
    exact isOneLine_append (isOneLine_append (isOneLine_append (isOneLine_append hfunction
      (isOneLine_of_isFunctionName hname)) hopening) hlist) hclosing
  have hbody : IsOneLine ("  return " ++ e.text ++ ";") :=
    isOneLine_append (isOneLine_append (by constructor <;> decide) (isOneLine_text he))
      (by constructor <;> decide)
  have hlast : lines "\x7d" = ["\x7d"] := by decide
  have hbetween : between? "function " ") \x7b" ("function " ++ name ++ "(" ++
      ", ".intercalate parameters ++ ") \x7b") =
        some (name.toList ++ '(' :: (", ".intercalate parameters).toList) :=
    between?_eq_some (by simp)
  have hreturned : between? "  return " ";" ("  return " ++ e.text ++ ";") =
      some e.text.toList :=
    between?_eq_some (by simp)
  unfold readDefinition?
  rw [lines_append hhead, lines_append hbody, hlast]
  simp only [hbetween, hreturned, Option.bind_eq_bind, Option.bind_some,
    splitOnce?_append (parenthesis_notMem_function hname), readExpression?_text he,
    String.ofList_toList, terms_listed fun p hp => (hparameters p hp).1]
  rfl

end TierCheck.Script
