import TierCheck.Catalog.Plan
/-!
# Calls with many arguments

Arguments beyond the register limit are passed in memory. These scenarios call functions with about
as many parameters as there are registers, and with seven in any case. Each shows a different thing
when an argument is read from the wrong place: a wrong sum, a wrong echo, or the text of a function
where a string was due.
-/

namespace TierCheck.Plan

/-- The number of parameters that every plan has a scenario for. -/
def canonicalArity : Nat := 7

/-- The numbers of parameters, in increasing order: from two below the register limit, but at
least one, to three above it. -/
def arities (registerLimit : Nat) : List Nat :=
  let low := max 1 (registerLimit - 2)
  let sweep := List.range' low (registerLimit + 4 - low)
  if canonicalArity ∈ sweep then sweep
  else if canonicalArity < low then canonicalArity :: sweep
  else sweep ++ [canonicalArity]

/-- The arguments `1, 2, …, n`. -/
def countingArguments (n : Nat) : List Value := (List.range n).map fun i => .ofNat (i + 1)

def plainSum (args : List Value) : Double := Double.sum (args.map numberOf)

/-- The sum of all arguments, each times its place counted from one. -/
def weightedSum (args : List Value) : Double :=
  Double.sum (args.zipIdx.map fun (v, i) => numberOf v * Double.ofNat (i + 1))

/-- The first `n` parameters added up. -/
def sumCode (n : Nat) : String := " + ".intercalate (parameterNames n)

/-- The first `n` parameters added up, each times its place counted from one. -/
def weightedCode (n : Nat) : String :=
  " + ".intercalate ((List.range n).map fun i => parameterName i ++ " * " ++ naturalText (i + 1))

/-- A function of `n` parameters that returns an expression. -/
def returning (name : String) (n : Nat) (expression : String) : Code :=
  Code.block ("function " ++ name ++ "(" ++ parameterList n ++ ")")
    ["return " ++ expression ++ ";"]

def sumDraft (plan : Plan) (n : Nat) : Draft :=
  let name := "sum" ++ naturalText n
  { id := "arity/" ++ name
    family := .arity
    description :=
      naturalText n ++ " integer arguments summed; 1..=" ++ naturalText n
    parameters := List.replicate n .integer
    returns := .integer
    checkpoints := plan.schedule.checkpoints
    function := name
    source := (returning name n (sumCode n)).joined
    argumentSets := [countingArguments n]
    reference? := some fun args => .number (plainSum args) }

/-- The number of last parameters that are echoed. -/
def echoed : Nat := 6

/-- The last arguments in order, then the weighted sum of all. -/
def echoText (args : List Value) : String :=
  ",".intercalate ((args.drop (args.length - echoed)).map Value.text) ++ "|" ++
    (weightedSum args).text

/-- An echo of the last arguments with a weighted sum of all, so that every argument shows. The
text stays short however many there are. -/
def echoDraft (plan : Plan) (n : Nat) : Draft :=
  let name := "probe" ++ naturalText n
  let first := n - echoed
  let echo := " + \",\" + ".intercalate ((parameterNames n).drop first)
  { id := "arity/" ++ name
    family := .arity
    description :=
      naturalText n ++ " distinct integer arguments; slots " ++ naturalText (first + 1) ++ "..=" ++
        naturalText n ++ " echoed in order, then a weighted checksum of all"
    parameters := List.replicate n .integer
    returns := .string
    checkpoints := plan.schedule.checkpoints
    function := name
    source :=
      (returning name n ("\"\" + " ++ echo ++ " + \"|\" + (" ++ weightedCode n ++ ")")).joined
    argumentSets := [countingArguments n]
    reference? := some fun args => .string (echoText args) }

/-- The sum of `n` numbers that are no integers, which are passed in other registers. -/
def floatSumDraft (plan : Plan) (n : Nat) : Draft :=
  let name := "fsum" ++ naturalText n
  { id := "arity/" ++ name
    family := .arity
    description := naturalText n ++ " float arguments summed through float registers"
    parameters := List.replicate n .float
    returns := .float
    checkpoints := plan.schedule.checkpoints
    function := name
    source := (returning name n (sumCode n)).joined
    argumentSets :=
      [(List.range n).map fun i => .number (Double.ofNat (i + 1) + Double.ofRatio 1 2)]
    reference? := some fun args => .number (plainSum args) }

/-- The last argument with the sum of those before it. -/
def stringTail (args : List Value) : Value :=
  match args.getLast? with
  | none => .undefined
  | some tail => .string (tail.text ++ ":" ++ (plainSum args.dropLast).text)

/-- A string after `n - 1` integers. Where the last place holds a function instead, the result
starts with its source. -/
def stringTailDraft (plan : Plan) (n : Nat) : Draft :=
  let name := "strtail" ++ naturalText n
  let total := if n ≤ 1 then "0" else sumCode (n - 1)
  { id := "arity/" ++ name
    family := .arity
    description := naturalText (n - 1) ++ " integers then a string in the last parameter"
    parameters := List.replicate (n - 1) .integer ++ [.string]
    returns := .string
    checkpoints := plan.schedule.checkpoints
    function := name
    source :=
      (returning name n (parameterName (n - 1) ++ " + \":\" + (" ++ total ++ ")")).joined
    argumentSets := [countingArguments (n - 1) ++ [.string "tail"]]
    reference? := some stringTail }

/-- A function that hands all its arguments on to another one. -/
def nestedDraft (plan : Plan) (n : Nat) : Draft :=
  let name := "nested" ++ naturalText n
  let callee := name ++ "_callee"
  { id := "arity/" ++ name
    family := .arity
    description := "JIT-to-JIT call forwarding " ++ naturalText n ++ " arguments"
    parameters := List.replicate n .integer
    returns := .integer
    checkpoints := plan.schedule.checkpoints
    function := name
    source :=
      (returning callee n (weightedCode n) ++
        returning name n (callee ++ "(" ++ parameterList n ++ ")")).joined
    argumentSets := [countingArguments n]
    reference? := some fun args => .number (weightedSum args) }

def callDrafts (plan : Plan) : List Draft :=
  (arities plan.registerLimit).flatMap fun n =>
    [plan.sumDraft n, plan.echoDraft n, plan.floatSumDraft n, plan.stringTailDraft n,
      plan.nestedDraft n]

end TierCheck.Plan
