import TierCheck.Json.Basic
/-!
# Reading JSON

Recursive descent over the characters. Each function returns what it read together with the rest of
the input. The first argument bounds the depth of the calls; every second call consumes a
character, so twice the length of the input is enough, and `Json.read?` starts with that.
-/

namespace TierCheck.Json

def isDigit (c : Char) : Bool := '0' ≤ c && c ≤ '9'

/-- Splits off at least one digit. -/
def scanDigits (s : List Char) : Option (List Char × List Char) :=
  let digits := s.takeWhile isDigit
  if digits = [] then none else some (digits, s.dropWhile isDigit)

/-- Splits off the integer part of a number: a lone zero, or digits without a zero in front. -/
def scanWhole : List Char → Option (List Char × List Char)
  | '0' :: rest => some (['0'], rest)
  | s => scanDigits s

/-- Splits off the fraction of a number, if there is one. -/
def scanFraction : List Char → Option (List Char × List Char)
  | '.' :: rest => (scanDigits rest).map fun (digits, rest) => ('.' :: digits, rest)
  | s => some ([], s)

/-- Splits off the exponent of a number, if there is one. -/
def scanExponent : List Char → Option (List Char × List Char)
  | c :: rest =>
    if c = 'e' ∨ c = 'E' then
      match rest with
      | '+' :: rest => (scanDigits rest).map fun (digits, rest) => (c :: '+' :: digits, rest)
      | '-' :: rest => (scanDigits rest).map fun (digits, rest) => (c :: '-' :: digits, rest)
      | rest => (scanDigits rest).map fun (digits, rest) => (c :: digits, rest)
    else some ([], c :: rest)
  | [] => some ([], [])

/-- Splits off a number without its sign. -/
def scanUnsigned (s : List Char) : Option (List Char × List Char) := do
  let (whole, s) ← scanWhole s
  let (fraction, s) ← scanFraction s
  let (exponent, s) ← scanExponent s
  return (whole ++ fraction ++ exponent, s)

def scanNumber : List Char → Option (List Char × List Char)
  | '-' :: rest => (scanUnsigned rest).map fun (written, rest) => ('-' :: written, rest)
  | s => scanUnsigned s

mutual

def readValue : Nat → List Char → Option (Json × List Char)
  | 0, _ => none
  | depth + 1, s =>
    match skipSpace s with
    | '"' :: rest => do
      let (pieces, rest) ← scan rest
      return (.string ((joinPieces? pieces).map String.ofList), rest)
    | '[' :: rest =>
      match skipSpace rest with
      | ']' :: rest => some (.array [], rest)
      | rest => (readItems depth rest).map fun (items, rest) => (.array items, rest)
    | '\x7b' :: rest =>
      match skipSpace rest with
      | '\x7d' :: rest => some (.object [], rest)
      | rest => (readMembers depth rest).map fun (members, rest) => (.object members, rest)
    | 'n' :: 'u' :: 'l' :: 'l' :: rest => some (.null, rest)
    | 't' :: 'r' :: 'u' :: 'e' :: rest => some (.bool true, rest)
    | 'f' :: 'a' :: 'l' :: 's' :: 'e' :: rest => some (.bool false, rest)
    | rest => (scanNumber rest).map fun (written, rest) => (.number (String.ofList written), rest)

/-- Reads the items of an array up to its end. -/
def readItems : Nat → List Char → Option (List Json × List Char)
  | 0, _ => none
  | depth + 1, s => do
    let (item, rest) ← readValue depth s
    match skipSpace rest with
    | ',' :: rest => (readItems depth rest).map fun (items, rest) => (item :: items, rest)
    | ']' :: rest => some ([item], rest)
    | _ => none

/-- Reads the members of an object up to its end. -/
def readMembers : Nat → List Char → Option (List (Option String × Json) × List Char)
  | 0, _ => none
  | depth + 1, s =>
    match skipSpace s with
    | '"' :: rest => do
      let (pieces, rest) ← scan rest
      let name := (joinPieces? pieces).map String.ofList
      match skipSpace rest with
      | ':' :: rest => do
        let (value, rest) ← readValue depth rest
        match skipSpace rest with
        | ',' :: rest =>
          (readMembers depth rest).map fun (members, rest) => ((name, value) :: members, rest)
        | '\x7d' :: rest => some ([(name, value)], rest)
        | _ => none
      | _ => none
    | _ => none

end

/-- The document that the text holds, with white space around it. -/
def read? (s : String) : Option Json := do
  let input := s.toList
  let (document, rest) ← readValue (2 * input.length + 2) input
  if (skipSpace rest).isEmpty then return document else none

end TierCheck.Json
