/-!
# JSON string literals

A text has one written form: quotes around it, a backslash before a quote or a backslash, the five
short escapes, `\u00xx` for the other control characters, and every other character as it is. The
reader takes the whole grammar: all short escapes, and `\u` escapes of UTF-16 units, of which two
may form one character.

Reading goes in two steps. `scan` cuts a literal into pieces and decides whether it is well formed;
`joinPieces?` makes a text of the pieces, which fails exactly when an escape names one half of a
pair without the other.

* `Json.quote`: the written form.
* `Json.readLiteral?`: the text of a literal that stands alone, with white space around it.
-/

namespace TierCheck.Json

/-- The two lowercase hexadecimal digits of a number below 256. -/
def hexPair (n : Nat) : List Char := [Nat.digitChar (n / 16), Nat.digitChar (n % 16)]

/-- One character in the written form. -/
def escapeChar (c : Char) : List Char :=
  if c = '"' then ['\\', '"']
  else if c = '\\' then ['\\', '\\']
  else if c = '\x08' then ['\\', 'b']
  else if c = '\x0c' then ['\\', 'f']
  else if c = '\n' then ['\\', 'n']
  else if c = '\r' then ['\\', 'r']
  else if c = '\t' then ['\\', 't']
  else if c.toNat < 0x20 then ['\\', 'u', '0', '0'] ++ hexPair c.toNat
  else [c]

/-- The written form of a text, as characters. -/
def quoteChars (s : List Char) : List Char := '"' :: s.flatMap escapeChar ++ ['"']

/-- The written form of a text. -/
def quote (s : String) : String := String.ofList (quoteChars s.toList)

/-- A piece of a literal: a character, or the UTF-16 unit that an escape names. -/
inductive Piece where
  | char (c : Char)
  | unit (n : Nat)
deriving DecidableEq, Repr

/-- The value of a hexadecimal digit of either case. -/
def hexDigit? (c : Char) : Option Nat :=
  if '0' ≤ c ∧ c ≤ '9' then some (c.toNat - '0'.toNat)
  else if 'a' ≤ c ∧ c ≤ 'f' then some (c.toNat - 'a'.toNat + 10)
  else if 'A' ≤ c ∧ c ≤ 'F' then some (c.toNat - 'A'.toNat + 10)
  else none

/-- The number written by four hexadecimal digits. -/
def hexUnit? (a b c d : Char) : Option Nat := do
  return (((← hexDigit? a) * 16 + (← hexDigit? b)) * 16 + (← hexDigit? c)) * 16 + (← hexDigit? d)

/-- The character that a backslash and a letter stand for. -/
def shortEscape? (c : Char) : Option Char :=
  if c = '"' ∨ c = '\\' ∨ c = '/' then some c
  else if c = 'b' then some '\x08'
  else if c = 'f' then some '\x0c'
  else if c = 'n' then some '\n'
  else if c = 'r' then some '\r'
  else if c = 't' then some '\t'
  else none

/-- The pieces up to the closing quote, and what follows it. -/
def scan : List Char → Option (List Piece × List Char)
  | [] => none
  | '"' :: rest => some ([], rest)
  | '\\' :: 'u' :: a :: b :: c :: d :: rest => do
    let n ← hexUnit? a b c d
    let (more, rest) ← scan rest
    return (.unit n :: more, rest)
  | '\\' :: e :: rest => do
    let c ← shortEscape? e
    let (more, rest) ← scan rest
    return (.char c :: more, rest)
  | c :: rest => do
    if c.toNat < 0x20 then none
    let (more, rest) ← scan rest
    return (.char c :: more, rest)

def isHighHalf (n : Nat) : Bool := 0xD800 ≤ n && n ≤ 0xDBFF

def isLowHalf (n : Nat) : Bool := 0xDC00 ≤ n && n ≤ 0xDFFF

/-- The text of the pieces, if each half of a pair has its other half beside it. -/
def joinPieces? : List Piece → Option (List Char)
  | [] => some []
  | .char c :: rest => (joinPieces? rest).map (c :: ·)
  | .unit high :: .unit low :: rest =>
    if isHighHalf high then
      if isLowHalf low then
        (joinPieces? rest).map
          (Char.ofNat (0x10000 + (high - 0xD800) * 0x400 + (low - 0xDC00)) :: ·)
      else none
    else if isLowHalf high then none
    else (joinPieces? (.unit low :: rest)).map (Char.ofNat high :: ·)
  | .unit n :: rest =>
    if isHighHalf n || isLowHalf n then none
    else (joinPieces? rest).map (Char.ofNat n :: ·)

def isSpace (c : Char) : Bool := c = ' ' || c = '\t' || c = '\n' || c = '\r'

def skipSpace (s : List Char) : List Char := s.dropWhile isSpace

/-- The text of a literal that stands alone, with white space around it. -/
def readLiteral? (s : List Char) : Option String :=
  match skipSpace s with
  | '"' :: rest => do
    let (pieces, rest) ← scan rest
    if (skipSpace rest).isEmpty then (joinPieces? pieces).map String.ofList else none
  | _ => none

end TierCheck.Json
