/-!
# Blank characters

`isBlank` is the class of white space that the whole library uses: the characters with the
property White_Space. The zero width space and the byte order mark are not in it. Texts are trimmed
and cut into pieces here.

* `trim`: the text without blanks at both ends.
* `pieces`: the parts between separators, empty ones included, so there is one more than there
  are separators.
* `terms`: the pieces that are not empty.
* `splitOnce?`: what stands before and after the first separator.
* `Environment`: texts of variables, of which blank ones count as missing.
-/

namespace TierCheck

/-- Whether the character has the property White_Space. -/
def isBlank (c : Char) : Bool :=
  let n := c.toNat
  (0x09 ≤ n && n ≤ 0x0D) || n = 0x20 || n = 0x85 || n = 0xA0 || n = 0x1680 ||
    (0x2000 ≤ n && n ≤ 0x200A) || n = 0x2028 || n = 0x2029 || n = 0x202F || n = 0x205F ||
    n = 0x3000

def hasBlank (s : String) : Bool := s.toList.any isBlank

/-- The characters without those at the end that satisfy `p`. -/
def dropWhileEnd (p : Char → Bool) (s : List Char) : List Char :=
  (s.reverse.dropWhile p).reverse

def trim (s : String) : String :=
  String.ofList (dropWhileEnd isBlank (s.toList.dropWhile isBlank))

/-- The parts of the text between the characters that satisfy `p`. -/
def pieces {α : Type} (p : α → Bool) : List α → List (List α)
  | [] => [[]]
  | c :: rest =>
    if p c then [] :: pieces p rest
    else
      match pieces p rest with
      | [] => [[c]]
      | first :: others => (c :: first) :: others

/-- The parts of the text between separators that are not empty. -/
def terms (isSeparator : Char → Bool) (s : String) : List String :=
  ((pieces isSeparator s.toList).filter (· ≠ [])).map String.ofList

/-- The separators of the lists a user writes: comma, semicolon and blanks. -/
def isListSeparator (c : Char) : Bool := c = ',' || c = ';' || isBlank c

/-- What stands before and after the first occurrence of `separator`. -/
def splitOnce? (separator : Char) : List Char → Option (List Char × List Char)
  | [] => none
  | c :: rest =>
    if c = separator then some ([], rest)
    else (splitOnce? separator rest).map fun (before, after) => (c :: before, after)

/-- The text after `start`, if the text begins with it. -/
def after? (start : String) (s : List Char) : Option (List Char) :=
  if start.toList.isPrefixOf s then some (s.drop start.toList.length) else none

/-- Whether `part` occurs in the text as a whole. -/
def occursIn (part : List Char) : List Char → Bool
  | [] => part.isEmpty
  | c :: rest => part.isPrefixOf (c :: rest) || occursIn part rest

/-! ## Environments -/

/-- The texts of variables. -/
abbrev Environment := String → Option String

/-- The text of a variable without blanks around it, if anything is left of it. -/
def Environment.value? (env : Environment) (key : String) : Option String :=
  ((env key).map trim).filter (· ≠ "")

end TierCheck
