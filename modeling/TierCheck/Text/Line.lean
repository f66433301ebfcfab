import TierCheck.Text.Blank
/-!
# Lines of text, and texts on one line

A line feed ends a line, a carriage return right before it belongs to the line end, and a lone
carriage return is an ordinary character. The last line need not be ended.

A diagnosis shows a text between double quotes with every character visible: a quote and a
backslash behind a backslash, the usual control characters by letter, and every other character
that prints as nothing, as white space or as a mark on its neighbour by its code point in
hexadecimal.

* `lines`: the lines of a text.
* `firstLine`, `lastLine`: what a diagnosis quotes of a longer text.
* `singleLine`: a text made fit for one line of a report.
* `quoted`: a text as a diagnosis shows it.
-/

namespace TierCheck

/-- The characters without one carriage return at the end. -/
def dropReturn (s : List Char) : List Char :=
  if s.getLast? = some '\r' then s.dropLast else s

/-- The lines of the text. Each piece but the last was ended by a line feed and gives up the
carriage return before it; the last piece is a line only if it holds a character. -/
def lines (s : String) : List String :=
  let parts := pieces (· = '\n') s.toList
  let ended := parts.dropLast.map dropReturn
  let last := parts.getLast?.getD []
  (if last = [] then ended else ended ++ [last]).map String.ofList

/-- The first line, or the text itself if it has none. -/
def firstLine (s : String) : String := (lines s).head?.getD s

/-- The last line, or the text itself if it has none. -/
def lastLine (s : String) : String := (lines s).getLast?.getD s

/-- The greatest number of characters that a report line quotes of a value. -/
def quotedLength : Nat := 120

/-- One character of a text shown on one line: line ends are written as escapes. -/
def escapeLineEnd (c : Char) : List Char :=
  if c = '\r' then ['\\', 'r'] else if c = '\n' then ['\\', 'n'] else [c]

/-- The text on one line, cut after `quotedLength` characters with an ellipsis. -/
def singleLine (s : String) : String :=
  let escaped := s.toList.flatMap escapeLineEnd
  if escaped.length ≤ quotedLength then String.ofList escaped
  else String.ofList (escaped.take quotedLength) ++ "..."

/-! ## Texts between quotes -/

/-- The ranges of characters shown by code point: controls, separators other than the plain space,
formatting characters, marks that extend the character before them, and private use. -/
def hiddenRanges : List (Nat × Nat) :=
  [(0x00, 0x1F), (0x7F, 0xA0), (0xAD, 0xAD), (0x300, 0x36F), (0x483, 0x489), (0x591, 0x5BD),
    (0x600, 0x605), (0x610, 0x61A), (0x61C, 0x61C), (0x64B, 0x65F), (0x6DD, 0x6DD),
    (0x70F, 0x70F), (0x1680, 0x1680), (0x180B, 0x180F), (0x1AB0, 0x1ACE), (0x1DC0, 0x1DFF),
    (0x2000, 0x200F), (0x2028, 0x202F), (0x205F, 0x206F), (0x20D0, 0x20F0), (0x3000, 0x3000),
    (0x302A, 0x302F), (0x3099, 0x309A), (0xE000, 0xF8FF), (0xFE00, 0xFE0F), (0xFE20, 0xFE2F),
    (0xFEFF, 0xFEFF), (0xFFF0, 0xFFFB), (0xFFFE, 0xFFFF), (0xE0000, 0x10FFFF)]

/-- Whether a diagnosis shows the character by its code point. -/
def isHidden (c : Char) : Bool :=
  hiddenRanges.any fun (low, high) => low ≤ c.toNat && c.toNat ≤ high

def codePointText (c : Char) : List Char := Nat.toDigits 16 c.toNat

/-- One character between the quotes. -/
def quoteChar (c : Char) : List Char :=
  if c = '"' then ['\\', '"']
  else if c = '\\' then ['\\', '\\']
  else if c = '\n' then ['\\', 'n']
  else if c = '\r' then ['\\', 'r']
  else if c = '\t' then ['\\', 't']
  else if c.toNat = 0 then ['\\', '0']
  else if isHidden c then ['\\', 'u', '\x7b'] ++ codePointText c ++ ['\x7d']
  else [c]

/-- The text between double quotes, with every character visible. -/
def quoted (s : String) : String :=
  String.ofList ('"' :: s.toList.flatMap quoteChar ++ ['"'])

end TierCheck
