/-!
# Reading bytes as text

Bytes are read as UTF-8. What is not well formed does not stop the reading: each longest start of a
character that the next byte cannot continue becomes one replacement character, and that next byte
is read afresh.

The reader is a machine over bytes. Between characters it is at the start; inside one it holds the
bits so far, the number of bytes still owed, and the range the next byte has to be in, which rules
out overlong forms, surrogates and code points past the last.
-/

namespace TierCheck

namespace Utf8

/-- Where the reader stands between two bytes. -/
inductive State where
  /-- Between characters. -/
  | start
  /-- Inside a character: the bits so far, how many more bytes follow the next one, and the range
  of the next one. -/
  | inside (bits : Nat) (following : Nat) (low high : UInt8)
deriving DecidableEq, Repr

/-- The character shown for bytes that are no character. -/
def replacement : Char := '\uFFFD'

/-- One byte read between characters: the text it completes, and the state after it. -/
def first (b : UInt8) : List Char × State :=
  if b < 0x80 then ([Char.ofNat b.toNat], .start)
  else if 0xC2 ≤ b ∧ b ≤ 0xDF then ([], .inside (b.toNat - 0xC0) 0 0x80 0xBF)
  else if b = 0xE0 then ([], .inside 0 1 0xA0 0xBF)
  else if b = 0xED then ([], .inside 0xD 1 0x80 0x9F)
  else if 0xE1 ≤ b ∧ b ≤ 0xEF then ([], .inside (b.toNat - 0xE0) 1 0x80 0xBF)
  else if b = 0xF0 then ([], .inside 0 2 0x90 0xBF)
  else if 0xF1 ≤ b ∧ b ≤ 0xF3 then ([], .inside (b.toNat - 0xF0) 2 0x80 0xBF)
  else if b = 0xF4 then ([], .inside 4 2 0x80 0x8F)
  else ([replacement], .start)

def step : State → UInt8 → List Char × State
  | .start, b => first b
  | .inside bits following low high, b =>
    if low ≤ b ∧ b ≤ high then
      let bits := bits * 64 + b.toNat % 64
      match following with
      | 0 => ([Char.ofNat bits], .start)
      | n + 1 => ([], .inside bits n 0x80 0xBF)
    else
      let (text, state) := first b
      (replacement :: text, state)

/-- The text of the bytes from a state on. A character cut off by the end is replaced. -/
def decodeFrom : State → List UInt8 → List Char
  | .start, [] => []
  | .inside _ _ _ _, [] => [replacement]
  | state, b :: rest =>
    let (text, state) := step state b
    text ++ decodeFrom state rest

def decode (bytes : List UInt8) : String := String.ofList (decodeFrom .start bytes)

end Utf8

end TierCheck
