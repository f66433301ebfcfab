import TierCheck.Json.Literal
import TierCheck.Number.Decimal
/-!
# JSON documents

The tree of a document. A number keeps the characters it was written with, so it can be read as
whatever kind of number its place demands. A string or a name has a text unless an escape in it
names one half of a pair alone; such a literal is well formed, and only a place that needs its text
has to refuse it.

Documents are written for people: one item or member a line, two spaces deeper than the bracket
around it. An empty array or object stays on its line.

* The `as…?` functions read a tree as the kind of value that a place demands.
* `Json.pretty`: the document as text.
-/

namespace TierCheck

inductive Json where
  | null
  | bool (b : Bool)
  | number (written : String)
  | string (text : Option String)
  | array (items : List Json)
  | object (members : List (Option String × Json))

namespace Json

def ofText (s : String) : Json := .string (some s)

def ofNatural (n : Nat) : Json := .number (naturalText n)

/-- The document that holds a text or nothing. -/
def ofOption : Option String → Json
  | none => .null
  | some s => ofText s

/-- The object with these members. -/
def record (members : List (String × Json)) : Json :=
  .object (members.map fun (name, value) => (some name, value))

def asText? : Json → Option String
  | .string text => text
  | _ => none

/-- The natural number below `2 ^ 64` that the document holds. It has to be written as digits. -/
def asNatural? : Json → Option Nat
  | .number written => if written.toList.head? = some '+' then none
    else readNatural? (wordLimit 64) written.toList
  | _ => none

/-- The items of an array, each read by `read`. -/
def asList? {α : Type} (read : Json → Option α) : Json → Option (List α)
  | .array items => items.mapM read
  | _ => none

/-- What an optional place holds: an absent member and `null` are nothing. -/
def asOption? {α : Type} (read : Json → Option α) : Option Json → Option (Option α)
  | none => some none
  | some .null => some none
  | some value => (read value).map some

/-- The name of a case without data: the name itself, or an object that gives it nothing. -/
def asCase? : Json → Option String
  | .string text => text
  | .object [(name, .null)] => name
  | _ => none

/-- The members of an object, all of which need names with a text. -/
def asMembers? : Json → Option (List (String × Json))
  | .object members => members.mapM fun (name, value) => name.map fun name => (name, value)
  | _ => none

/-- The fields of a record in the order of `names`, `none` for a missing one. An object may have
its members in any order and others besides, but none of the fields twice. An array gives all the
fields in order. -/
def asRecord? (names : List String) : Json → Option (List (Option Json))
  | .array items => if items.length = names.length then some (items.map some) else none
  | document => do
    let members ← asMembers? document
    if names.any fun name => 1 < members.countP (fun (other, _) => name == other) then none
    return names.map fun name => (members.find? fun (other, _) => name == other).map (·.2)

end Json

/-! ## Writing -/

namespace Json

/-- A line feed and the indentation of a depth. -/
def newLine (depth : Nat) : List Char := '\n' :: List.replicate (2 * depth) ' '

/-- The written form of a name or a string. A literal without a text is written as the empty one. -/
def writeText (text : Option String) : List Char := quoteChars (text.getD "").toList

mutual

/-- Writes a document whose first line is at `depth`. -/
def write (depth : Nat) : Json → List Char
  | .null => ['n', 'u', 'l', 'l']
  | .bool true => ['t', 'r', 'u', 'e']
  | .bool false => ['f', 'a', 'l', 's', 'e']
  | .number written => written.toList
  | .string text => writeText text
  | .array [] => ['[', ']']
  | .array (item :: items) =>
    '[' :: newLine (depth + 1) ++ write (depth + 1) item ++ writeItems (depth + 1) items ++
      newLine depth ++ [']']
  | .object [] => ['\x7b', '\x7d']
  | .object ((name, value) :: members) =>
    '\x7b' :: newLine (depth + 1) ++ writeText name ++ [':', ' '] ++ write (depth + 1) value ++
      writeMembers (depth + 1) members ++ newLine depth ++ ['\x7d']

/-- Writes the items after the first. -/
def writeItems (depth : Nat) : List Json → List Char
  | [] => []
  | item :: items => ',' :: newLine depth ++ write depth item ++ writeItems depth items

/-- Writes the members after the first. -/
def writeMembers (depth : Nat) : List (Option String × Json) → List Char
  | [] => []
  | (name, value) :: members =>
    ',' :: newLine depth ++ writeText name ++ [':', ' '] ++ write depth value ++
      writeMembers depth members

end

def pretty (document : Json) : String := String.ofList (write 0 document)

end Json

end TierCheck
