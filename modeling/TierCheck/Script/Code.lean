/-!
# Lines of a script

Scripts are composed line by line. A block is a head, indented lines and a closing brace; a chain
is a row of blocks in which each head stands behind the brace before it.

All scripts start with the same functions: printing a line with whatever the subject offers for it,
naming the kind of a value with its text, reporting a result and reporting a fault.
-/

namespace TierCheck

/-- The lines of a piece of a script, without their line ends. -/
abbrev Code := List String

namespace Code

/-- The lines, two spaces deeper. -/
def indent (lines : Code) : Code := lines.map ("  " ++ ·)

/-- What follows the opening brace of a chain: its lines, then the further blocks. -/
def chainRest (lines : Code) : List (String × Code) → Code
  | [] => indent lines ++ ["\x7d"]
  | (head, more) :: others => indent lines ++ ("\x7d " ++ head ++ " \x7b") :: chainRest more others

/-- Blocks in a row, such as those of a `try` with its handlers. -/
def chain (head : String) (lines : Code) (others : List (String × Code)) : Code :=
  (head ++ " \x7b") :: chainRest lines others

/-- A head with a block of lines. -/
def block (head : String) (lines : Code) : Code := chain head lines []

/-- The lines as one text. Every line is ended. -/
def text (lines : Code) : String := String.join (lines.map (· ++ "\n"))

/-- The lines as one text in which the last line is not ended. -/
def joined (lines : Code) : String := "\n".intercalate lines

end Code

/-- A text between braces, on one line. -/
def braced (inner : String) : String := "\x7b " ++ inner ++ " \x7d"

def emptyBraces : String := "\x7b\x7d"

/-! ## The start of every script -/

namespace Script

/-- Finds the subject's function for printing. -/
def printer : Code :=
  ["var __tp_print = (typeof print === \"function\") ? print",
    "  : (typeof console !== \"undefined\") ? function (s) " ++ braced "console.log(s);",
    "  : function () " ++ emptyBraces ++ ";"]

/-- Defines the kind and the text of a value. Negative zero keeps its sign, and an object without
a JSON form is shown by its class. -/
def describer : Code :=
  Code.block "function __tp_describe(v)" <|
    ["if (v === null) return [\"null\", \"null\"];",
      "var t = typeof v;",
      "if (t === \"number\") return [\"number\", (v === 0 && 1 / v < 0) ? \"-0\" : String(v)];"] ++
    Code.block "if (t === \"object\")"
      ["try \x7b",
        "  var j = JSON.stringify(v);",
        "  if (j !== undefined) return [\"object\", j];",
        "\x7d catch (e) " ++ emptyBraces,
        "return [\"object\", Object.prototype.toString.call(v)];"] ++
    ["if (t === \"symbol\") return [\"symbol\", v.toString()];",
      "return [t, String(v)];"]

def emitter : Code :=
  Code.block "function __tp_emit(cp, v)"
    ["var d = __tp_describe(v);",
      "__tp_print(\"CHECKPOINT:\" + cp);",
      "__tp_print(\"RESULT:\" + d[0] + \":\" + JSON.stringify(d[1]));"]

def faulter : Code :=
  Code.block "function __tp_fault(cp, e)" <|
    ["var m;"] ++
    Code.chain "try" ["m = (e && e.stack) ? String(e.stack) : String(e);"]
      [("catch (x)", ["m = \"<unprintable exception>\";"])] ++
    ["__tp_print(\"FAULT:\" + cp + \":\" + JSON.stringify(m));"]

/-- The lines shared by all scripts. -/
def prelude : Code :=
  [""] ++ printer ++ [""] ++ describer ++ [""] ++ emitter ++ [""] ++ faulter

end Script

end TierCheck
