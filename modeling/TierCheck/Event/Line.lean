import TierCheck.Event.Basic
import TierCheck.Text.Blank
/-!
# Report lines

The written form of events, one a line:

    CHECKPOINT:<name>
    RESULT:<kind>:<JSON string>
    FAULT:<checkpoint>:<JSON string>
    SAMPLE:<iterations>:<milliseconds>
    DONE

* `Event.line`: writes an event.
* `Event.read`: reads a line. Whatever starts like none of these is chatter.
* `Value.read`: reads a result from its kind and its text.
-/

namespace TierCheck

/-- The number that a text stands for: one of the four special spellings, or a numeral that is
finite. Blanks around it do not count. -/
def readNumber? (text : String) : Option Double :=
  let trimmed := trim text
  if trimmed = "NaN" then some .nan
  else if trimmed = "Infinity" then some (.infinite false)
  else if trimmed = "-Infinity" then some (.infinite true)
  else (Double.read? trimmed.toList).filter Double.isFinite

/-- The value of a kind that is shown by the text. -/
def Value.read (kind text : String) : Except LineFault Value :=
  match kind with
  | "undefined" => .ok .undefined
  | "null" => .ok .null
  | "boolean" =>
    if text = "true" then .ok (.boolean true)
    else if text = "false" then .ok (.boolean false)
    else .error (.invalidBoolean text)
  | "number" =>
    match readNumber? text with
    | some n => .ok (.number n)
    | none => .error (.invalidNumber text)
  | "string" => .ok (.string text)
  | "object" => .ok (.object text)
  | "function" => .ok (.function text)
  | "symbol" => .ok (.other kind text)
  | "bigint" => .ok (.other kind text)
  | _ => .error (.unknownKind kind)

namespace Event

def line : Event → String
  | checkpoint name => "CHECKPOINT:" ++ name
  | result value raw => "RESULT:" ++ value.kindName ++ ":" ++ Json.quote raw
  | fault name message => "FAULT:" ++ name ++ ":" ++ Json.quote message
  | sample iterations elapsed => "SAMPLE:" ++ naturalText iterations ++ ":" ++ elapsed.text
  | done => "DONE"
  | chatter text => text

/-- The text of the string literal that a line carries. -/
def readPayload (s : List Char) : Except LineFault String :=
  match Json.readLiteral? s with
  | some text => .ok text
  | none => .error .payload

/-- Cuts the rest of a fault line before the quote that opens its payload. A checkpoint's name may
hold colons but no quote, so that is the first quote after a colon. -/
def splitFault? : List Char → Option (List Char × List Char)
  | [] => none
  | ':' :: '"' :: rest => some ([], '"' :: rest)
  | c :: rest => (splitFault? rest).map fun (name, payload) => (c :: name, payload)

def readCheckpoint (rest : List Char) : Except LineFault Event :=
  if rest = [] then .error .emptyCheckpoint else .ok (checkpoint (String.ofList rest))

def readResult (rest : List Char) : Except LineFault Event :=
  match splitOnce? ':' rest with
  | none => .error .missingKind
  | some (kind, payload) => do
    let raw ← readPayload payload
    return result (← Value.read (String.ofList kind) raw) raw

def readFault (rest : List Char) : Except LineFault Event :=
  match splitFault? rest with
  | none => .error .missingFaultCheckpoint
  | some ([], _) => .error .emptyFaultCheckpoint
  | some (name, payload) => do return fault (String.ofList name) (← readPayload payload)

/-- Reads the rest of a sample line. Blanks around its two numbers do not count. -/
def readSample (rest : List Char) : Except LineFault Event :=
  match splitOnce? ':' rest with
  | none => .error .missingElapsed
  | some (iterations, elapsed) =>
    match readNatural? (wordLimit 64) (trim (String.ofList iterations)).toList with
    | none => .error .invalidIterations
    | some n =>
      match Double.read? (trim (String.ofList elapsed)).toList with
      | none => .error .invalidElapsed
      | some t =>
        if t.isFinite ∧ Double.zero ≤ t then .ok (sample n t) else .error .invalidElapsed

/-- Reads a line without its line end. -/
def readContent (s : List Char) : Except LineFault Event :=
  match after? "CHECKPOINT:" s, after? "RESULT:" s, after? "FAULT:" s, after? "SAMPLE:" s with
  | some rest, _, _, _ => readCheckpoint rest
  | _, some rest, _, _ => readResult rest
  | _, _, some rest, _ => readFault rest
  | _, _, _, some rest => readSample rest
  | _, _, _, _ => .ok (if s = "DONE".toList then done else chatter (String.ofList s))

/-- Reads a line. All line feeds and carriage returns at its end are its line end. -/
def read (text : String) : Except MalformedLine Event :=
  let content := dropWhileEnd (fun c => c = '\r' || c = '\n') text.toList
  (readContent content).mapError fun fault => ⟨String.ofList content, fault⟩

end Event

end TierCheck
