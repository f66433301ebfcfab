/-!
# The end of a stream

Of a stream only the last bytes are kept. It is read into a chunk of fixed size that is used again
for each read: what was read is appended to what is kept, and then the excess is dropped from the
front. The stream ends with a read that gives no bytes, or with one that fails.

* `TailReader.step`: the loop, one step at a time.
* `TailReader.read`: what is kept in the end.
-/

namespace TierCheck

/-- What comes next in a stream: some bytes, no bytes at its end, or why it cannot be read. -/
abbrev Arrival := Except String (List UInt8)

namespace TailReader

def chunkSize : Nat := 4096

inductive Phase where
  | reading
  /-- The chunk begins with so many bytes that were just read. -/
  | appending (count : Nat)
  | trimming
  | finished
deriving DecidableEq, Repr

end TailReader

structure TailReader where
  phase : TailReader.Phase
  /-- The bytes of the last read, before what is left of those that were read earlier. -/
  chunk : List UInt8
  tail : List UInt8
  /-- What is still to be read. -/
  arrivals : List Arrival

namespace TailReader

def start (arrivals : List Arrival) : TailReader :=
  { phase := .reading, chunk := List.replicate chunkSize 0, tail := [], arrivals }

/-- The next step of the loop. One read takes what has arrived as far as it fits into the chunk. -/
def step (limit : Nat) (t : TailReader) : TailReader :=
  match t.phase with
  | .reading =>
    match t.arrivals with
    | .ok (byte :: bytes) :: later =>
      let new := (byte :: bytes).take chunkSize
      let unread := (byte :: bytes).drop chunkSize
      { t with
        phase := .appending new.length
        chunk := new ++ t.chunk.drop new.length
        arrivals := if unread = [] then later else .ok unread :: later }
    | _ => { t with phase := .finished }
  | .appending count => { t with phase := .trimming, tail := t.tail ++ t.chunk.take count }
  | .trimming =>
    let excess := if limit < t.tail.length then t.tail.length - limit else 0
    { t with phase := .reading, tail := t.tail.drop excess }
  | .finished => t

def run (limit : Nat) : Nat → TailReader → TailReader
  | 0, t => t
  | n + 1, t => run limit n (t.step limit)

/-- The bytes that arrive before the stream ends. -/
def coming : List Arrival → List UInt8
  | .ok (byte :: bytes) :: later => byte :: bytes ++ coming later
  | _ => []

/-- The number of steps to the end, at most. Every step makes it less. -/
def remaining (t : TailReader) : Nat :=
  3 * (coming t.arrivals).length +
    match t.phase with
    | .reading => 1
    | .appending _ => 3
    | .trimming => 2
    | .finished => 0

def read (limit : Nat) (arrivals : List Arrival) : List UInt8 :=
  (run limit (start arrivals).remaining (start arrivals)).tail

end TailReader

end TierCheck
