import Mathlib.Data.List.DropRight
import TierCheck.Subject.Process

/-!
# The tail of a stream, however it arrives

A reader that appends what it reads and drops the excess holds the last bytes of what it has
received so far. The excess depends on what was held before, so this is an invariant of the loop,
not a property of one read: what was dropped earlier is never missed later. What is left in the
chunk from earlier reads is never appended.

* `TailReader.Holds`: what the reader holds, by its place in the loop.
* `TailReader.Holds.step`, `TailReader.Holds.run`: no step changes that.
* `TailReader.remaining_step_lt`, `TailReader.finished_run`: the loop comes to its end.
* `TailReader.read_split`: the result.
-/
namespace TierCheck

/-! ## The last items of a list -/

theorem rtake_rtake_append {α : Type} (l m : List α) (n : Nat) :
    (l.rtake n ++ m).rtake n = (l ++ m).rtake n := by
  simp only [List.rtake_eq_reverse_take_reverse, List.reverse_append, List.reverse_reverse,
    List.take_append, List.take_take]
  rw [min_eq_left (Nat.sub_le _ _)]

theorem length_rtake {α : Type} (l : List α) (n : Nat) : (l.rtake n).length = min n l.length := by
  rw [List.rtake, List.length_drop]
  omega

namespace TailReader

variable {limit : Nat} {all : List UInt8} {t : TailReader}

/-! ## What the reader holds -/

/-- The reader holds the last of the bytes that it has received. Until it drops the excess, it also
holds all those of its last read. -/
inductive Holds (limit : Nat) (all : List UInt8) : TailReader → Prop where
  | reading {received chunk arrivals} (hall : received ++ coming arrivals = all) :
    Holds limit all ⟨.reading, chunk, received.rtake limit, arrivals⟩
  | appending {received chunk arrivals count} (hcount : count ≤ chunkSize)
      (hall : received ++ chunk.take count ++ coming arrivals = all) :
    Holds limit all ⟨.appending count, chunk, received.rtake limit, arrivals⟩
  | trimming {received new chunk arrivals} (hnew : new.length ≤ chunkSize)
      (hall : received ++ new ++ coming arrivals = all) :
    Holds limit all ⟨.trimming, chunk, received.rtake limit ++ new, arrivals⟩
  | finished {chunk arrivals} : Holds limit all ⟨.finished, chunk, all.rtake limit, arrivals⟩

theorem holds_start (limit : Nat) (arrivals : List Arrival) :
    Holds limit (coming arrivals) (start arrivals) := by
  have h : Holds limit (coming arrivals)
      ⟨.reading, List.replicate chunkSize 0, List.rtake [] limit, arrivals⟩ :=
    .reading (List.nil_append _)
  rwa [List.rtake_nil] at h

theorem coming_cons {bytes : List UInt8} (hne : bytes ≠ []) (later : List Arrival) :
    coming (.ok bytes :: later) = bytes ++ coming later := by
  cases bytes with
  | nil => exact absurd rfl hne
  | cons byte bytes => rfl

/-- What does not fit into the chunk is still to come. -/
theorem coming_unread (bytes : List UInt8) (later : List Arrival) :
    coming (if bytes.drop chunkSize = [] then later else .ok (bytes.drop chunkSize) :: later) =
      bytes.drop chunkSize ++ coming later := by
  split
  · next h => rw [h, List.nil_append]
  · next h => exact coming_cons h later

/-- The next read fails or gives no bytes, or it gives some of those that come. -/
theorem step_reading (limit : Nat) (chunk tail : List UInt8) (arrivals : List Arrival) :
    (coming arrivals = [] ∧
      step limit ⟨.reading, chunk, tail, arrivals⟩ = ⟨.finished, chunk, tail, arrivals⟩) ∨
    ∃ new rest arrivals', new ≠ [] ∧ new.length ≤ chunkSize ∧
      new ++ coming arrivals' = coming arrivals ∧
      step limit ⟨.reading, chunk, tail, arrivals⟩ =
        ⟨.appending new.length, new ++ rest, tail, arrivals'⟩ := by
  match arrivals with
  | [] | .ok [] :: _ | .error _ :: _ => exact .inl ⟨rfl, rfl⟩
  | .ok (byte :: bytes) :: later =>
    refine .inr ⟨_, _, _, ?_, ?_, ?_, rfl⟩
    · exact List.cons_ne_nil _ _
    · exact List.length_take_le _ _
    · rw [coming_unread, ← List.append_assoc, List.take_append_drop]
      rfl

theorem drop_excess (limit : Nat) (l : List UInt8) :
    l.drop (if limit < l.length then l.length - limit else 0) = l.rtake limit := by
  rw [List.rtake]
  split
  · rfl
  · next h => rw [Nat.sub_eq_zero_of_le (Nat.le_of_not_lt h)]

theorem Holds.step (h : Holds limit all t) : Holds limit all (t.step limit) := by
  cases h with
  | @reading received chunk arrivals hall =>
    rcases step_reading limit chunk (received.rtake limit) arrivals with
      ⟨hnone, hstep⟩ | ⟨new, rest, arrivals', -, hlength, hcoming, hstep⟩
    · rw [hnone, List.append_nil] at hall
      rw [hstep, hall]
      exact .finished
    · rw [hstep]
      refine .appending hlength ?_
      rw [List.take_left, List.append_assoc, hcoming, hall]
  | appending hcount hall => exact .trimming ((List.length_take_le _ _).trans hcount) hall
  | @trimming received new chunk arrivals _ hall =>
    have htrimmed : Holds limit all
        ⟨.reading, chunk, (received ++ new).rtake limit, arrivals⟩ := .reading hall
    rw [← rtake_rtake_append, ← drop_excess] at htrimmed
    exact htrimmed
  | finished => exact .finished

theorem Holds.run (h : Holds limit all t) (n : Nat) : Holds limit all (t.run limit n) := by
  induction n generalizing t with
  | zero => exact h
  | succ n ih => exact ih h.step

/-- Before the excess is dropped, there is at most one chunk of it. -/
theorem Holds.length_tail_le (h : Holds limit all t) : t.tail.length ≤ limit + chunkSize := by
  have hle (l : List UInt8) : (l.rtake limit).length ≤ limit := by
    rw [length_rtake]
    exact min_le_left _ _
  cases h with
  | reading | appending | finished => exact (hle _).trans (Nat.le_add_right _ _)
  | trimming hnew =>
    rw [List.length_append]
    exact Nat.add_le_add (hle _) hnew

theorem Holds.tail_eq (h : Holds limit all t) (hphase : t.phase = .finished) :
    t.tail = all.rtake limit := by
  cases h with
  | finished => rfl
  | _ => cases hphase

/-! ## The end of the loop -/

theorem remaining_step_lt (limit : Nat) (h : t.phase ≠ .finished) :
    (t.step limit).remaining < t.remaining := by
  obtain ⟨phase, chunk, tail, arrivals⟩ := t
  cases phase with
  | reading =>
    rcases step_reading limit chunk tail arrivals with
      ⟨-, hstep⟩ | ⟨new, rest, arrivals', hne, -, hcoming, hstep⟩
    · rw [hstep]
      exact Nat.lt_succ_self _
    · have hlength := congrArg List.length hcoming
      have hpos := List.length_pos_iff.2 hne
      rw [List.length_append] at hlength
      rw [hstep, remaining, remaining]
      dsimp only
      omega
  | appending count => exact Nat.lt_succ_self _
  | trimming => exact Nat.lt_succ_self _
  | finished => exact absurd rfl h

theorem run_of_finished (limit n : Nat) (h : t.phase = .finished) : t.run limit n = t := by
  induction n with
  | zero => rfl
  | succ n ih =>
    have hstep : t.step limit = t := by
      rw [step, h]
    rw [run, hstep, ih]

/-- The reader finishes in as many steps as remain. -/
theorem finished_run (limit : Nat) {n : Nat} (h : t.remaining ≤ n) :
    (t.run limit n).phase = .finished := by
  induction n generalizing t with
  | zero =>
    by_contra hphase
    exact absurd (remaining_step_lt limit hphase) (Nat.not_lt.2 (h.trans (Nat.zero_le _)))
  | succ n ih =>
    by_cases hphase : t.phase = .finished
    · rw [run_of_finished _ _ hphase, hphase]
    · exact ih (Nat.le_of_lt_succ ((remaining_step_lt limit hphase).trans_le h))

/-- Of any stream, the last bytes that arrive before its end are kept. -/
theorem read_eq (limit : Nat) (arrivals : List Arrival) :
    read limit arrivals = (coming arrivals).rtake limit :=
  ((holds_start limit arrivals).run _).tail_eq (finished_run limit le_rfl)

/-! ## Streams in pieces -/

theorem coming_append {pieces : List (List UInt8)} (h : ∀ piece ∈ pieces, piece ≠ [])
    (later : List Arrival) :
    coming (pieces.map .ok ++ later) = pieces.flatten ++ coming later := by
  induction pieces with
  | nil => rfl
  | cons piece pieces ih =>
    rw [List.map_cons, List.cons_append, coming_cons (h piece List.mem_cons_self),
      ih fun p hp => h p (List.mem_cons_of_mem _ hp), List.flatten_cons, List.append_assoc]

/-- A piece that fits into the chunk is read at once. -/
theorem run_piece (limit : Nat) {piece : List UInt8} (hne : piece ≠ [])
    (hfits : piece.length ≤ chunkSize) (chunk tail : List UInt8) (later : List Arrival) :
    ∃ chunk' tail', run limit 3 ⟨.reading, chunk, tail, .ok piece :: later⟩ =
      ⟨.reading, chunk', tail', later⟩ := by
  obtain ⟨byte, bytes, rfl⟩ := List.exists_cons_of_ne_nil hne
  have hunread : (byte :: bytes).drop chunkSize = [] := List.drop_eq_nil_iff.2 hfits
  simp only [run, step, hunread, if_true]
  exact ⟨_, _, rfl⟩

theorem run_add (limit m n : Nat) (t : TailReader) :
    run limit (m + n) t = run limit n (run limit m t) := by
  induction m generalizing t with
  | zero => rw [Nat.zero_add, run]
  | succ m ih => rw [Nat.add_right_comm, run, run, ih]

/-- Each piece that fits into the chunk is one read. -/
theorem arrivals_run_pieces (limit : Nat) {pieces : List (List UInt8)}
    (h : ∀ piece ∈ pieces, piece ≠ [] ∧ piece.length ≤ chunkSize) (chunk tail : List UInt8)
    (later : List Arrival) :
    ∃ chunk' tail', run limit (3 * pieces.length)
      ⟨.reading, chunk, tail, pieces.map .ok ++ later⟩ = ⟨.reading, chunk', tail', later⟩ := by
  induction pieces generalizing chunk tail with
  | nil => exact ⟨chunk, tail, rfl⟩
  | cons piece pieces ih =>
    obtain ⟨hne, hfits⟩ := h piece List.mem_cons_self
    obtain ⟨chunk', tail', hpiece⟩ := run_piece limit hne hfits chunk tail (pieces.map .ok ++ later)
    rw [List.length_cons, Nat.mul_succ, Nat.add_comm, run_add, List.map_cons, List.cons_append,
      hpiece]
    exact ih (fun p hp => h p (List.mem_cons_of_mem _ hp)) chunk' tail'

/-- Error output that arrives in pieces is kept as if it had arrived at once. -/
theorem collectTail_eq (limit : Nat) {pieces : List (List UInt8)}
    (h : ∀ piece ∈ pieces, piece ≠ []) :
    collectTail limit pieces = pieces.flatten.rtake limit := by
  have hcoming : coming (pieces.map .ok) = pieces.flatten := by
    simpa [coming] using coming_append h []
  rw [collectTail, read_eq, hcoming]

/-- **The tail does not depend on how the bytes arrive.** Whatever the limit is, however a stream is
split into pieces, and whether it ends properly or by a fault, the reader comes to an end, and then
it has kept the last bytes before that, as many as the limit allows; what would come later does not
matter. Its buffer never holds more than one chunk above the limit. Pieces of at most 4096 bytes are
one read each, and the transcript of a process is the same as if its error output had arrived at
once. -/
theorem read_split (limit : Nat) {pieces : List (List UInt8)} (ending : Arrival)
    (later : List Arrival) (hpieces : ∀ piece ∈ pieces, piece ≠ [])
    (hending : ending = .ok [] ∨ ∃ cause, ending = .error cause) :
    let arrivals := pieces.map .ok ++ ending :: later
    read limit arrivals = pieces.flatten.drop (pieces.flatten.length - limit) ∧
    (read limit arrivals).length = min limit pieces.flatten.length ∧
    (∀ n, 3 * pieces.flatten.length < n → (run limit n (start arrivals)).phase = .finished) ∧
    (∀ n, (run limit n (start arrivals)).phase = .finished →
      (run limit n (start arrivals)).tail = read limit arrivals) ∧
    (∀ n, (run limit n (start arrivals)).tail.length ≤ limit + 4096) ∧
    ((∀ piece ∈ pieces, piece.length ≤ 4096) →
      (run limit (3 * pieces.length) (start arrivals)).phase = .reading ∧
      (run limit (3 * pieces.length) (start arrivals)).arrivals = ending :: later) ∧
    ∀ output ended, ProcessRun.transcript ⟨output, pieces, ended⟩ =
      ProcessRun.transcript ⟨output, [pieces.flatten], ended⟩ := by
  intro arrivals
  have hcoming : coming arrivals = pieces.flatten := by
    have hend : coming (ending :: later) = [] := by
      rcases hending with rfl | ⟨cause, rfl⟩ <;> rfl
    rw [coming_append hpieces, hend, List.append_nil]
  have hread : read limit arrivals = pieces.flatten.rtake limit := by
    rw [read_eq, hcoming]
  have hholds (n : Nat) : Holds limit pieces.flatten (run limit n (start arrivals)) :=
    hcoming ▸ (holds_start limit arrivals).run n
  have hremaining : (start arrivals).remaining = 3 * pieces.flatten.length + 1 := by
    rw [remaining, start, hcoming]
  refine ⟨hread, ?_, fun n hn => finished_run limit (hremaining ▸ hn), fun n hphase => ?_,
    fun n => (hholds n).length_tail_le, fun hfits => ?_, fun output ended => ?_⟩
  · rw [hread, length_rtake]
  · rw [hread, (hholds n).tail_eq hphase]
  · obtain ⟨chunk, tail, hrun⟩ := arrivals_run_pieces limit
      (fun piece hp => ⟨hpieces piece hp, hfits piece hp⟩) (List.replicate chunkSize 0) []
      (ending :: later)
    rw [start, hrun]
    exact ⟨rfl, rfl⟩
  · have hwhole : collectTail errorTail [pieces.flatten] = pieces.flatten.rtake errorTail := by
      by_cases hempty : pieces.flatten = []
      · rw [hempty, List.rtake_nil]
        rfl
      · rw [collectTail_eq errorTail (by simpa using hempty), List.flatten_singleton]
    rw [ProcessRun.transcript, ProcessRun.transcript, collectTail_eq errorTail hpieces, hwhole]
    rfl

/-- A limit that is reached inside the second piece, before the stream fails. -/
theorem read_split_fault :
    let pieces : List (List UInt8) := [[1, 2, 3], [4, 5, 6, 7]]
    let fault : Arrival := .error "connection reset"
    let arrivals := pieces.map .ok ++ [fault, .ok [8]]
    (∀ piece ∈ pieces, piece ≠ []) ∧ (∀ piece ∈ pieces, piece.length ≤ 4096) ∧
      (fault = .ok [] ∨ ∃ cause, fault = .error cause) ∧
      read 5 arrivals = [3, 4, 5, 6, 7] ∧
      (run 5 22 (start arrivals)).phase = .finished ∧
      (run 5 22 (start arrivals)).tail = [3, 4, 5, 6, 7] ∧
      (run 5 5 (start arrivals)).tail.length = 7 ∧
      (run 5 6 (start arrivals)).arrivals = [fault, .ok [8]] := by
  intro pieces fault arrivals
  have hpieces : ∀ piece ∈ pieces, piece ≠ [] := by decide
  have hfits : ∀ piece ∈ pieces, piece.length ≤ 4096 := by decide
  have hfault : fault = .ok [] ∨ ∃ cause, fault = .error cause := .inr ⟨_, rfl⟩
  obtain ⟨hread, -, hphase, hfinished, -, hone, -⟩ := read_split 5 fault [.ok [8]] hpieces hfault
  have hend : (run 5 22 (start arrivals)).phase = .finished := hphase 22 (by decide)
  exact ⟨hpieces, hfits, hfault, hread, hend, (hfinished 22 hend).trans hread, rfl,
    (hone hfits).2⟩

end TailReader
end TierCheck
