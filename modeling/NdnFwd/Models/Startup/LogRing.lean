import Mathlib.Data.List.DropRight
import Mathlib.Data.List.Nodup
import NdnFwd.Core.Machine
import NdnFwd.Core.Ring
import NdnFwd.Core.Utf8

/-!
# The ring of log lines

Any number of writers share a ring behind a lock and a counter of lines. A writer numbers its line
while it holds the lock, so the numbers follow the order in which the lock was taken, and whenever
the lock is free the ring is the tail of the log.
-/

namespace NdnFwd.LogRing

/-- What a call of `write` appends: the text without the newlines at its end. -/
def lineOf (buf : Bytes) : Bytes := (Utf8.lossy buf).rdropWhile (· = 0x0A)

/-- The most entries of the ring. -/
def capacity : Nat := 500

/-- Where a writer is in its call, with the length that the call will return. -/
inductive Phase
  | idle
  /-- Before `lock`. -/
  | locking (len : Nat) (line : Bytes)
  /-- Before `fetch_add`. -/
  | locked (len : Nat) (line : Bytes)
  /-- Before `push_back`. -/
  | stamped (len seq : Nat) (line : Bytes)
  /-- Before the test of the length and `pop_front`. -/
  | pushed (len : Nat)
  /-- Before the guard is dropped. -/
  | trimmed (len : Nat)
  deriving DecidableEq, Repr

/-- The writer has the lock. -/
def Phase.inside : Phase → Bool
  | idle | locking .. => false
  | locked .. | stamped .. | pushed _ | trimmed _ => true

/-- The line of a writer that waits for the lock. -/
def Phase.waiting : Phase → List Bytes
  | locking _ line => [line]
  | idle | locked .. | stamped .. | pushed _ | trimmed _ => []

/-- `LOG_SEQ` and `LOG_RING`. -/
structure Log where
  seq : Nat
  ring : List (Nat × Bytes)
  deriving DecidableEq, Repr

/-- The log, who has its lock, and where each writer is. -/
structure Shared where
  log : Log
  holder : Option Nat
  phase : Nat → Phase

/-- Nothing has been written. -/
def Shared.initial : Shared := ⟨⟨0, []⟩, none, fun _ => .idle⟩

/-- What happens next: a writer is called, or takes its next step. -/
inductive Event
  | write (i : Nat) (buf : Bytes)
  | resume (i : Nat)
  deriving DecidableEq, Repr

/-- What is to be seen of it. -/
inductive Note
  /-- The lock was taken, to append this line. -/
  | locked (i : Nat) (line : Bytes)
  /-- A call returned. -/
  | returned (i len : Nat)
  deriving DecidableEq, Repr

/-- The writer goes on to this phase. -/
def Shared.goto (s : Shared) (i : Nat) (phase : Phase) : Shared :=
  { s with phase := Function.update s.phase i phase }

/-- The beginning of `write`. A writer is called again only after its call has returned. -/
def call (s : Shared) (i : Nat) (buf : Bytes) : Shared × List Note :=
  match s.phase i with
  | .idle =>
    if lineOf buf = [] then (s, [.returned i buf.length])
    else (s.goto i (.locking buf.length (lineOf buf)), [])
  | _ => (s, [])

/-- The next step of a call. -/
def resume (s : Shared) (i : Nat) : Shared × List Note :=
  match s.phase i with
  | .idle => (s, [])
  | .locking len line =>
    match s.holder with
    | none => ({ s with holder := some i }.goto i (.locked len line), [.locked i line])
    | some _ => (s, [])
  | .locked len line =>
    ({ s with log := ⟨s.log.seq + 1, s.log.ring⟩ }.goto i (.stamped len s.log.seq line), [])
  | .stamped len seq line =>
    ({ s with log := ⟨s.log.seq, s.log.ring ++ [(seq, line)]⟩ }.goto i (.pushed len), [])
  | .pushed len =>
    ({ s with log := ⟨s.log.seq, if capacity < s.log.ring.length then s.log.ring.tail
      else s.log.ring⟩ }.goto i (.trimmed len), [])
  | .trimmed len => ({ s with holder := none }.goto i .idle, [.returned i len])

/-- `RingWriter::write`, called by any number of writers. -/
def writers : Machine Shared Event Note :=
  ⟨fun s e =>
    match e with
    | .write i buf => call s i buf
    | .resume i => resume s i⟩

/-- The line that a note shows to be appended. -/
def Note.line? : Note → Option Bytes
  | locked _ line => some line
  | returned .. => none

/-- The lines written so far, in the order in which their writers took the lock. -/
def written (es : List Event) : List Bytes :=
  (writers.sent .initial es).filterMap Note.line?

/-- The log after some lines, with nobody in it. -/
def Settled (lines : List Bytes) (log : Log) : Prop :=
  log = ⟨lines.length, Ring.tail capacity lines⟩

/-- The log while the writer of the last line is in it. -/
def Inside (lines : List Bytes) (log : Log) : Phase → Prop
  | .idle | .locking .. => False
  | .locked _ line => ∃ before, lines = before ++ [line] ∧ Settled before log
  | .stamped _ seq line => ∃ before, lines = before ++ [line] ∧ seq = before.length ∧
      log = ⟨lines.length, Ring.tail capacity before⟩
  | .pushed _ => ∃ before line, lines = before ++ [line] ∧
      log = ⟨lines.length, Ring.tail capacity before ++ [(before.length, line)]⟩
  | .trimmed _ => Settled lines log

/-- The lock keeps all but its holder out, and when it is free the log is settled. -/
structure Guarded (lines : List Bytes) (s : Shared) : Prop where
  inside : ∀ i, (s.phase i).inside = true ↔ s.holder = some i
  settled : s.holder = none → Settled lines s.log
  held : ∀ i, s.holder = some i → Inside lines s.log (s.phase i)

section Guard

variable {lines : List Bytes} {s : Shared} {i : Nat} {phase : Phase} {log : Log}

/-- What a step leaves behind. -/
def Leaves (lines : List Bytes) (a : Shared × List Note) : Prop :=
  Guarded (lines ++ a.2.filterMap Note.line?) a.1

/-- A step that writes no line. -/
theorem Guarded.leaves (h : Guarded lines s) (notes : List Note)
    (hnotes : notes.filterMap Note.line? = []) : Leaves lines (s, notes) := by
  rw [Leaves, hnotes, List.append_nil]
  exact h

end Guard

section Turns

end Turns

section Progress

variable {lines : List Bytes} {s : Shared} {i : Nat}

end Progress

section Tail

-- The second writer takes the lock first.
example : (writers.run .initial [.write 0 [0x61, 0x0A], .write 1 [0x62], .resume 1, .resume 0,
    .resume 1, .resume 1, .resume 1, .resume 1, .resume 0, .resume 0, .resume 0, .resume 0,
    .resume 0]).log = ⟨2, [(0, [0x62]), (1, [0x61])]⟩ := by decide

end Tail

end NdnFwd.LogRing
