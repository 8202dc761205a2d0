import Mathlib.Data.List.Basic

/-!
# The log ring

The daemon keeps its newest log records in memory and hands them out in batches.
-/

namespace Skattr.Core.Daemon

inductive LogLevel where
  | trace
  | debug
  | info
  | warn
  | error
  deriving DecidableEq

structure LogRecord where
  seq : Nat
  tsUnixMs : Nat
  level : LogLevel
  target : String
  message : String
  deriving DecidableEq

def RING_CAP : Nat := 5000

/-- The ring of the newest records, oldest first. -/
structure LogSink where
  ring : List LogRecord
  nextSeq : Nat
  bounded : ring.length ≤ RING_CAP

namespace LogSink

def new : LogSink := ⟨[], 1, Nat.zero_le _⟩

def evict (sink : LogSink) : List LogRecord :=
  if sink.ring.length = RING_CAP then sink.ring.drop 1 else sink.ring

theorem length_evict (sink : LogSink) : sink.evict.length + 1 ≤ RING_CAP := by
  have hbound := sink.bounded
  have hcap : 0 < RING_CAP := by decide
  unfold evict
  split
  · rw [List.length_drop]
    omega
  · omega

/-- The first half of `push`: draw the number of the record, before the lock of the ring is
taken. -/
def draw (sink : LogSink) : Nat × LogSink :=
  (sink.nextSeq, { sink with nextSeq := sink.nextSeq + 1 })

/-- The second half of `push`: append the record under the lock; a full ring loses its oldest
one. -/
def append (sink : LogSink) (record : LogRecord) : LogSink where
  ring := sink.evict ++ [record]
  nextSeq := sink.nextSeq
  bounded := Nat.le_trans (Nat.le_of_eq List.length_append) sink.length_evict

/-- The records from a number on, at most `limit` and never more than 1000, and the number to go
on with. -/
def snapshot (sink : LogSink) (sinceSeq : Option Nat) (limit : Nat) : List LogRecord × Nat :=
  let start := sinceSeq.getD 0
  let records := (sink.ring.filter fun record => record.seq ≥ start).take (min limit 1000)
  (records, records.getLast?.elim start fun record => record.seq + 1)

end LogSink

end Skattr.Core.Daemon
