-- SUMMARY: A sink in memory with limits, interruptions and changes to the files while it is written.
import FlatArchive.FileSystem.Change
import FlatArchive.Sink.Basic

/-!
# Sinks in memory

A memory sink keeps what it accepts. It may accept only so much at once and in all, be interrupted
at every other write, and fail or accept nothing once it is full. Changes to the files can be tied
to it: each is made as soon as so many bytes have been accepted.
-/

namespace FlatArchive

structure MemorySink where
  files : FileSystem
  written : Array UInt8
  /-- The most that one write accepts, if there is a bound. -/
  atOnce : Option Nat
  /-- How many more bytes will be accepted, if there is a bound. -/
  room : Option Nat
  /-- How a write fails once there is no room; without it nothing is accepted. -/
  failure : Option IoError
  /-- Whether writes are interrupted in turn. -/
  interrupts : Bool
  /-- Whether the next write is interrupted. -/
  interruptNext : Bool
  /-- The changes to come, each with the number of accepted bytes that brings it about. -/
  changes : List (Nat × Change)
  deriving Repr, DecidableEq

namespace MemorySink

/-- Make the changes whose time has come, in order, and keep the others. -/
def makeChanges (total : Nat) (files : FileSystem) :
    List (Nat × Change) → FileSystem × List (Nat × Change)
  | [] => (files, [])
  | (at_, change) :: rest =>
    if at_ ≤ total then makeChanges total (change.perform files) rest
    else
      let (files, kept) := makeChanges total files rest
      (files, (at_, change) :: kept)

/-- The front part of a byte string that keeps within a bound, if there is one. -/
def within : (bound : Option Nat) → Bytes → Bytes
  | some n, bs => bs.take n
  | none, bs => bs

theorem length_within_le (bound : Option Nat) (bs : Bytes) :
    (within bound bs).length ≤ bs.length := by
  cases bound with
  | none => exact Nat.le_refl _
  | some n => exact List.length_take_le' ..

/-- The part of a write that fits the bounds. -/
def acceptable (m : MemorySink) (bs : Bytes) : Bytes := within m.room (within m.atOnce bs)

theorem length_acceptable_le (m : MemorySink) (bs : Bytes) :
    (m.acceptable bs).length ≤ bs.length :=
  Nat.le_trans (length_within_le ..) (length_within_le ..)

/-- Accept what fits, once the write is not interrupted. -/
def accept (m : MemorySink) (bs : Bytes) : Acceptance × MemorySink :=
  if m.room = some 0 then
    match m.failure with
    | some e => (.failed e, m)
    | none => (.accepted 0, m)
  else
    let part := m.acceptable bs
    let written := m.written ++ part
    let (files, changes) := makeChanges written.size m.files m.changes
    let room := m.room.map (· - part.length)
    (.accepted part.length, { m with files, written, room, changes })

def write (m : MemorySink) (bs : Bytes) : Acceptance × MemorySink :=
  if m.interrupts && m.interruptNext then (.interrupted, { m with interruptNext := false })
  else { m with interruptNext := true }.accept bs

/-- At most one interruption comes in a row. -/
def patience (m : MemorySink) : Nat := if m.interrupts && m.interruptNext then 1 else 0

theorem accepted_le {m m' : MemorySink} {bs : Bytes} {n : Nat}
    (h : m.write bs = (.accepted n, m')) : n ≤ bs.length := by
  unfold write at h
  split at h
  · simp at h
  · unfold accept at h
    split at h
    · split at h <;> simp at h
      omega
    · simp only [Prod.mk.injEq, Acceptance.accepted.injEq] at h
      rw [← h.1]
      exact length_acceptable_le ..

theorem patience_of_interrupted {m m' : MemorySink} {bs : Bytes}
    (h : m.write bs = (.interrupted, m')) : m'.patience < m.patience := by
  unfold write at h
  split at h
  · next hnext =>
    cases h
    simp [patience, hnext]
  · unfold accept at h
    split at h
    · split at h <;> simp at h
    · simp at h

def sink : Sink MemorySink where
  write := write
  patience := patience
  accepted_le := accepted_le
  patience_of_interrupted := patience_of_interrupted

end MemorySink

end FlatArchive
