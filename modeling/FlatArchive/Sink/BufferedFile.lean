-- SUMMARY: A file that is written through a buffer.
import FlatArchive.FileSystem.Operation
import FlatArchive.Sink.Basic

/-!
# Writing through a buffer

Writes are collected in a buffer of 8192 bytes. One that has less room than it needs first writes
out what is there, and one of the buffer's size or more is not buffered at all.
-/

namespace FlatArchive

open FileSystem

/-- A file being written, with the file system that it is in. -/
structure FileWriter where
  files : FileSystem
  node : NodeId
  offset : Nat
  buffer : Bytes
  deriving Repr, DecidableEq

namespace FileWriter

def capacity : Nat := 8192

def ofNode (files : FileSystem) (i : NodeId) : FileWriter := ⟨files, i, 0, []⟩

/-- Write bytes into the file at once. -/
def writeOut (w : FileWriter) (bs : Bytes) : Except IoError Unit × FileWriter :=
  match (writeAt w.node w.offset bs).exec w.files with
  | (.ok (), files) => (.ok (), { w with files := files, offset := w.offset + bs.length })
  | (.error e, files) => (.error e, { w with files := files })

/-- Write out the buffer. If that fails the buffer keeps its bytes. -/
def flush (w : FileWriter) : Except IoError Unit × FileWriter :=
  if w.buffer = [] then (.ok (), w)
  else match w.writeOut w.buffer with
    | (.ok (), w) => (.ok (), { w with buffer := [] })
    | (.error e, w) => (.error e, w)

/-- Take bytes that the buffer has no room to spare for. -/
def writePast (w : FileWriter) (bs : Bytes) : Except IoError Unit × FileWriter :=
  let room := capacity - w.buffer.length
  match if room < bs.length then w.flush else (.ok (), w) with
  | (.error e, w) => (.error e, w)
  | (.ok (), w) =>
    if capacity ≤ bs.length then w.writeOut bs
    else (.ok (), { w with buffer := w.buffer ++ bs })

def write (w : FileWriter) (bs : Bytes) : Acceptance × FileWriter :=
  if bs.length < capacity - w.buffer.length then
    (.accepted bs.length, { w with buffer := w.buffer ++ bs })
  else match w.writePast bs with
    | (.ok (), w) => (.accepted bs.length, w)
    | (.error e, w) => (.failed e, w)

theorem write_accepted {w w' : FileWriter} {bs : Bytes} {n : Nat}
    (h : w.write bs = (.accepted n, w')) : n = bs.length := by
  unfold write at h
  split at h
  · simp at h; exact h.1.symm
  · split at h <;> simp at h
    exact h.1.symm

theorem write_not_interrupted {w w' : FileWriter} {bs : Bytes} :
    w.write bs ≠ (.interrupted, w') := by
  unfold write
  split
  · simp
  · split <;> simp

def sink : Sink FileWriter where
  write := write
  patience _ := 0
  accepted_le h := Nat.le_of_eq (write_accepted h)
  patience_of_interrupted h := absurd h write_not_interrupted

end FileWriter

end FlatArchive
