-- SUMMARY: An open file as a stream, plain or behind a buffer.
import FlatArchive.FileSystem.Operation
import FlatArchive.Stream.Basic

/-!
# Open files

An open file is a node and an offset into it: removing or renaming the file changes nothing for who
has it open, changing its content does. A directory can be opened like a file, but reading it fails.

A buffered file reads ahead in pieces of 8192 bytes, unless it is asked for as much while its buffer
is empty; what it has read ahead it delivers as it was.
-/

namespace FlatArchive

structure OpenFile where
  node : NodeId
  offset : Nat
  deriving Repr, DecidableEq

namespace OpenFile

def ofNode (i : NodeId) : OpenFile := ⟨i, 0⟩

def read (fs : FileSystem) (f : OpenFile) (n : Nat) : Bytes × OpenFile :=
  let bs := ((fs.content f.node).drop f.offset).take n
  (bs, { f with offset := f.offset + bs.length })

/-- The number of bytes between the offset and the end. -/
def left (fs : FileSystem) (f : OpenFile) : Nat := (fs.content f.node).length - f.offset

theorem length_read_le (fs : FileSystem) (f : OpenFile) (n : Nat) :
    (f.read fs n).1.length ≤ n := List.length_take_le ..

theorem left_read (fs : FileSystem) (f : OpenFile) (n : Nat) :
    (f.read fs n).2.left fs + (f.read fs n).1.length = f.left fs := by
  simp only [read, left, List.length_take, List.length_drop]
  omega

/-- The error of reading a directory. -/
def readError (fs : FileSystem) (f : OpenFile) : Option IoError :=
  if fs.isDirectory f.node then some (.os .isDirectory) else none

def stream (fs : FileSystem) : Stream OpenFile :=
  (Stream.ofRead (read fs) (left fs) (length_read_le fs) fun f n =>
    Nat.le_of_eq (left_read fs f n)).failingAt (readError fs)

section Answers

variable {fs : FileSystem} {f f' : OpenFile} {n : Nat}

theorem stream_read_of_isDirectory (h : fs.isDirectory f.node = true) (n : Nat) :
    (stream fs).read f n = (.failed (.os .isDirectory), f) := by
  simp only [stream, Stream.failingAt, readError, if_pos h]

theorem stream_read (h : fs.isDirectory f.node = false) (n : Nat) :
    (stream fs).read f n = (.bytes (f.read fs n).1, (f.read fs n).2) := by
  simp only [stream, Stream.failingAt, Stream.ofRead, readError, h, Bool.false_eq_true, if_false]

/-- What was read is the next part of the content. -/
theorem eq_of_read_bytes {bs : Bytes} (h : (stream fs).read f n = (.bytes bs, f')) :
    bs = ((fs.content f.node).drop f.offset).take n ∧ f' = ⟨f.node, f.offset + bs.length⟩ := by
  cases hdir : fs.isDirectory f.node with
  | true =>
    rw [stream_read_of_isDirectory hdir] at h
    cases h
  | false =>
    rw [stream_read hdir] at h
    cases h
    exact ⟨rfl, rfl⟩

/-- Only a directory is not read. -/
theorem eq_of_read_failed {e : IoError} (h : (stream fs).read f n = (.failed e, f')) :
    e = .os .isDirectory ∧ fs.isDirectory f.node = true ∧ f' = f := by
  cases hdir : fs.isDirectory f.node with
  | true =>
    rw [stream_read_of_isDirectory hdir] at h
    cases h
    exact ⟨rfl, rfl, rfl⟩
  | false =>
    rw [stream_read hdir] at h
    cases h

theorem read_ne_interrupted : (stream fs).read f n ≠ (.interrupted, f') := by
  cases hdir : fs.isDirectory f.node with
  | true =>
    rw [stream_read_of_isDirectory hdir]
    simp
  | false =>
    rw [stream_read hdir]
    simp

end Answers

end OpenFile

/-- A regular file that is read through a buffer. No open file becomes a directory, so reading it does
not fail. -/
structure BufferedFile where
  file : OpenFile
  /-- What was read ahead and is not delivered yet. -/
  buffer : Bytes
  deriving Repr, DecidableEq

namespace BufferedFile

def capacity : Nat := 8192

def ofNode (i : NodeId) : BufferedFile := ⟨OpenFile.ofNode i, []⟩

def read (fs : FileSystem) (b : BufferedFile) (n : Nat) : Bytes × BufferedFile :=
  if b.buffer.isEmpty && capacity ≤ n then
    let (bs, file) := b.file.read fs n
    (bs, ⟨file, []⟩)
  else if b.buffer.isEmpty then
    let (ahead, file) := b.file.read fs capacity
    (ahead.take n, ⟨file, ahead.drop n⟩)
  else (b.buffer.take n, { b with buffer := b.buffer.drop n })

def left (fs : FileSystem) (b : BufferedFile) : Nat := b.buffer.length + b.file.left fs

theorem length_read_le (fs : FileSystem) (b : BufferedFile) (n : Nat) :
    (b.read fs n).1.length ≤ n := by
  unfold read
  split
  · exact OpenFile.length_read_le ..
  · split
    · exact List.length_take_le ..
    · exact List.length_take_le ..

theorem left_read (fs : FileSystem) (b : BufferedFile) (n : Nat) :
    (b.read fs n).2.left fs + (b.read fs n).1.length = b.left fs := by
  unfold read
  split
  · next h =>
    have := OpenFile.left_read fs b.file n
    simp_all [left]
  · split
    · next h =>
      have := OpenFile.left_read fs b.file capacity
      simp_all [left]
      omega
    · simp [left]
      omega

def stream (fs : FileSystem) : Stream BufferedFile :=
  .ofRead (read fs) (left fs) (length_read_le fs) fun b n => Nat.le_of_eq (left_read fs b n)

end BufferedFile

end FlatArchive
