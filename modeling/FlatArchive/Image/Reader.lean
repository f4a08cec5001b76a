-- SUMMARY: Reading an image entry by entry, from any stream and from a file.
import FlatArchive.Stream.OpenFile

/-!
# Image readers

A reader has read the header of an image and keeps count of the entries that it has given out, which
it numbers from 1. A failed read does not count: the number stays with the next attempt. All reads
share the stream, so each starts where the last one stopped, failed ones included.
-/

namespace FlatArchive

open Attempt

structure Reader (σ : Type) where
  stream : σ
  header : Header
  /-- The number of entries given out so far. -/
  decoded : Nat
  deriving Repr, DecidableEq

namespace Reader

variable {σ : Type} (st : Stream σ)

/-- Read the header of an image and be ready for its first entry. -/
def ofStream (s : σ) : Except Error (Reader σ) :=
  match st.source.readHeader.exec s with
  | (.ok header, s) => .ok ⟨s, header, 0⟩
  | (.error e, _) => .error e

/-- The number of entries that the header announces and that were not given out yet. -/
def remaining (r : Reader σ) : Nat := r.header.count - r.decoded

/-- A read from the stream, of which the reader keeps no count. -/
def onStream {α : Type} (x : Attempt σ Error α) : Attempt (Reader σ) Error α :=
  onPart stream (fun r s => { r with stream := s }) x

/-- The next entry with its number; none once all that were announced have been given out. -/
def next : Attempt (Reader σ) Error (Option (Nat × Entry)) := ofFn fun r =>
  if r.remaining = 0 then (.ok none, r)
  else
    let index := r.decoded + 1
    match st.source.readEntry.exec r.stream with
    | (.ok entry, s) => (.ok (some (index, entry)), { r with stream := s, decoded := index })
    | (.error e, s) => (.error (e.atEntry index), { r with stream := s })

/-- Read to the end of the stream and count the bytes that come. -/
def trailing : Attempt (Reader σ) Error Nat := onStream st.drain

end Reader

/-! ## Image files -/

/-- An image in a file that is open for reading. -/
structure ImageFile where
  path : Path
  reader : Reader BufferedFile
  deriving Repr, DecidableEq

namespace ImageFile

/-- Open a regular file as an image. -/
def ofPath (fs : FileSystem) (p : Path) : Except Error ImageFile :=
  match fs.find p with
  | .error e =>
    .error (if e.isNotFound then .fileNotFound p else .io "Open image" (some p) e)
  | .ok i =>
    if fs.isFile i then
      match Reader.ofStream (BufferedFile.stream fs) (.ofNode i) with
      | .ok reader => .ok ⟨p, reader⟩
      | .error e => .error (e.atPath p)
    else .error (.notAFile p)

/-- A step of the reader, whose errors get the path of the image. -/
def onReader {α : Type} (x : Attempt (Reader BufferedFile) Error α) :
    Attempt ImageFile Error α := ofFn fun image =>
  let (r, reader) := x.exec image.reader
  (r.mapError (Error.atPath image.path), { image with reader })

def next (fs : FileSystem) : Attempt ImageFile Error (Option (Nat × Entry)) :=
  onReader (Reader.next (BufferedFile.stream fs))

def trailing (fs : FileSystem) : Attempt ImageFile Error Nat :=
  onReader (Reader.trailing (BufferedFile.stream fs))

end ImageFile

end FlatArchive
