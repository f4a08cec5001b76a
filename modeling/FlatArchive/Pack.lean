-- SUMMARY: Packing files, or all files of a directory, into an image file.
import FlatArchive.Builder
import FlatArchive.Sink.BufferedFile

/-!
# Packing

The number of inputs, every input, and that the output is none of them, are checked before the
output is made or emptied: what is refused leaves the output alone.
-/

namespace FlatArchive

open Attempt

namespace Builder

/-- Write the image through a buffer into a file that was just opened. A writer that is given up
after an error still writes out its buffer, for what it is worth. -/
def writeToFile (b : Builder) (output : Path) (i : NodeId) : Task FileSystem Nat := ofFn fun s =>
  let writer : Session FileWriter := ⟨FileWriter.ofNode s.state i, s.events⟩
  match (b.write FileWriter.sink FileWriter.files).exec writer with
  | (.error e, s) => (.error (e.atPath output), ⟨s.state.flush.2.files, s.events⟩)
  | (.ok size, s) =>
    match s.state.flush with
    | (.error e, w) => (.error (.io "Flush image" (some output) e), ⟨w.files, s.events⟩)
    | (.ok (), w) => (.ok size, ⟨w.files, s.events⟩)

/-- Write the image to the file `output`, which must not be one of the files to be packed, and give
its length. -/
def writeImageFile (b : Builder) (output : Path) : Task FileSystem Nat := do
  let header ← b.header
  checkOutput (← get).state b output
  let i ← Task.io (.io "Create image" (some output)) (FileSystem.create output)
  let size ← b.writeToFile output i
  Task.report (.imageWritten output header.count size)
  return size

/-- The builder that an attempt makes of the empty one. -/
def build (x : Attempt Builder Error Unit) : Except Error Builder :=
  match x.exec empty with
  | (.ok (), b) => .ok b
  | (.error e, _) => .error e

end Builder

/-- Pack `inputs` into a new image at `output`, in this order, and give its length. -/
def pack (output : Path) (inputs : List Path) : Task FileSystem Nat := do
  let _ ← Builder.headerFor inputs.length
  let b ← Builder.build (Builder.addFiles (← get).state inputs)
  b.writeImageFile output

/-- Pack every regular file directly inside `dir` into a new image at `output`. -/
def packDirectory (output dir : Path) : Task FileSystem Nat := do
  let b ← Builder.build (Builder.addDirectory (← get).state dir)
  b.writeImageFile output

end FlatArchive
