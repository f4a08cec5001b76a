-- SUMMARY: Unpacking an image into a directory, and listing what is in it.
import FlatArchive.Image.Reader
import FlatArchive.Path.Component
import FlatArchive.Task

/-!
# Unpacking

An image is unpacked entry by entry into a directory that is made if it is missing. An entry is read
completely before its file is written, so that one that is cut short leaves no file. The name of an
entry must be a path that stays below the directory. The first failure ends the unpacking, and what
was written until then stays.
-/

namespace FlatArchive

open Attempt

/-- The name of a file as a path, if all its components are ordinary names. -/
def checkPath (name : String) : Except Error Path :=
  let path := Path.ofString name
  match path.stray? with
  | none => .ok path
  | some component => .error (.invalidPath path component.toPath)

/-- The name that stands in for an empty one. -/
def generatedName (index : Nat) : String := s!"file_{index}.bin"

/-- What unpacking produced. -/
structure Unpacked where
  /-- The files written, in the order of the entries; one that was overwritten is there again. -/
  files : List Path
  /-- The number of bytes after the last entry. -/
  trailing : Nat
  deriving Repr, DecidableEq

/-- Make sure that the output directory is there. -/
def prepareDirectory (dir : Path) : Task FileSystem Unit := do
  let fs := (← get).state
  match fs.find dir with
  | .ok i => if fs.isDirectory i then return else throw (.notADirectory dir)
  | .error e =>
    if e.isNotFound then
      Task.io (.io "Create output directory" (some dir)) (FileSystem.createDirAll dir)
      Task.report (.createdDir dir)
    else throw (.io "Stat output directory" (some dir) e)

/-- The name under which an entry is unpacked. -/
def fileName (index : Nat) (name : String) : Task FileSystem String := do
  if name.isEmpty then
    Task.report (.generatedName index (generatedName index))
    return generatedName index
  else return name

/-- Write a file with the directories that it needs. -/
def writeBelow (dir relative : Path) (content : Bytes) : Task FileSystem Path := do
  let target := dir.join relative
  if let some parent := target.parent then
    Task.io (.io "Create directory" (some parent)) (FileSystem.createDirAll parent)
  Task.io (.io "Write file" (some target)) (FileSystem.writeFile target content)
  return target

/-- Write the file of one entry and give its path. -/
def extract (dir : Path) (index : Nat) (entry : Entry) : Task FileSystem Path := do
  let name ← fileName index entry.name
  let target ← Task.atEntry index do
    let relative ← checkPath name
    writeBelow dir relative entry.content
  Task.report (.unpacked index name entry.size target)
  return target

/-- The next step of an image that is read from the files as they are now. -/
def fromImage {α : Type} (step : FileSystem → Attempt ImageFile Error α) (image : ImageFile) :
    Task FileSystem (α × ImageFile) := ofFn fun s =>
  match (step s.state).exec image with
  | (.ok a, image) => (.ok (a, image), s)
  | (.error e, _) => (.error e, s)

/-- Unpack the entries that remain, at most `n` of them, and give their files. -/
def extractAll (dir : Path) : (n : Nat) → ImageFile → Task FileSystem (List Path × ImageFile)
  | 0, image => pure ([], image)
  | n + 1, image => do
    match ← fromImage ImageFile.next image with
    | (none, image) => return ([], image)
    | (some (index, entry), image) =>
      let target ← extract dir index entry
      let (targets, image) ← extractAll dir n image
      return (target :: targets, image)

/-- Unpack the image at `path` into `dir`. -/
def unpack (path dir : Path) : Task FileSystem Unpacked := do
  let image ← ImageFile.ofPath (← get).state path
  prepareDirectory dir
  if image.reader.header.isEmpty then Task.report .emptyImage
  let (files, image) ← extractAll dir image.reader.remaining image
  let (trailing, _) ← fromImage ImageFile.trailing image
  if trailing > 0 then Task.report (.trailingData trailing)
  return ⟨files, trailing⟩

/-! ## Listing -/

structure Listed where
  index : Nat
  name : String
  size : Nat
  deriving Repr, DecidableEq

/-- The entries that remain, at most `n` of them. -/
def listRemaining (fs : FileSystem) : (n : Nat) → ImageFile → Except Error (List Listed)
  | 0, _ => .ok []
  | n + 1, image =>
    match (ImageFile.next fs).exec image with
    | (.error e, _) => .error e
    | (.ok none, _) => .ok []
    | (.ok (some (index, entry)), image) => do
      let rest ← listRemaining fs n image
      return ⟨index, entry.name, entry.size⟩ :: rest

/-- The entries of the image at `path`. Nothing is written. -/
def list (fs : FileSystem) (path : Path) : Except Error (List Listed) := do
  let image ← ImageFile.ofPath fs path
  listRemaining fs image.reader.remaining image

end FlatArchive
