-- SUMMARY: Building images: collecting entries from files and memory, and writing them to any sink.
import FlatArchive.Image.Header
import FlatArchive.Path.Component
import FlatArchive.Sink.Basic
import FlatArchive.Stream.OpenFile
import FlatArchive.Task

/-!
# Builders

A builder collects the entries of an image in the order in which they are added. A file is checked
when it is added, and read when the image is written: its size is taken when it is opened then, and
a file that turns out shorter while it is copied is an error.

An image is written as its header, and then each entry as its head and its content. What an entry's
events report has been written completely.
-/

namespace FlatArchive

open Attempt Text

inductive Builder.Content where
  /-- The content that a regular file has when the image is written. -/
  | file (path : Path)
  | bytes (bs : Bytes)
  deriving Repr, DecidableEq

structure Builder.Item where
  name : String
  content : Builder.Content
  deriving Repr, DecidableEq

structure Builder where
  items : List Builder.Item
  deriving Repr, DecidableEq

namespace Builder

def empty : Builder := ⟨[]⟩

def count (b : Builder) : Nat := b.items.length

/-! ## Adding entries -/

/-- Open a file that is to be packed. -/
def openSource (fs : FileSystem) (p : Path) : Except Error NodeId :=
  match fs.find p with
  | .ok i => .ok i
  | .error e =>
    .error (if e.isNotFound then .fileNotFound p else .io "Open source file" (some p) e)

/-- Make sure that a path leads to a regular file. -/
def checkSource (fs : FileSystem) (p : Path) : Except Error Unit := do
  let i ← openSource fs p
  if fs.isFile i then return else throw (.notAFile p)

/-- The name under which a file is packed: the last component of its path, which must be text. -/
def entryName (p : Path) : Except Error String :=
  match p.fileName? with
  | none => .error (.invalidInput p "path has no file name")
  | some name =>
    match Utf8.decode name with
    | .ok name => .ok name
    | .error _ => .error (.invalidInput p "file name is not valid UTF-8")

def add (item : Item) : Attempt Builder Error Unit := modify fun b => ⟨b.items ++ [item]⟩

def addBytes (name : String) (content : Bytes) : Attempt Builder Error Unit :=
  add ⟨name, .bytes content⟩

/-- Add a regular file under the last component of its path. -/
def addFile (fs : FileSystem) (p : Path) : Attempt Builder Error Unit := do
  checkSource fs p
  let name ← entryName p
  add ⟨name, .file p⟩

def addFiles (fs : FileSystem) : List Path → Attempt Builder Error Unit
  | [] => pure ()
  | p :: ps => do
    addFile fs p
    addFiles fs ps

/-- Find a directory whose files are to be packed. -/
def openDirectory (fs : FileSystem) (p : Path) : Except Error NodeId :=
  match fs.find p with
  | .ok i => if fs.isDirectory i then .ok i else .error (.notADirectory p)
  | .error e => .error (if e.isNotFound then .fileNotFound p else .io "Stat directory" (some p) e)

/-- Add every regular file directly inside a directory, sorted by name. Files that were added before
one is refused stay added.

A directory that was found can be listed, and what it lists is there: it is neither closed to the
reader nor changed while it is read, so listing it and looking at its entries have no errors here. -/
def addDirectory (fs : FileSystem) (p : Path) : Attempt Builder Error Unit := do
  let dir ← openDirectory fs p
  addFiles fs ((fs.fileNames dir).map fun name => p.join ⟨name⟩)

/-! ## Checks -/

/-- The header of an image with `count` entries, if that number is in range. -/
def headerFor (count : Nat) : Except Error Header := (Header.ofCount count).mapError .format

def header (b : Builder) : Except Error Header := headerFor b.count

/-- The first of the paths that leads to node `i`. -/
def firstSame (fs : FileSystem) (i : NodeId) : List Path → Except Error (Option Path)
  | [] => .ok none
  | p :: ps =>
    match fs.find p with
    | .error e => .error (.io "Stat source file" (some p) e)
    | .ok j => if j = i then .ok (some p) else firstSame fs i ps

/-- The files that the entries come from. -/
def sources (b : Builder) : List Path :=
  b.items.filterMap fun item => match item.content with
    | .file p => some p
    | .bytes _ => none

/-- Refuse an output that is one of the files to be packed. It need not exist yet. -/
def checkOutput (fs : FileSystem) (b : Builder) (output : Path) : Except Error Unit :=
  match fs.find output with
  | .error e => if e.isNotFound then .ok () else .error (.io "Stat image" (some output) e)
  | .ok i =>
    match firstSame fs i b.sources with
    | .error e => .error e
    | .ok none => .ok ()
    | .ok (some p) => .error (.invalidInput p "output is also an input")

/-! ## Writing -/

section Write

variable {τ : Type} (sink : Sink τ) (files : τ → FileSystem)

/-- The largest piece in which a file is copied. -/
def pieceSize : Nat := 4 * 1024 * 1024

def put (context : String) (bs : Bytes) : Task τ Unit :=
  Task.io (.io context none) (ofFn (sink.put bs))

/-- Write an entry from memory, and give its size. -/
def writeBytes (name : String) (content : Bytes) : Task τ Nat := do
  let head := Head.ofName name (UInt64.ofNat content.length)
  put sink "Write entry head" head.toBytes
  put sink "Write entry content" content
  return head.size.toNat

/-- Write an entry from a file, and give its size. Every failure to copy is told of the file. -/
def writeFile (name : String) (p : Path) : Task τ Nat := do
  let fs := files (← get).state
  let i ← openSource fs p
  let expected := fs.size i
  put sink "Write entry head" (Head.ofName name (UInt64.ofNat expected)).toBytes
  let actual ← Task.io (.io "Copy source file" (some p)) <| ofFn fun t =>
    let (r, _, t) := sink.copy (OpenFile.stream ∘ files) pieceSize expected (.ofNode i) t
    (r, t)
  if actual = expected then return actual else throw (.lengthMismatch p expected actual)

def writeContent (item : Item) : Task τ Nat :=
  match item.content with
  | .file p => writeFile sink files item.name p
  | .bytes content => writeBytes sink item.name content

/-- Report an entry that has been written. -/
def reportPacked (index : Nat) (name : String) (size : Nat) : Task τ Unit := do
  let stored := Name.fit name
  if stored ≠ name then Task.report (.nameTruncated index name stored)
  Task.report (.packed index name size)

/-- Write the items, of which the first is entry `index`, and give the number of bytes. -/
def writeItems (index : Nat) : List Item → Task τ Nat
  | [] => pure 0
  | item :: items => do
    let size ← Task.atEntry index (writeContent sink files item)
    reportPacked index item.name size
    let rest ← writeItems (index + 1) items
    return Head.length + size + rest

/-- Write the image and give its length. Nothing is written if the number of entries is out of
range. -/
def write (b : Builder) : Task τ Nat := do
  let header ← b.header
  put sink "Write header" header.toBytes
  let size ← writeItems sink files 1 b.items
  return header.toBytes.length + size

end Write

/-! ## Showing -/

def showItem (item : Item) : String :=
  let content := match item.content with
    | .file p => s!"BuilderEntryKind::File({p.quoted})"
    | .bytes bs => s!"BuilderEntryKind::Bytes({bs.length} bytes)"
  "BuilderEntry \x7b name: " ++ Quoted.text item.name ++ ", kind: " ++ content ++ " \x7d"

/-- A builder with all its entries, in one line. -/
def describe (b : Builder) : String :=
  "ImageBuilder \x7b entries: [" ++ String.intercalate ", " (b.items.map showItem) ++ "] \x7d"

end Builder

end FlatArchive
