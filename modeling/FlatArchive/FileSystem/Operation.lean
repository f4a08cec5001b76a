-- SUMMARY: Opening, creating and writing files, and making directories.
import FlatArchive.Attempt
import FlatArchive.FileSystem.Walk

/-!
# Operations on files

The operations that packing and unpacking need. Opening a file for writing empties it or makes it,
also through a link that leads to nothing yet. A directory is made together with the parents that
are missing.
-/

namespace FlatArchive.FileSystem

open Attempt

/-- An attempt at something that needs no state but the file system. -/
abbrev FileAttempt (α : Type) := Attempt FileSystem IoError α

/-- Make the file that `p` leads to, or empty it if there is one, and give its node. -/
def create (p : Path) : FileAttempt NodeId := ofFn fun fs =>
  match fs.resolve .create p with
  | .error e => (.error e, fs)
  | .ok (.slot dir name) =>
    let (i, fs) := fs.addNode dir name (.file [])
    (.ok i, fs)
  | .ok (.node i) =>
    match fs.node? i with
    | some (.file _) => (.ok i, fs.setNode i (.file []))
    | some (.device _) => (.ok i, fs)
    | _ => (.error (.os .isDirectory), fs)

/-- The content after `bs` was written over it from `offset` on. -/
def overwrite (content : Bytes) (offset : Nat) (bs : Bytes) : Bytes :=
  content.take offset ++ List.replicate (offset - content.length) 0 ++ bs
    ++ content.drop (offset + bs.length)

/-- Write bytes into an open file. -/
def writeAt (i : NodeId) (offset : Nat) (bs : Bytes) : FileAttempt Unit := ofFn fun fs =>
  match fs.node? i with
  | some (.file content) => (.ok (), fs.setNode i (.file (overwrite content offset bs)))
  | some (.device .null) => (.ok (), fs)
  | some (.device .full) =>
    if bs.isEmpty then (.ok (), fs) else (.error (.os .noSpace), fs)
  | _ => (.error (.os .isDirectory), fs)

/-- Make the file that `p` leads to hold `content`. -/
def writeFile (p : Path) (content : Bytes) : FileAttempt Unit := do
  let i ← create p
  writeAt i 0 content

/-- Make one directory, whose parent must exist. -/
def makeDir (p : Path) : FileAttempt Unit := ofFn fun fs =>
  match fs.resolve .place p with
  | .error e => (.error e, fs)
  | .ok (.node _) => (.error (.os .fileExists), fs)
  | .ok (.slot dir name) =>
    if maxNameLength < name.length then (.error (.os .nameTooLong), fs)
    else if (fs.child? dir name).isSome then (.error (.os .fileExists), fs)
    else (.ok (), (fs.addNode dir name (.directory dir [])).2)

/-- Make a directory and all its parents that are missing. A directory that is there already is no
error, whatever stands in the way of making it. -/
def makeDirs (p : Path) (fs : FileSystem) : Except IoError Unit × FileSystem :=
  if p.bytes = [] then (.ok (), fs)
  else match (makeDir p).exec fs with
    | (.ok (), fs) => (.ok (), fs)
    | (.error (.os .noEntry), fs) =>
      match _h : p.parent with
      | none => (.error (.os .noEntry), fs)
      | some parent =>
        match makeDirs parent fs with
        | (.error e, fs) => (.error e, fs)
        | (.ok (), fs) =>
          match (makeDir p).exec fs with
          | (.ok (), fs) => (.ok (), fs)
          | (.error e, fs) => (if fs.isDirectoryAt p then .ok () else .error e, fs)
    | (.error e, fs) => (if fs.isDirectoryAt p then .ok () else .error e, fs)
termination_by p.bytes.length
decreasing_by exact Path.length_parent_lt _h

/-- Make a directory and all its parents that are missing. -/
def createDirAll (p : Path) : FileAttempt Unit := ofFn (makeDirs p)

/-- The names of the regular files in a directory, links not followed, sorted by their bytes. -/
def fileNames (fs : FileSystem) (dir : NodeId) : List Bytes :=
  let files := (fs.entries dir).filter fun (_, i) => fs.isFile i
  (files.map (·.1)).mergeSort fun a b => decide (a ≤ b)

end FlatArchive.FileSystem
