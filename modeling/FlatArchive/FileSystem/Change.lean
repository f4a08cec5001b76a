-- SUMMARY: Changes that others make to the files: writing, removing, renaming and linking.
import FlatArchive.FileSystem.Operation

/-!
# Changes

What may happen to files besides packing and unpacking, before or even during it. A file that is
written gets the directories it needs. Removing takes a directory with all that is in it, and a link
itself.
-/

namespace FlatArchive

open FileSystem

inductive Change where
  | makeDir (path : Path)
  /-- Replace the content of a file, in place. -/
  | write (path : Path) (content : Bytes)
  | append (path : Path) (content : Bytes)
  | remove (path : Path)
  | rename (path to_ : Path)
  | makeLink (path : Path) (target : Bytes)
  /-- Give a file one more name. -/
  | addName (path existing : Path)
  deriving Repr, DecidableEq

namespace Change

/-- The place of a name, for an operation that does not care what has it. -/
def slot (p : Path) : FileAttempt (NodeId × Bytes) :=
  Attempt.ofExcept fun fs => match fs.resolve .place p with
    | .ok (.slot dir name) => .ok (dir, name)
    | .ok (.node _) => .error (.os .fileExists)
    | .error e => .error e

/-- The node that has the name of a path, itself a link or not. -/
def named (p : Path) : FileAttempt (NodeId × Bytes × NodeId) := do
  let (dir, name) ← slot p
  match (← get).child? dir name with
  | some i => return (dir, name, i)
  | none => throw (.os .noEntry)

/-- Make a directory the child of another. -/
def adopt (i parent : NodeId) : FileAttempt Unit := modify fun fs =>
  match fs.node? i with
  | some (.directory _ entries) => fs.setNode i (.directory parent entries)
  | _ => fs

def makeParents (p : Path) : FileAttempt Unit :=
  match p.parent with
  | some parent => createDirAll parent
  | none => pure ()

def apply : Change → FileAttempt Unit
  | .makeDir p => createDirAll p
  | .write p content => do
    makeParents p
    writeFile p content
  | .append p content => do
    makeParents p
    match (← get).find p with
    | .ok i => writeAt i ((← get).content i).length content
    | .error _ => writeFile p content
  | .remove p => do
    let (dir, name, _) ← named p
    modify fun fs => fs.unbindName dir name
  | .rename p to_ => do
    let (dir, name, i) ← named p
    let (dir', name') ← slot to_
    if (← get).child? dir' name' = some i then return
    modify fun fs => (fs.unbindName dir name).bindName dir' name' i
    adopt i dir'
  | .makeLink p target => do
    let (dir, name) ← slot p
    if ((← get).child? dir name).isSome then throw (.os .fileExists)
    modify fun fs => (fs.addNode dir name (.link target)).2
  | .addName p existing => do
    let (_, _, i) ← named existing
    let (dir, name) ← slot p
    if ((← get).child? dir name).isSome then throw (.os .fileExists)
    modify fun fs => fs.bindName dir name i

/-- Make a change, as far as it can be made. -/
def perform (c : Change) (fs : FileSystem) : FileSystem := (c.apply.exec fs).2

end Change

end FlatArchive
