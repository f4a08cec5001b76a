-- SUMMARY: How a path finds its way through a file system.
import FlatArchive.FileSystem.Basic
import FlatArchive.FileSystem.IoError
import FlatArchive.Path.Component

/-!
# Walking a path

A path is walked step by step from the root or the working directory. `.` and `..` need a directory
to stand in, and so does a slash at the end. A symbolic link is replaced by the steps of its target;
after forty of them the walk is given up. Where the last name leads depends on what the path is for:
it is looked up and links are followed, or it is only the place of a name in a directory.
-/

namespace FlatArchive

inductive Step where
  | here
  | up
  | down (name : Bytes)
  /-- The slash at the end of a path. -/
  | closing
  deriving Repr, DecidableEq

namespace Step

def ofSegment (segment : Bytes) : Option Step :=
  if segment = [] then none
  else if segment = [Path.dot] then some here
  else if segment = [Path.dot, Path.dot] then some up
  else some (down segment)

/-- The steps of a path, from the directory where it starts. -/
def ofPath (p : Path) : List Step :=
  p.segments.filterMap ofSegment ++ if p.bytes.getLast? = some Path.slash then [closing] else []

/-- Nothing but a closing slash may follow the last name of a path. -/
def noMore (steps : List Step) : Bool := steps.isEmpty || steps == [closing]

end Step

/-- What a path is walked for. -/
inductive Purpose where
  /-- To find a node. -/
  | find
  /-- To find a file to write, or the place of a new one. -/
  | create
  /-- To find the place of a name, whatever has it. -/
  | place
  deriving Repr, DecidableEq

/-- Where a walk ends. -/
inductive Spot where
  | node (i : NodeId)
  /-- The place of a name in a directory. -/
  | slot (dir : NodeId) (name : Bytes)
  deriving Repr, DecidableEq

namespace FileSystem

/-- The most links that one walk follows. -/
def maxLinks : Nat := 40

/-- The greatest length of a name in a directory. -/
def maxNameLength : Nat := 255

/-- Where a path starts. -/
def start (fs : FileSystem) (dir : NodeId) (p : Path) : NodeId :=
  if p.isAbsolute then fs.root else dir

/-- Walk `steps` from the node `at_`, following at most `links` links. -/
def walk (fs : FileSystem) (purpose : Purpose) (links : Nat) (at_ : NodeId) :
    List Step → Except Errno Spot
  | [] => .ok (.node at_)
  | step :: rest =>
    if !fs.isDirectory at_ then .error .notDirectory
    else match step with
      | .here | .closing => walk fs purpose links at_ rest
      | .up => walk fs purpose links (fs.parentOf at_) rest
      | .down name =>
        if purpose = .place ∧ Step.noMore rest then .ok (.slot at_ name)
        else if purpose = .create ∧ rest = [.closing] then .error .isDirectory
        else if maxNameLength < name.length then .error .nameTooLong
        else match fs.child? at_ name with
          | none => if Step.noMore rest then .ok (.slot at_ name) else .error .noEntry
          | some i =>
            match fs.node? i with
            | some (.link target) =>
              match links with
              | 0 => .error .tooManyLinks
              | links + 1 =>
                if target = [] then .error .noEntry
                else walk fs purpose links (fs.start at_ ⟨target⟩) (Step.ofPath ⟨target⟩ ++ rest)
            | _ => walk fs purpose links i rest
termination_by steps => (links, steps.length)

/-- Walk a path from the working directory. -/
def resolve (fs : FileSystem) (purpose : Purpose) (p : Path) : Except IoError Spot :=
  if p.bytes.contains 0 then .error .zeroByteInPath
  else if p.bytes = [] then .error (.os .noEntry)
  else if fs.pathLimit.any (· ≤ p.bytes.length) then .error (.os .nameTooLong)
  else match fs.walk purpose maxLinks (fs.start fs.cwd p) (Step.ofPath p) with
    | .ok spot => .ok spot
    | .error e => .error (.os e)

/-- The node that a path leads to. -/
def find (fs : FileSystem) (p : Path) : Except IoError NodeId :=
  match fs.resolve .find p with
  | .ok (.node i) => .ok i
  | .ok (.slot ..) => .error (.os .noEntry)
  | .error e => .error e

def isDirectoryAt (fs : FileSystem) (p : Path) : Bool :=
  match fs.find p with
  | .ok i => fs.isDirectory i
  | .error _ => false

end FileSystem

end FlatArchive
