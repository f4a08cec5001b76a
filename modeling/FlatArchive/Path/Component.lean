-- SUMMARY: The components of a path, its file name, and the first component that leads elsewhere.
import FlatArchive.Path.Basic

/-!
# Components

A path consists of the segments between its slashes. Empty segments do not count, nor does `.`,
except at the start of a path that is not absolute; a leading slash is a component of its own. A
path all of whose components are ordinary names stays below the directory it is joined to.
-/

namespace FlatArchive

open Text

inductive Component where
  | root
  | current
  | parent
  | normal (name : Bytes)
  deriving Repr, DecidableEq

namespace Component

def isNormal : Component → Bool
  | normal _ => true
  | root | current | parent => false

def toPath : Component → Path
  | root => ⟨[Path.slash]⟩
  | current => ⟨[Path.dot]⟩
  | parent => ⟨[Path.dot, Path.dot]⟩
  | normal name => ⟨name⟩

/-- The component that a segment stands for, wherever it stands. -/
def ofSegment (segment : Bytes) : Option Component :=
  if segment = [] ∨ segment = [Path.dot] then none
  else if segment = [Path.dot, Path.dot] then some parent
  else some (normal segment)

end Component

namespace Path

/-- The byte strings between the slashes of a path, empty ones included. -/
def segments (p : Path) : List Bytes := p.bytes.splitOn slash

/-- The component in front of all segments: a leading slash, or a `.` that is the first segment. -/
def leading (p : Path) : List Component :=
  if p.isAbsolute then [.root]
  else if p.segments.head? = some [dot] then [.current]
  else []

def components (p : Path) : List Component :=
  p.leading ++ p.segments.filterMap Component.ofSegment

/-- The first component that is not an ordinary name. -/
def stray? (p : Path) : Option Component := p.components.find? fun c => !c.isNormal

/-- The last component, if it is an ordinary name. -/
def fileName? (p : Path) : Option Bytes :=
  match p.components.getLast? with
  | some (.normal name) => some name
  | _ => none

end Path

end FlatArchive
