-- SUMMARY: A file system as a table of nodes: files, directories, symbolic links and devices.
import FlatArchive.Bytes

/-!
# File systems

A file system is a table of nodes. A directory maps names to the numbers of nodes, so that several
names may stand for one file, and a file that is open stays what it is when its name goes. Numbers
are never used again: a node without a name stays in the table.
-/

namespace FlatArchive

/-- The number of a node. -/
abbrev NodeId := Nat

inductive Device where
  /-- Takes everything and holds nothing. -/
  | null
  /-- Has room for nothing and holds nothing. -/
  | full
  deriving Repr, DecidableEq

inductive Node where
  | file (content : Bytes)
  | directory (parent : NodeId) (entries : List (Bytes × NodeId))
  | link (target : Bytes)
  | device (kind : Device)
  deriving Repr, DecidableEq

structure FileSystem where
  nodes : Array Node
  root : NodeId
  /-- The working directory, where relative paths start. -/
  cwd : NodeId
  /-- The length from which on a path is refused as a whole, if there is one. -/
  pathLimit : Option Nat
  /-- The size that a directory is said to have, although nothing can be read of it. -/
  directorySize : Nat := 4096
  deriving Repr, DecidableEq

namespace FileSystem

def node? (fs : FileSystem) (i : NodeId) : Option Node := fs.nodes[i]?

def isDirectory (fs : FileSystem) (i : NodeId) : Bool :=
  match fs.node? i with
  | some (.directory ..) => true
  | _ => false

def isFile (fs : FileSystem) (i : NodeId) : Bool :=
  match fs.node? i with
  | some (.file _) => true
  | _ => false

/-- The names in a directory, in the order in which they were made. -/
def entries (fs : FileSystem) (i : NodeId) : List (Bytes × NodeId) :=
  match fs.node? i with
  | some (.directory _ entries) => entries
  | _ => []

/-- The node of that name in a directory. -/
def child? (fs : FileSystem) (dir : NodeId) (name : Bytes) : Option NodeId :=
  (fs.entries dir).lookup name

/-- The directory that holds a directory; the root holds itself. -/
def parentOf (fs : FileSystem) (dir : NodeId) : NodeId :=
  match fs.node? dir with
  | some (.directory parent _) => parent
  | _ => dir

/-- What a file holds; nothing for a node that is none. -/
def content (fs : FileSystem) (i : NodeId) : Bytes :=
  match fs.node? i with
  | some (.file content) => content
  | _ => []

/-- The size that a node is said to have. -/
def size (fs : FileSystem) (i : NodeId) : Nat :=
  if fs.isDirectory i then fs.directorySize else (fs.content i).length

theorem size_eq_length {fs : FileSystem} {i : NodeId} (h : fs.isDirectory i = false) :
    fs.size i = (fs.content i).length := by
  rw [size, h]
  rfl

/-! ## Changes of the table -/

def setNode (fs : FileSystem) (i : NodeId) (n : Node) : FileSystem :=
  { fs with nodes := fs.nodes.setIfInBounds i n }

/-- Add a node to the table; it has no name yet. -/
def alloc (fs : FileSystem) (n : Node) : NodeId × FileSystem :=
  (fs.nodes.size, { fs with nodes := fs.nodes.push n })

/-- Give a node a name in a directory, in place of what had the name before. -/
def bindName (fs : FileSystem) (dir : NodeId) (name : Bytes) (i : NodeId) : FileSystem :=
  match fs.node? dir with
  | some (.directory parent entries) =>
    fs.setNode dir (.directory parent (entries.filter (·.1 != name) ++ [(name, i)]))
  | _ => fs

def unbindName (fs : FileSystem) (dir : NodeId) (name : Bytes) : FileSystem :=
  match fs.node? dir with
  | some (.directory parent entries) =>
    fs.setNode dir (.directory parent (entries.filter (·.1 != name)))
  | _ => fs

/-- Make a new node under a name. -/
def addNode (fs : FileSystem) (dir : NodeId) (name : Bytes) (n : Node) : NodeId × FileSystem :=
  let (i, fs) := fs.alloc n
  (i, fs.bindName dir name i)

end FileSystem

end FlatArchive
