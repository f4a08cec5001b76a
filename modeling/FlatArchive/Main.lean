-- SUMMARY: The program: a command line that is run on the files of the computer.
import FlatArchive.CommandLine.Run
import FlatArchive.FileSystem.Change
import FlatArchive.FileSystem.Tree

/-!
# The program

The files that a command line names are taken into a file system in memory, the command is run on
it, and what it has made or changed is written back. A name that leads through links is kept as a
link to the file that it leads to, so that one file under two names stays one file.
-/

namespace FlatArchive.CommandLine

namespace Command

/-- The paths that a command works on. -/
def paths : Command → List String
  | pack image inputs => image :: inputs
  | packDirectory image dir | unpack image dir => [image, dir]
  | list image => [image]

end Command

/-- Files with nothing but the working directory. -/
def filesAt (cwd : String) : FileSystem :=
  let files : FileSystem :=
    { nodes := #[.directory 0 []], root := 0, cwd := 0, pathLimit := some 4096 }
  let files := Change.perform (.makeDir (.ofString cwd)) files
  match files.find (.ofString cwd) with
  | .ok i => { files with cwd := i }
  | .error _ => files

/-- All that lies below the root. -/
def wholeTree (files : FileSystem) : List TreeItem :=
  files.treeBelow files.nodes.size files.root ⟨[Path.slash]⟩

/-- The path of an existing file without links, `.` and `..`; none if there is no such file. -/
def canonical (path : String) : IO (Option String) := do
  try return some (← IO.FS.realPath path).toString
  catch _ => return none

/-- Take an existing file, or a directory with all that is in it, into the files. -/
partial def load (files : FileSystem) (path : String) : IO FileSystem := do
  let real ← IO.FS.realPath path
  if ← real.isDir then
    let mut files := Change.perform (.makeDir (.ofString path)) files
    for entry in ← real.readDir do
      if (← canonical entry.path.toString).isSome then
        files ← load files (path ++ "/" ++ entry.fileName)
    return files
  else
    let content ← IO.FS.readBinFile path
    return Change.perform (.write (.ofString path) content.toList) files

/-- Take the nearest existing place above a path into the files, a directory without its content. -/
partial def loadAbove (files : FileSystem) (path : Path) : IO FileSystem := do
  match path.parent with
  | none => return files
  | some above =>
    match ← canonical above.display with
    | none => loadAbove files above
    | some real =>
      if ← (← IO.FS.realPath real).isDir then return Change.perform (.makeDir above) files
      else load files above.display

/-- Take what a path leads to into the files, with a link if the path is not its only name. If it
leads nowhere, take where it could. -/
def loadNamed (files : FileSystem) (path : String) : IO FileSystem := do
  match ← canonical path with
  | none => loadAbove files (.ofString path)
  | some real =>
    let files ← load files real
    let files ← loadAbove files (.ofString path)
    if (files.find (.ofString path)).isOk then return files
    else return Change.perform (.makeLink (.ofString path) (Text.Utf8.encode real)) files

/-- Write what is new or different back to the computer. -/
def store (before after : FileSystem) : IO Unit := do
  let known := wholeTree before
  for item in wholeTree after do
    unless known.contains item do
      match item with
      | .directory path => IO.FS.createDirAll path.display
      | .file path content => IO.FS.writeBinFile path.display (ByteArray.mk content.toArray)
      | .link .. | .device .. => pure ()

def usageText : String :=
  "Usage: [-v | -q] pack IMAGE FILE... | pack --dir DIR IMAGE | unpack IMAGE DIR | list IMAGE\n"

end FlatArchive.CommandLine

open FlatArchive CommandLine in
def main (args : List String) : IO UInt32 := do
  let paths := ((Arguments.parse args).toOption.map (·.command.paths)).getD []
  let cwd ← IO.currentDir
  let mut files := filesAt cwd.toString
  for path in paths do
    files ← loadNamed files path
  match run args none files with
  | (.usage, _) =>
    IO.eprint usageText
    return 1
  | (.help, _) =>
    IO.print usageText
    return 0
  | (.finished code output errors, after) =>
    store files after
    IO.print output
    IO.eprint errors
    return UInt32.ofNat code
