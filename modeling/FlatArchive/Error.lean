-- SUMMARY: The errors of packing and unpacking: their messages, their context and what caused them.
import FlatArchive.FileSystem.IoError
import FlatArchive.Image.FormatError
import FlatArchive.Path.Basic

/-!
# Errors

An error says what went wrong, and where: `atEntry` adds the number of the entry, once, and `atPath`
the path of an input or output error that has none. Below an error lie its causes, one line each, down
to those of the input or output error. A format error shows as itself, without a line of its own for the
wrapper.
-/

namespace FlatArchive

inductive Error where
  | format (cause : FormatError)
  | io (context : String) (path : Option Path) (cause : IoError)
  | fileNotFound (path : Path)
  | notAFile (path : Path)
  | notADirectory (path : Path)
  | invalidInput (path : Path) (reason : String)
  | invalidPath (entry component : Path)
  | lengthMismatch (path : Path) (expected actual : Nat)
  | entry (index : Nat) (cause : Error)
  deriving Repr, DecidableEq

namespace Error

/-! ## Context -/

/-- The error as that of entry `index`, unless it already belongs to an entry. -/
def atEntry (index : Nat) : Error → Error
  | entry i e => entry i e
  | e => entry index e

/-- The error with a path, if it is one of input or output that has none. -/
def atPath (p : Path) : Error → Error
  | io context none e => io context (some p) e
  | entry i e => entry i (atPath p e)
  | e => e

/-- The format error underneath any entries. -/
def format? : Error → Option FormatError
  | format e => some e
  | entry _ e => format? e
  | _ => none

/-! ## Text -/

def message : Error → String
  | format e => e.message
  | io context none _ => context
  | io context (some p) _ => s!"{context} ({p.display})"
  | fileNotFound p => s!"File not found: {p.display}"
  | notAFile p => s!"Not a regular file: {p.display}"
  | notADirectory p => s!"Not a directory: {p.display}"
  | invalidInput p reason => s!"Invalid input {p.display}: {reason}"
  | invalidPath e c => s!"Invalid path component {c.display} in entry {e.display}"
  | lengthMismatch p expected actual =>
    s!"Size of {p.display} changed while packing: expected {expected}, got {actual}"
  | entry index _ => s!"Entry {index}"

/-- The messages of the causes, from the nearest to the last. -/
def causes : Error → List String
  | format e => e.cause.toList
  | io _ _ e => e.message :: e.causes
  | entry _ e => e.message :: causes e
  | _ => []

/-- The message, and a line for each cause. -/
def trace (e : Error) : String :=
  e.message ++ "\n" ++ String.join (e.causes.map fun c => s!"\tCaused by: {c}\n")

end Error

end FlatArchive
