-- SUMMARY: The error numbers of the operating system, and the errors of input and output.

/-!
# Input and output errors

An operation on files fails with an error number of the operating system, or for a reason that has
none: a path with a zero byte, a writer that accepts nothing, or an error of the caller's making. Only
the last has causes of its own.
-/

namespace FlatArchive

inductive Errno where
  | operationNotPermitted
  | noEntry
  | inputOutput
  | permissionDenied
  | fileExists
  | notDirectory
  | isDirectory
  | noSpace
  | nameTooLong
  | directoryNotEmpty
  | tooManyLinks
  deriving Repr, DecidableEq

namespace Errno

def code : Errno → Nat
  | operationNotPermitted => 1
  | noEntry => 2
  | inputOutput => 5
  | permissionDenied => 13
  | fileExists => 17
  | notDirectory => 20
  | isDirectory => 21
  | noSpace => 28
  | nameTooLong => 36
  | directoryNotEmpty => 39
  | tooManyLinks => 40

def all : List Errno :=
  [operationNotPermitted, noEntry, inputOutput, permissionDenied, fileExists, notDirectory,
    isDirectory, noSpace, nameTooLong, directoryNotEmpty, tooManyLinks]

def ofCode? (code : Nat) : Option Errno := all.find? fun e => e.code == code

def text : Errno → String
  | operationNotPermitted => "Operation not permitted"
  | noEntry => "No such file or directory"
  | inputOutput => "Input/output error"
  | permissionDenied => "Permission denied"
  | fileExists => "File exists"
  | notDirectory => "Not a directory"
  | isDirectory => "Is a directory"
  | noSpace => "No space left on device"
  | nameTooLong => "File name too long"
  | directoryNotEmpty => "Directory not empty"
  | tooManyLinks => "Too many levels of symbolic links"

end Errno

/-- What an error of the caller's making says: its text, and those of its causes from the nearest to the
last. A text alone stands for an error without causes. -/
structure IoError.Payload where
  text : String
  causes : List String
  deriving Repr, DecidableEq

instance : Coe String IoError.Payload := ⟨fun text => ⟨text, []⟩⟩

inductive IoError where
  | os (errno : Errno)
  /-- A path with a zero byte cannot be handed to the operating system. -/
  | zeroByteInPath
  /-- A writer accepted no byte of what it was given. -/
  | writeZero
  /-- An error that a caller's own reader or writer came up with. -/
  | custom (kind : String) (payload : IoError.Payload)
  deriving Repr, DecidableEq

namespace IoError

def message : IoError → String
  | os errno => s!"{errno.text} (os error {errno.code})"
  | zeroByteInPath => "file name contained an unexpected NUL byte"
  | writeZero => "failed to write whole buffer"
  | custom _ payload => payload.text

/-- The texts of the causes below the error itself. -/
def causes : IoError → List String
  | custom _ payload => payload.causes
  | os _ | zeroByteInPath | writeZero => []

def code : IoError → Option Nat
  | os errno => some errno.code
  | zeroByteInPath | writeZero | custom .. => none

/-- The error that says that there is no such file. -/
def isNotFound : IoError → Bool
  | os .noEntry => true
  | _ => false

end IoError

end FlatArchive
