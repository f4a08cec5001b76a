-- SUMMARY: What can be wrong with the bytes of an image, or with the number of its entries.
import FlatArchive.Text.Utf8

/-!
# Format errors

The errors of the image format itself. None of them knows of files or paths.
-/

namespace FlatArchive

open Text

/-- The part of an image that a reader was in when the bytes ran out. -/
inductive Field where
  | header
  | size
  | name
  | content
  deriving Repr, DecidableEq

namespace Field

def text : Field → String
  | header => "header"
  | size => "size"
  | name => "name"
  | content => "content"

end Field

/-- Why bytes cannot be taken as a record of fixed layout. -/
inductive LayoutFault where
  | sizeMismatch
  | alignmentMismatch
  | outputSlop
  | inputNotAligned
  deriving Repr, DecidableEq

namespace LayoutFault

def text : LayoutFault → String
  | sizeMismatch => "SizeMismatch"
  | alignmentMismatch => "AlignmentMismatch"
  | outputSlop => "OutputSliceWouldHaveSlop"
  | inputNotAligned => "TargetAlignmentGreaterAndInputNotAligned"

end LayoutFault

inductive FormatError where
  | badLayout (fault : LayoutFault)
  | tooManyEntries (count : Nat)
  | noEntries
  | badName (fault : Utf8.Error)
  | truncated (field : Field) (expected actual : Nat)
  deriving Repr, DecidableEq

/-- The largest number of entries of an image: its count is one byte. -/
def maxEntries : Nat := 255

namespace FormatError

def message : FormatError → String
  | badLayout fault => s!"Bytemuck: {fault.text}"
  | tooManyEntries count => s!"Too many entries: {count} (at most {maxEntries})"
  | noEntries => "No entries to pack"
  | badName fault => s!"Entry name is not valid UTF-8: {fault.message}"
  | truncated field expected actual =>
    s!"Truncated {field.text}: expected {expected} bytes, got {actual}"

/-- The message of the error underneath, if there is one. -/
def cause : FormatError → Option String
  | badName fault => some fault.message
  | badLayout _ | tooManyEntries _ | noEntries | truncated .. => none

end FormatError

end FlatArchive
