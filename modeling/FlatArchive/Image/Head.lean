-- SUMMARY: The head of an entry: the size of its content and its name, in a record of fixed layout.
import FlatArchive.Image.FormatError
import FlatArchive.Image.Name
import FlatArchive.Text.Quoted

/-!
# Heads

Each entry starts with a head of 264 bytes: the size of the content in eight bytes, the least
significant first, and the field of the name. A head keeps the field as it is, so that a head that
was read is written back unchanged even if no name can be read from it.
-/

namespace FlatArchive

open Text

structure Head where
  size : UInt64
  nameField : Bytes
  length_nameField : nameField.length = Name.fieldSize
  deriving Repr, DecidableEq

namespace Head

def sizeWidth : Nat := 8

/-- The length of a head in bytes. -/
def length : Nat := sizeWidth + Name.fieldSize

def ofName (name : String) (size : UInt64) : Head :=
  ⟨size, Name.toField name, Name.length_toField name⟩

def toBytes (h : Head) : Bytes := Bytes.ofNat sizeWidth h.size.toNat ++ h.nameField

/-- The head that its two fields make up. -/
def ofFields (size : Bytes) (name : Bytes) (h : name.length = Name.fieldSize) : Head :=
  ⟨UInt64.ofNat (Bytes.toNat size), name, h⟩

/-- Take exactly 264 bytes as a head. -/
def ofBytes (bs : Bytes) : Except FormatError Head :=
  if h : bs.length = length then
    .ok (ofFields (bs.take sizeWidth) (bs.drop sizeWidth) (by simp [h, length]))
  else
    .error (.badLayout .sizeMismatch)

def nameBytes (h : Head) : Bytes := Name.ofField h.nameField

/-- The name, which may be empty. -/
def name (h : Head) : Except FormatError String :=
  match Utf8.decode h.nameBytes with
  | .ok name => .ok name
  | .error fault => .error (.badName fault)

/-- The head in one line; a name that is not text shows as an empty one. -/
def describe (h : Head) : String :=
  let shown := match h.name with
    | .ok name => name
    | .error _ => ""
  s!"name={Quoted.text shown} size={h.size}"

@[simp] theorem length_toBytes (h : Head) : h.toBytes.length = length := by
  simp [toBytes, h.length_nameField, length]

end Head

end FlatArchive
