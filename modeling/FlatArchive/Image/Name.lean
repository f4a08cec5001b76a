-- SUMMARY: Entry names in an image: cut to what fits, and kept in a field that ends in zeros.
import FlatArchive.Text.Utf8

/-!
# Name fields

An entry's name is kept in a field of 256 bytes: its UTF-8 bytes, ended by the first zero byte. A
name that is written keeps at most 255 bytes, so that its field always ends in a zero; a longer one
is cut after the last character that still fits.
-/

namespace FlatArchive.Name

open Text

def fieldSize : Nat := 256

/-- The greatest length in bytes of a name that is written. -/
def maxLength : Nat := 255

/-- The longest start of `cs` whose encoding has at most `room` bytes. -/
def takeFitting (room : Nat) : List Char → List Char
  | [] => []
  | c :: cs => if c.utf8Size ≤ room then c :: takeFitting (room - c.utf8Size) cs else []

/-- The longest start of a name that fits the field and leaves it a closing zero. -/
def fit (name : String) : String := String.ofList (takeFitting maxLength name.toList)

/-- The field that holds a name, filled up with zeros. -/
def toField (name : String) : Bytes :=
  let stored := Utf8.encode (fit name)
  stored ++ List.replicate (fieldSize - stored.length) 0

/-- The bytes of the name in a field: all in front of the first zero. -/
def ofField (field : Bytes) : Bytes := field.takeWhile (· != 0)

theorem length_encode_takeFitting (room : Nat) (cs : List Char) :
    (Utf8.encodeList (takeFitting room cs)).length ≤ room := by
  induction cs generalizing room with
  | nil => simp [takeFitting, Utf8.encodeList]
  | cons c cs ih =>
    by_cases h : c.utf8Size ≤ room
    · have := ih (room - c.utf8Size)
      simp [takeFitting, h, Utf8.encodeList] at this ⊢
      omega
    · simp [takeFitting, h, Utf8.encodeList]

theorem length_encode_fit (name : String) : (Utf8.encode (fit name)).length ≤ maxLength := by
  simpa [Utf8.encode, fit] using length_encode_takeFitting maxLength name.toList

@[simp] theorem length_toField (name : String) : (toField name).length = fieldSize := by
  have := length_encode_fit name
  simp only [toField, List.length_append, List.length_replicate, maxLength, fieldSize] at *
  omega

end FlatArchive.Name
