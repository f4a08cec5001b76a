-- SUMMARY: When the value that a log directive asks of a field can be read.
import FlatArchive.Pattern.Reading

/-!
# Field values

A value is a number or a pattern for the text of a field. The commands never compare values, so that
it matters only whether a value can be read. A number may have a sign, a point, and an exponent of
ten, or be infinite or none. With a plus sign in front a value has to be a number, for it is no
pattern (`isReadable_plus`).
-/

namespace FlatArchive.CommandLine.FieldValue

/-- A text without the sign at its front. -/
def unsigned : List Char → List Char
  | '+' :: cs | '-' :: cs => cs
  | cs => cs

/-- Whether a text is empty or an exponent of ten. -/
def isExponent : List Char → Bool
  | [] => true
  | e :: cs => (e == 'e' || e == 'E') && !(unsigned cs).isEmpty && (unsigned cs).all Char.isDigit

/-- Whether a text is digits, with a point in front of them, among them or behind them, and an
exponent or none. -/
def isDecimal (cs : List Char) : Bool :=
  let behind := cs.dropWhile Char.isDigit
  match behind with
  | '.' :: cs' =>
    !((cs.takeWhile Char.isDigit).isEmpty && (cs'.takeWhile Char.isDigit).isEmpty)
      && isExponent (cs'.dropWhile Char.isDigit)
  | _ => !(cs.takeWhile Char.isDigit).isEmpty && isExponent behind

def isNumber (text : List Char) : Bool :=
  let size := unsigned text
  ["inf", "infinity", "nan"].contains (String.ofList (size.map Char.toLower)) || isDecimal size

def isReadable (value : List Char) : Bool := isNumber value || Pattern.isReadable value

theorem isReadable_plus (cs : List Char) : isReadable ('+' :: cs) = isNumber ('+' :: cs) := by
  simp [isReadable, Pattern.isReadable_plus]

end FlatArchive.CommandLine.FieldValue
