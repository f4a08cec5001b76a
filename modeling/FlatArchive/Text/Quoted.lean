-- SUMMARY: Text between quotation marks, with everything that would not be seen escaped.
import FlatArchive.Text.Combining
import FlatArchive.Text.Unprintable
import FlatArchive.Text.Utf8

/-!
# Quoted text

A quoted text stands between quotation marks. Characters that end or disturb a quotation have short
escapes; a combining or unprintable character is written as its code point. In a quoted byte string
each byte that belongs to no character is written as two hexadecimal digits.
-/

namespace FlatArchive.Text.Quoted

/-- The digits of `n` in base sixteen, lower case, without leading zeros. -/
def hexDigits (n : Nat) : String := String.ofList (Nat.toDigits 16 n)

/-- Two digits in base sixteen, upper case. -/
def byteDigits (b : UInt8) : String :=
  String.ofList (((Nat.toDigits 16 (b.toNat + 0x100)).drop 1).map Char.toUpper)

/-- Every character of printable ASCII can be seen, and so can all others that neither combine nor
are unprintable. -/
def isVisible (c : Char) : Bool :=
  (' ' ≤ c && c ≤ '~') || !(Combining.contains c || Unprintable.contains c)

def escape (c : Char) : String :=
  match c with
  | '\x00' => "\\0"
  | '\t' => "\\t"
  | '\n' => "\\n"
  | '\r' => "\\r"
  | '"' => "\\\""
  | '\\' => "\\\\"
  | c => if isVisible c then c.toString else "\\u\x7b" ++ hexDigits c.toNat ++ "\x7d"

def escapePiece : Utf8.Piece → String
  | .char c => escape c
  | .malformed bs | .unfinished bs => String.join (bs.map fun b => "\\x" ++ byteDigits b)

def text (s : String) : String := "\"" ++ String.join (s.toList.map escape) ++ "\""

def bytes (bs : Bytes) : String :=
  "\"" ++ String.join ((Utf8.pieces bs).map escapePiece) ++ "\""

end FlatArchive.Text.Quoted
