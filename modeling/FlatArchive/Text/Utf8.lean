-- SUMMARY: UTF-8 encoding, strict and lossy decoding, and the place where a text stops being well formed.
import FlatArchive.Bytes

/-!
# UTF-8

Text is encoded character by character. Every byte string splits into *pieces*: encoded characters
and, where no character stands, the longest run of bytes that begins one but is not finished. Strict
decoding accepts the byte strings whose pieces are all characters, and otherwise says where the
first other piece starts; lossy decoding puts one replacement character for each such piece.
-/

namespace FlatArchive.Text.Utf8

def encodeList (cs : List Char) : Bytes := cs.flatMap String.utf8EncodeChar

/-- The bytes of a text. -/
def encode (s : String) : Bytes := encodeList s.toList

/-! ## Pieces -/

inductive Piece where
  | char (c : Char)
  /-- A start of a character that the next byte does not continue, or a byte that starts none. -/
  | malformed (bs : Bytes)
  /-- A start of a character at which the text ends. -/
  | unfinished (bs : Bytes)
  deriving Repr, DecidableEq

namespace Piece

def bytes : Piece → Bytes
  | char c => String.utf8EncodeChar c
  | malformed bs | unfinished bs => bs

end Piece

/-- The ranges of the bytes after the leading byte `b`; `none` if no character starts with it. -/
def followers (b : Nat) : Option (List (Nat × Nat)) :=
  if b < 0x80 then some []
  else if b < 0xC2 then none
  else if b < 0xE0 then some [(0x80, 0xBF)]
  else if b = 0xE0 then some [(0xA0, 0xBF), (0x80, 0xBF)]
  else if b = 0xED then some [(0x80, 0x9F), (0x80, 0xBF)]
  else if b < 0xF0 then some [(0x80, 0xBF), (0x80, 0xBF)]
  else if b = 0xF0 then some [(0x90, 0xBF), (0x80, 0xBF), (0x80, 0xBF)]
  else if b < 0xF4 then some [(0x80, 0xBF), (0x80, 0xBF), (0x80, 0xBF)]
  else if b = 0xF4 then some [(0x80, 0x8F), (0x80, 0xBF), (0x80, 0xBF)]
  else none

/-- How far bytes match a list of ranges. -/
inductive Match where
  | full
  | wrongByte (matched : Nat)
  | endOfText (matched : Nat)

/-- Match the bytes against the ranges, one byte to a range, after `matched` bytes that did. -/
def matchRanges (matched : Nat) : List (Nat × Nat) → Bytes → Match
  | [], _ => .full
  | _ :: _, [] => .endOfText matched
  | (lo, hi) :: ranges, b :: bs =>
    if lo ≤ b.toNat ∧ b.toNat ≤ hi then matchRanges (matched + 1) ranges bs else .wrongByte matched

/-- The code point that a leading byte and its followers spell. -/
def codePoint (b : Nat) : Bytes → Nat
  | [] => b
  | [x] => (b - 0xC0) * 64 + (x.toNat - 0x80)
  | [x, y] => ((b - 0xE0) * 64 + (x.toNat - 0x80)) * 64 + (y.toNat - 0x80)
  | x :: y :: z :: _ =>
    (((b - 0xF0) * 64 + (x.toNat - 0x80)) * 64 + (y.toNat - 0x80)) * 64 + (z.toNat - 0x80)

/-- The piece at the front of `b :: bs`, and how many bytes of `bs` belong to it. -/
def front (b : UInt8) (bs : Bytes) : Piece × Nat :=
  match followers b.toNat with
  | none => (.malformed [b], 0)
  | some ranges =>
    match matchRanges 0 ranges bs with
    | .full => (.char (Char.ofNat (codePoint b.toNat (bs.take ranges.length))), ranges.length)
    | .wrongByte n => (.malformed (b :: bs.take n), n)
    | .endOfText n => (.unfinished (b :: bs.take n), n)

def pieces : Bytes → List Piece
  | [] => []
  | b :: bs =>
    let (piece, n) := front b bs
    piece :: pieces (bs.drop n)
termination_by bs => bs.length
decreasing_by
  simp only [List.length_drop, List.length_cons]
  omega

/-! ## Decoding -/

/-- Where and how a byte string stops being UTF-8. -/
structure Error where
  /-- The length of the well-formed text in front. -/
  validUpTo : Nat
  /-- The length of the malformed part; `none` if the text ends inside a character. -/
  errorLen : Option Nat
  deriving Repr, DecidableEq

namespace Error

def message (e : Error) : String :=
  match e.errorLen with
  | some n => s!"invalid utf-8 sequence of {n} bytes from index {e.validUpTo}"
  | none => s!"incomplete utf-8 byte sequence from index {e.validUpTo}"

end Error

/-- The characters of a list of pieces that starts at byte `offset`. -/
def charsOfPieces (offset : Nat) : List Piece → Except Error (List Char)
  | [] => .ok []
  | .char c :: ps => (c :: ·) <$> charsOfPieces (offset + c.utf8Size) ps
  | .malformed bs :: _ => .error ⟨offset, some bs.length⟩
  | .unfinished _ :: _ => .error ⟨offset, none⟩

/-- The text that a byte string encodes, or where it stops being UTF-8. -/
def decode (bs : Bytes) : Except Error String :=
  String.ofList <$> charsOfPieces 0 (pieces bs)

/-- The text of a byte string, with U+FFFD for every piece that is not a character. -/
def decodeLossy (bs : Bytes) : String :=
  String.ofList <| (pieces bs).map fun
    | .char c => c
    | .malformed _ | .unfinished _ => '\uFFFD'

end FlatArchive.Text.Utf8
