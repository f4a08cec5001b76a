-- SUMMARY: What a backslash and the characters after it stand for in a pattern.
import FlatArchive.Pattern.Options

/-!
# Escapes

After a backslash a letter stands for a character, a kind of characters or a place in the text, and
every other character of ASCII that is no digit stands for itself. The letters `x`, `u` and `U` are
followed by two, four or eight hexadecimal digits, the code of a character. Kinds of characters and
edges of words are known among bytes only, and kinds by their property not at all. Reading an escape
uses up the letter at least (`length_escape?_lt`).
-/

namespace FlatArchive.Pattern

/-- What an escape stands for. -/
inductive Atom where
  /-- A character, where `isByte` says that it is written as a byte. -/
  | char (c : Char) (isByte : Bool)
  /-- A kind of characters: digits, blanks or those of words. -/
  | kind
  /-- A place in the text, such as its end or the edge of a word. -/
  | place
  deriving Repr, DecidableEq

/-- The characters that have a letter of their own. -/
def namedChars : List (Char × Char) :=
  [('a', '\x07'), ('f', '\x0C'), ('t', '\t'), ('n', '\n'), ('r', '\r'), ('v', '\x0B')]

/-! ## Codes -/

def hexDigit? (c : Char) : Option Nat :=
  if c.isDigit then some (c.toNat - '0'.toNat)
  else if 'a' ≤ c ∧ c ≤ 'f' then some (c.toNat - 'a'.toNat + 10)
  else if 'A' ≤ c ∧ c ≤ 'F' then some (c.toNat - 'A'.toNat + 10)
  else none

/-- Read hexadecimal digits after others that spell `code`. -/
def readCode (o : Options) : (digits : Nat) → (code : Nat) → List Char → Option (Nat × List Char)
  | 0, code, cs => some (code, cs)
  | digits + 1, code, cs =>
    match o.skip cs with
    | [] => none
    | c :: rest => do
      let digit ← hexDigit? c
      readCode o digits (code * 16 + digit) rest

/-- Read the character that a number of hexadecimal digits is the code of. -/
def readChar (o : Options) (digits : Nat) (isByte : Bool) (cs : List Char) :
    Option (Atom × List Char) := do
  let (code, rest) ← readCode o digits 0 cs
  if code.isValidChar then some (.char (Char.ofNat code) isByte, rest) else none

theorem length_readCode_le {o : Options} {digits code value : Nat} {cs rest : List Char}
    (h : readCode o digits code cs = some (value, rest)) : rest.length ≤ cs.length := by
  fun_induction readCode o digits code cs with
  | case1 => grind
  | case2 => grind
  | case3 digits code cs c tail hskip ih =>
    have hle := o.length_skip_le cs
    simp only [Option.bind_eq_bind, Option.bind_eq_some_iff] at h
    obtain ⟨digit, _, hread⟩ := h
    have := ih digit hread
    grind

/-! ## Letters -/

/-- Read what follows a backslash. -/
def escape? (o : Options) : List Char → Option (Atom × List Char)
  | [] => none
  | c :: cs =>
    match c with
    | 'x' => readChar o 2 true cs
    | 'u' => readChar o 4 false cs
    | 'U' => readChar o 8 false cs
    | 'd' | 's' | 'w' => if o.allScripts then none else some (.kind, cs)
    | 'b' | 'B' | '<' | '>' => if o.allScripts then none else some (.place, cs)
    | 'A' | 'z' => some (.place, cs)
    | _ =>
      match namedChars.lookup c with
      | some named => some (.char named false, cs)
      | none => if c.toNat < 0x80 && !c.isAlphanum then some (.char c false, cs) else none

theorem length_readChar_le {o : Options} {digits : Nat} {isByte : Bool} {atom : Atom}
    {cs rest : List Char} (h : readChar o digits isByte cs = some (atom, rest)) :
    rest.length ≤ cs.length := by
  simp only [readChar, Option.bind_eq_bind, Option.bind_eq_some_iff] at h
  obtain ⟨⟨code, tail⟩, hread, h⟩ := h
  have := length_readCode_le hread
  grind

theorem length_escape?_lt {o : Options} {atom : Atom} {cs rest : List Char}
    (h : escape? o cs = some (atom, rest)) : rest.length < cs.length := by
  cases cs with
  | nil => simp [escape?] at h
  | cons c cs =>
    simp only [escape?] at h
    split at h
    case h_1 | h_2 | h_3 => exact Nat.lt_succ_of_le (length_readChar_le h)
    all_goals grind

end FlatArchive.Pattern
