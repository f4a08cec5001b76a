-- SUMMARY: The options under which a pattern is read, and the blanks that one of them lets stand between its parts.
import FlatArchive.Text.Blank

/-!
# Options of a pattern

Each option has a letter. Three of them bear on whether a pattern can be read: letters of both cases
alike (`i`), characters of all scripts (`u`), and blanks and comments between the parts (`x`). A
comment goes from a number sign to the end of its line. What is skipped is a beginning of the text
(`length_skip_le`).
-/

namespace FlatArchive.Pattern

structure Options where
  /-- Capital and small letters are alike. -/
  ignoreCase : Bool
  /-- A character may be one of any script; otherwise characters are bytes. -/
  allScripts : Bool
  /-- Blanks and comments between the parts mean nothing. -/
  spaced : Bool
  deriving Repr, DecidableEq

namespace Options

/-- The options of a pattern that sets none. -/
def plain : Options := ⟨false, true, false⟩

/-! ## Letters -/

/-- Set the option with a letter. What the others change is where a pattern matches. -/
def set? (o : Options) (on : Bool) : (letter : Char) → Option Options
  | 'i' => some { o with ignoreCase := on }
  | 'u' => some { o with allScripts := on }
  | 'x' => some { o with spaced := on }
  | 'm' | 's' | 'U' | 'R' => some o
  | _ => none

/-- The options after a list of letters, where those behind a hyphen are taken back. No letter is
given twice, and a hyphen has letters after it. -/
def change? (o : Options) (letters : List Char) : Option Options :=
  if letters.Nodup ∧ letters.getLast? ≠ some '-' then do
    let o ← (letters.takeWhile (· != '-')).foldlM (fun o c => o.set? true c) o
    ((letters.dropWhile (· != '-')).drop 1).foldlM (fun o c => o.set? false c) o
  else none

/-! ## Blanks and comments -/

/-- A text without the blanks and comments at its front, where it may begin inside a comment. -/
def skipFrom (inComment : Bool) : List Char → List Char
  | [] => []
  | c :: cs =>
    if inComment then skipFrom (c != '\n') cs
    else if Text.Blank.contains c then skipFrom false cs
    else if c == '#' then skipFrom true cs
    else c :: cs

/-- Go on to the next part of a pattern. -/
def skip (o : Options) (cs : List Char) : List Char :=
  if o.spaced then skipFrom false cs else cs

/-- The character that decides about a hyphen in front of it. Blanks do not count, nor does the
number sign of a comment; if there is nothing else it is the very next character. -/
def peek (o : Options) (cs : List Char) : Option Char :=
  if !o.spaced then cs.head?
  else
    let seen := match cs.dropWhile Text.Blank.contains with
      | '#' :: comment => comment.dropWhile Text.Blank.contains
      | seen => seen
    seen.head? <|> cs.head?

theorem length_skipFrom_le (inComment : Bool) (cs : List Char) :
    (skipFrom inComment cs).length ≤ cs.length := by
  fun_induction skipFrom inComment cs <;> grind

theorem length_skip_le (o : Options) (cs : List Char) : (o.skip cs).length ≤ cs.length := by
  unfold skip
  split
  · exact length_skipFrom_le false cs
  · exact Nat.le_refl _

/-! ## Characters -/

/-- Whether a character can be looked for, where `isByte` says that it stands for a byte. Letters of
both cases are known among bytes only, and a byte that is no character of ASCII is a part of one. -/
def admits (o : Options) (c : Char) (isByte : Bool) : Bool :=
  if o.allScripts then !o.ignoreCase else !isByte || c.toNat < 0x80

end Options

end FlatArchive.Pattern
