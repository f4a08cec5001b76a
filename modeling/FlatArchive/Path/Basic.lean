-- SUMMARY: File paths as byte strings: joining, parents and how a path is shown.
import FlatArchive.Text.Quoted

/-!
# Paths

A path is the byte string it was given as; it is never normalised. Joining, and going to the parent,
work on the text. A path need not be UTF-8: shown in a message, what is not text becomes U+FFFD.
-/

namespace FlatArchive

open Text

structure Path where
  bytes : Bytes
  deriving Repr, DecidableEq

namespace Path

def slash : UInt8 := 0x2F

def dot : UInt8 := 0x2E

def ofString (s : String) : Path := ⟨Utf8.encode s⟩

def display (p : Path) : String := Utf8.decodeLossy p.bytes

def quoted (p : Path) : String := Quoted.bytes p.bytes

def isAbsolute (p : Path) : Bool := p.bytes.head? == some slash

/-- The path `q` seen from `p`: an absolute path stays what it is, and a slash is put between two
paths if the first is not empty and does not end in one. -/
def join (p q : Path) : Path :=
  if q.isAbsolute then q
  else if p.bytes.isEmpty || p.bytes.getLast? == some slash then ⟨p.bytes ++ q.bytes⟩
  else ⟨p.bytes ++ slash :: q.bytes⟩

/-! ## Parents -/

/-- Drop what follows the last component, from a path read backwards: slashes, and `.` after a
slash. The slash of the root stays. -/
def trimBack : Bytes → Bytes
  | [] => []
  | [a] => [a]
  | a :: b :: rest =>
    if a = slash then trimBack (b :: rest)
    else if a = dot ∧ b = slash then trimBack (b :: rest)
    else a :: b :: rest

theorem length_trimBack_le (bs : Bytes) : (trimBack bs).length ≤ bs.length := by
  fun_induction trimBack bs <;> simp_all <;> omega

/-- The path without its last component; the root and the empty path have none. -/
def parent (p : Path) : Option Path :=
  match trimBack p.bytes.reverse with
  | [] => none
  | a :: rest =>
    if a = slash then none
    else some ⟨(trimBack (rest.dropWhile (· != slash))).reverse⟩

theorem length_parent_lt {p q : Path} (h : p.parent = some q) :
    q.bytes.length < p.bytes.length := by
  have htrim := length_trimBack_le p.bytes.reverse
  unfold parent at h
  split at h
  · cases h
  · next a rest heq =>
    split at h
    · cases h
    · cases h
      have hback := length_trimBack_le (rest.dropWhile (· != slash))
      have hdrop := (List.dropWhile_suffix (l := rest) (· != slash)).length_le
      simp only [heq, List.length_reverse, List.length_cons] at *
      omega

end Path

end FlatArchive
