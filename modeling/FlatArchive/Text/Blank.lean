-- SUMMARY: Blank characters (Unicode's White_Space), and a text without those around it.

/-!
# Blanks

The characters with the property White_Space of Unicode 17.
-/

namespace FlatArchive.Text.Blank

/-- The blank characters as inclusive ranges of code points, in order. -/
def ranges : Array (Nat × Nat) := #[
  (0x9, 0xD), (0x20, 0x20), (0x85, 0x85), (0xA0, 0xA0), (0x1680, 0x1680), (0x2000, 0x200A),
  (0x2028, 0x2029), (0x202F, 0x202F), (0x205F, 0x205F), (0x3000, 0x3000)]

def contains (c : Char) : Bool :=
  ranges.any fun (lo, hi) => lo ≤ c.toNat && c.toNat ≤ hi

/-- A text without the blanks at its front and its end. -/
def trim (cs : List Char) : List Char :=
  ((cs.dropWhile contains).reverse.dropWhile contains).reverse

end FlatArchive.Text.Blank
