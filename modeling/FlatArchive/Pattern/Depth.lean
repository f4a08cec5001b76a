-- SUMMARY: How deep the parts of a pattern are nested in each other.

/-!
# Depth

A character has depth 0; what is made of other parts is a level deeper than the deepest of them.
-/

namespace FlatArchive.Pattern.Depth

/-- The deepest that a pattern may be. -/
def limit : Nat := 250

/-- The depth of parts side by side: a part alone is as deep as it is, and several make a level. -/
def row : List Nat → Nat
  | [] => 0
  | [depth] => depth
  | depths => 1 + depths.foldl max 0

end FlatArchive.Pattern.Depth
