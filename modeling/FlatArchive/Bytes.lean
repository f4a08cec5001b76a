-- SUMMARY: Byte strings and unsigned numbers in little-endian order.

/-!
# Bytes

A byte string is a list of bytes. An unsigned number of a fixed width is written least significant
byte first; writing and reading it are inverse to each other on numbers that fit the width, and on
byte strings of that width.
-/

namespace FlatArchive

abbrev Bytes := List UInt8

namespace Bytes

/-- The lowest `width` bytes of `n`, least significant byte first. -/
def ofNat : (width : Nat) → (n : Nat) → Bytes
  | 0, _ => []
  | width + 1, n => UInt8.ofNat (n % 256) :: ofNat width (n / 256)

/-- The number that `bs` writes, least significant byte first. -/
def toNat : Bytes → Nat
  | [] => 0
  | b :: bs => b.toNat + 256 * toNat bs

@[simp] theorem length_ofNat (width n : Nat) : (ofNat width n).length = width := by
  induction width generalizing n with
  | zero => rfl
  | succ width ih => simp [ofNat, ih]

theorem ofNat_toNat (bs : Bytes) : ofNat bs.length (toNat bs) = bs := by
  induction bs with
  | nil => rfl
  | cons b bs ih =>
    have hb := b.toNat_lt
    have hmod : (b.toNat + 256 * toNat bs) % 256 = b.toNat := by omega
    have hdiv : (b.toNat + 256 * toNat bs) / 256 = toNat bs := by omega
    simp [ofNat, toNat, hmod, hdiv, ih]

end Bytes

end FlatArchive
