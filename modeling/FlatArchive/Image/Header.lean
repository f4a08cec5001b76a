-- SUMMARY: The header of an image: one byte, the number of entries.
import FlatArchive.Image.FormatError

/-!
# Header

An image starts with the number of its entries in one byte. Every byte can be read as a header, but
a header that is written counts at least one entry.
-/

namespace FlatArchive

structure Header where
  byte : UInt8
  deriving Repr, DecidableEq

namespace Header

def count (h : Header) : Nat := h.byte.toNat

def isEmpty (h : Header) : Bool := h.byte == 0

def toBytes (h : Header) : Bytes := [h.byte]

/-- The header that counts `count` entries, which must be between 1 and 255. -/
def ofCount (count : Nat) : Except FormatError Header :=
  if count = 0 then .error .noEntries
  else if count ≤ maxEntries then .ok ⟨UInt8.ofNat count⟩
  else .error (.tooManyEntries count)

theorem ofCount_zero : ofCount 0 = .error .noEntries := rfl

theorem ofCount_of_le {count : Nat} (hpos : 0 < count) (hle : count ≤ maxEntries) :
    ofCount count = .ok ⟨UInt8.ofNat count⟩ := by
  simp [ofCount, hle, Nat.ne_of_gt hpos]

theorem ofCount_of_lt {count : Nat} (h : maxEntries < count) :
    ofCount count = .error (.tooManyEntries count) := by
  have hne : count ≠ 0 := by omega
  simp [ofCount, hne, Nat.not_le.2 h]

theorem count_of_ofCount {count : Nat} {h : Header} (hh : ofCount count = .ok h) :
    h.count = count := by
  unfold ofCount maxEntries at hh
  split at hh
  · cases hh
  · split at hh
    · cases hh
      simp [Header.count]
      omega
    · cases hh

end Header

end FlatArchive
