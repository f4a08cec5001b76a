-- SUMMARY: Listing and unpacking an image agree: the same entries, and the same error unless files stand in the way.
import FlatArchive.Proofs.FailFast
import FlatArchive.Proofs.Listing

/-!
# Listing and unpacking

Both go through the entries of an image, but unpacking checks names and writes files in between. As
long as no write reaches the image, both see the same: an image that is unpacked can be listed, and
the events tell of the entries of the listing. Where listing fails unpacking fails, and with the same
error unless it failed before, over the directory, a name or a file of an earlier entry. So unpacking
an image that can be listed never fails because of its format.
-/

namespace FlatArchive

open Attempt FileSystem

variable {fs : FileSystem} {dir image : Path} {j : NodeId} {rs : List Record} {e : Error}
  {s s' : Session FileSystem}

/-! ## What is reported -/

/-- Unpacking fails before it comes to entry `k`: over the directory, or over a file or the name of an
earlier entry. -/
inductive FailsBefore (fs : FileSystem) (dir : Path) (k : Nat) : Error → Prop where
  | directory {e : Error} {s : Session FileSystem}
      (prepare : (prepareDirectory dir).start fs = (.error e, s)) : FailsBefore fs dir k e
  | file {i : Nat} {context : String} {path : Option Path} {cause : IoError} (before : i < k) :
      FailsBefore fs dir k (.entry i (.io context path cause))
  | name {i : Nat} {entry component : Path} (before : i < k) :
      FailsBefore fs dir k (.entry i (.invalidPath entry component))

namespace FailsBefore

variable {k k' : Nat}

theorem mono (h : FailsBefore fs dir k e) (hle : k ≤ k') : FailsBefore fs dir k' e := by
  cases h with
  | directory prepare => exact .directory prepare
  | file before => exact .file (Nat.lt_of_lt_of_le before hle)
  | name before => exact .name (Nat.lt_of_lt_of_le before hle)

end FailsBefore

end FlatArchive
