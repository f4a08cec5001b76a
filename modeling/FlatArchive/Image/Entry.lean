-- SUMMARY: Entries of an image and the bytes they are written as.
import FlatArchive.Image.Head

/-!
# Entries

An entry is a name with its content. It is written as its head followed by the content.
-/

namespace FlatArchive

structure Entry where
  name : String
  content : Bytes
  deriving Repr, DecidableEq

namespace Entry

def size (e : Entry) : Nat := e.content.length

def head (e : Entry) : Head := Head.ofName e.name (UInt64.ofNat e.content.length)

def encode (e : Entry) : Bytes := e.head.toBytes ++ e.content

@[simp] theorem length_encode (e : Entry) : e.encode.length = Head.length + e.content.length := by
  simp [encode]

end Entry

end FlatArchive
