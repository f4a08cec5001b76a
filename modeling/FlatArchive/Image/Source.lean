-- SUMMARY: Reading headers, heads, contents and whole entries from any sequential source of bytes.
import FlatArchive.Attempt
import FlatArchive.Image.Entry
import FlatArchive.Image.Header

/-!
# Sources

A source hands out bytes in order. It may fail, and once it hands out fewer bytes than it was asked
for it has ended. All that an image consists of is read through this one operation, so a byte string
in memory and a stream that delivers it piece by piece are read by the same code.

Content is asked for in pieces of at most 65536 bytes: a size that the source cannot satisfy is
found out before more than one piece too much has been asked for.
-/

namespace FlatArchive

open Attempt

structure Source (σ ε : Type) where
  /-- Hand out up to `n` bytes; fewer mean that the source has ended. -/
  fill : (n : Nat) → σ → Except ε Bytes × σ
  /-- How a format error is reported by this source. -/
  report : FormatError → ε
  fill_le : ∀ {n s bs s'}, fill n s = (.ok bs, s') → bs.length ≤ n

namespace Source

variable {σ ε : Type} (src : Source σ ε)

def take (n : Nat) : Attempt σ ε Bytes := ofFn (src.fill n)

@[simp] theorem exec_take (n : Nat) (s : σ) : (src.take n).exec s = src.fill n s := rfl

def fail {α : Type} (e : FormatError) : Attempt σ ε α := throw (src.report e)

/-- Exactly `n` bytes, or the error that `field` is truncated. -/
def readField (field : Field) (n : Nat) : Attempt σ ε { bs : Bytes // bs.length = n } := do
  let bs ← src.take n
  if h : bs.length = n then return ⟨bs, h⟩ else src.fail (.truncated field n bs.length)

theorem exec_readField (field : Field) (n : Nat) (s : σ) :
    (src.readField field n).exec s =
      match src.fill n s with
      | (.ok bs, s') =>
        if h : bs.length = n then (.ok ⟨bs, h⟩, s')
        else (.error (src.report (.truncated field n bs.length)), s')
      | (.error e, s') => (.error e, s') := by
  rw [readField, exec_bind, exec_take]
  rcases src.fill n s with ⟨_ | bs, s'⟩
  · rfl
  · dsimp only
    split <;> rfl

def readHeader : Attempt σ ε Header := do
  let bs ← src.readField .header 1
  return ⟨bs.val.head (List.ne_nil_of_length_pos (by simp [bs.property]))⟩

def readHead : Attempt σ ε Head := do
  let size ← src.readField .size Head.sizeWidth
  let name ← src.readField .name Name.fieldSize
  return Head.ofFields size.val name.val name.property

/-- The largest piece of content that is asked for at once. -/
def chunkSize : Nat := 65536

/-- Read the last `remaining` bytes of a content of `size` bytes after `content`. -/
def readChunks (size remaining : Nat) (content : Bytes) (s : σ) : Except ε Bytes × σ :=
  if _h : remaining = 0 then (.ok content, s)
  else
    let want := min remaining chunkSize
    match src.fill want s with
    | (.error e, s') => (.error e, s')
    | (.ok bs, s') =>
      if bs.length = want then readChunks size (remaining - want) (content ++ bs) s'
      else (.error (src.report (.truncated .content size (size - remaining + bs.length))), s')
termination_by remaining
decreasing_by simp only [chunkSize]; omega

def readContent (size : Nat) : Attempt σ ε Bytes := ofFn (src.readChunks size size [])

/-- The next entry. Its name is checked before its content is read. -/
def readEntry : Attempt σ ε Entry := do
  let head ← src.readHead
  match head.name with
  | .error e => src.fail e
  | .ok name =>
    let content ← src.readContent head.size.toNat
    return ⟨name, content⟩

/-- Read `n` entries, or as many as come before the first error. -/
def readEntries : (n : Nat) → σ → (List Entry × Option ε) × σ
  | 0, s => (([], none), s)
  | n + 1, s =>
    match src.readEntry.exec s with
    | (.error e, s') => (([], some e), s')
    | (.ok entry, s') =>
      let ((entries, err), s'') := readEntries n s'
      ((entry :: entries, err), s'')

end Source

/-! ## Byte strings -/

/-- A byte string in memory, of which the state is what has not been handed out yet. -/
def Bytes.source : Source Bytes FormatError where
  fill n bs := (.ok (bs.take n), bs.drop n)
  report := id
  fill_le h := by
    cases h
    exact List.length_take_le ..

/-- A field of a byte string is its front part, if it is long enough; else all of it is consumed. -/
theorem Bytes.exec_readField (field : Field) (n : Nat) (bs : Bytes) :
    (Bytes.source.readField field n).exec bs =
      if h : n ≤ bs.length then (.ok ⟨bs.take n, List.length_take_of_le h⟩, bs.drop n)
      else (.error (.truncated field n bs.length), []) := by
  rw [Source.exec_readField]
  by_cases h : n ≤ bs.length
  · simp [Bytes.source, h]
  · have hle : bs.length ≤ n := Nat.le_of_not_le h
    have hne : bs.length ≠ n := fun heq => h (Nat.le_of_eq heq.symm)
    simp [Bytes.source, h, hle, hne]

end FlatArchive
