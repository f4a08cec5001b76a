-- SUMMARY: Streams that deliver bytes in pieces of their own choosing, and reading from them.
import FlatArchive.Error
import FlatArchive.Image.Source

/-!
# Streams

A stream answers each read with some bytes, with nothing at its end, with an interruption, after
which the read is simply tried again, or with a failure. What it still has to deliver is bounded by
`left`, so that trying again comes to an end.

Every stream is a source: `fill` reads until it has what was asked for or the stream gives nothing.
-/

namespace FlatArchive

open Attempt

/-- The answer to one read. -/
inductive Delivery where
  | bytes (bs : Bytes)
  | interrupted
  | failed (e : IoError)
  deriving Repr, DecidableEq

structure Stream (σ : Type) where
  /-- Deliver at most `n` bytes. -/
  read : σ → (n : Nat) → Delivery × σ
  /-- A bound on the non-empty deliveries and interruptions to come. -/
  left : σ → Nat
  read_le : ∀ {s n bs s'}, read s n = (.bytes bs, s') → bs.length ≤ n
  left_of_bytes : ∀ {s n b bs s'}, read s n = (.bytes (b :: bs), s') → left s' < left s
  left_of_interrupted : ∀ {s n s'}, read s n = (.interrupted, s') → left s' < left s

namespace Stream

variable {σ : Type}

/-- The stream of a reader that is never interrupted and never fails. -/
def ofRead (read : σ → Nat → Bytes × σ) (left : σ → Nat)
    (read_le : ∀ s n, (read s n).1.length ≤ n)
    (left_read : ∀ s n, left (read s n).2 + (read s n).1.length ≤ left s) : Stream σ where
  read s n :=
    let r := read s n
    (.bytes r.1, r.2)
  left := left
  read_le {s n bs s'} h := by
    cases h
    exact read_le s n
  left_of_bytes {s n b bs s'} h := by
    simp only [Prod.mk.injEq, Delivery.bytes.injEq] at h
    have hleft := left_read s n
    rw [h.1, h.2, List.length_cons] at hleft
    omega
  left_of_interrupted h := by simp at h

/-- The stream that fails in the states for which there is an error, and else reads as it did. -/
def failingAt (st : Stream σ) (failure : σ → Option IoError) : Stream σ where
  read s n :=
    match failure s with
    | some e => (.failed e, s)
    | none => st.read s n
  left := st.left
  read_le {s n bs s'} h := by
    cases hfailure : failure s with
    | some e => simp [hfailure] at h
    | none => exact st.read_le (by simpa [hfailure] using h)
  left_of_bytes {s n b bs s'} h := by
    cases hfailure : failure s with
    | some e => simp [hfailure] at h
    | none => exact st.left_of_bytes (by simpa [hfailure] using h)
  left_of_interrupted {s n s'} h := by
    cases hfailure : failure s with
    | some e => simp [hfailure] at h
    | none => exact st.left_of_interrupted (by simpa [hfailure] using h)

variable (st : Stream σ)

/-- Read until `n` more bytes have come after `got`, or none come. -/
def fillAfter (got : Array UInt8) (n : Nat) (s : σ) : Except Error Bytes × σ :=
  if n = 0 then (.ok got.toList, s)
  else match _h : st.read s n with
    | (.bytes [], s') => (.ok got.toList, s')
    | (.bytes (b :: bs), s') => fillAfter (got ++ (b :: bs)) (n - (bs.length + 1)) s'
    | (.interrupted, s') => fillAfter got n s'
    | (.failed e, s') => (.error (.io "Read image" none e), s')
termination_by st.left s
decreasing_by
  · exact st.left_of_bytes _h
  · exact st.left_of_interrupted _h

def fill (n : Nat) (s : σ) : Except Error Bytes × σ := st.fillAfter #[] n s

theorem length_fillAfter_le {got : Array UInt8} {n : Nat} {s s' : σ} {bs : Bytes}
    (h : st.fillAfter got n s = (.ok bs, s')) : bs.length ≤ got.size + n := by
  fun_induction fillAfter st got n s with
  | case1 => cases h; simp
  | case2 => cases h; simp
  | case3 got n s _ b bs' s'' hread ih =>
    have hle := st.read_le hread
    have := ih h
    have hsize : (got ++ (b :: bs')).size = got.size + (bs'.length + 1) := by
      simp [← Array.length_toList]
    simp only [List.length_cons] at hle
    omega
  | case4 got n s _ s'' hread ih => exact ih h
  | case5 => cases h

/-- A stream as a source of image bytes. -/
def source : Source σ Error where
  fill := st.fill
  report := .format
  fill_le h := by simpa using st.length_fillAfter_le h

/-- How much is asked for at once of what nobody wants to keep. -/
def drainSize : Nat := 8192

/-- Read to the end and count what came, after `count` bytes that did. -/
def drainAfter (count : Nat) (s : σ) : Except Error Nat × σ :=
  match _h : st.read s drainSize with
  | (.bytes [], s') => (.ok count, s')
  | (.bytes (_ :: bs), s') => drainAfter (count + (bs.length + 1)) s'
  | (.interrupted, s') => drainAfter count s'
  | (.failed e, s') => (.error (.io "Read trailing data" none e), s')
termination_by st.left s
decreasing_by
  · exact st.left_of_bytes _h
  · exact st.left_of_interrupted _h

/-- Read to the end and count the bytes that come. -/
def drain : Attempt σ Error Nat := ofFn (st.drainAfter 0)

end Stream

end FlatArchive
