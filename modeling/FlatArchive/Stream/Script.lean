-- SUMMARY: A stream that follows a script of deliveries, interruptions and failures.
import FlatArchive.Stream.Basic

/-!
# Scripted streams

A script lists what a stream does. Bytes are served as far as each read asks, and the rest by later
reads; a read serves bytes of one item only. An interruption, an empty answer and a failure each
take one read. After the script the stream is at its end.
-/

namespace FlatArchive

inductive ScriptItem where
  | bytes (bs : Bytes)
  | interrupted
  /-- One read gives nothing; later ones go on. -/
  | nothing
  | failed (e : IoError)
  deriving Repr, DecidableEq

namespace ScriptItem

/-- The number of bytes in an item. -/
def size : ScriptItem → Nat
  | bytes bs => bs.length
  | interrupted | nothing | failed _ => 0

end ScriptItem

abbrev Script := List ScriptItem

namespace Script

/-- The number of bytes that a script has yet to deliver. -/
def unread (s : Script) : Nat := s.foldr (fun item n => item.size + n) 0

def read : Script → Nat → Delivery × Script
  | [], _ => (.bytes [], [])
  | .bytes [] :: rest, n => read rest n
  | .bytes (b :: bs) :: rest, n =>
    (.bytes ((b :: bs).take n), .bytes ((b :: bs).drop n) :: rest)
  | .interrupted :: rest, _ => (.interrupted, rest)
  | .nothing :: rest, _ => (.bytes [], rest)
  | .failed e :: rest, _ => (.failed e, rest)

def left (s : Script) : Nat := s.unread + s.length

@[simp] theorem left_nil : left [] = 0 := rfl

@[simp] theorem left_cons (item : ScriptItem) (s : Script) :
    left (item :: s) = item.size + left s + 1 := by
  simp [left, unread]; omega

theorem left_of_bytes {s s' : Script} {n : Nat} {b : UInt8} {bs : Bytes}
    (h : read s n = (.bytes (b :: bs), s')) : left s' < left s := by
  fun_induction read s n with
  | case1 => simp at h
  | case2 rest n ih =>
    have := ih h
    simp only [left_cons]
    omega
  | case3 c cs rest n =>
    simp only [Prod.mk.injEq, Delivery.bytes.injEq] at h
    have hlen := congrArg List.length h.1
    rw [← h.2]
    simp only [List.length_take, List.length_cons] at hlen
    simp only [left_cons, ScriptItem.size, List.length_drop, List.length_cons]
    omega
  | case4 | case5 | case6 => simp at h

theorem left_of_interrupted {s s' : Script} {n : Nat} (h : read s n = (.interrupted, s')) :
    left s' < left s := by
  fun_induction read s n with
  | case1 | case3 | case5 | case6 => simp at h
  | case2 rest n ih =>
    have := ih h
    simp only [left_cons, ScriptItem.size]
    omega
  | case4 rest =>
    cases h
    simp only [left_cons]
    omega

theorem read_le {s s' : Script} {n : Nat} {bs : Bytes} (h : read s n = (.bytes bs, s')) :
    bs.length ≤ n := by
  fun_induction read s n with
  | case1 | case5 => cases h; simp
  | case2 rest n ih => exact ih h
  | case3 c cs rest n => cases h; exact List.length_take_le ..
  | case4 | case6 => simp at h

def stream : Stream Script where
  read := read
  left := left
  read_le := read_le
  left_of_bytes := left_of_bytes
  left_of_interrupted := left_of_interrupted

end Script

end FlatArchive
