-- SUMMARY: Sinks that accept bytes in pieces of their own choosing, and writing to them.
import FlatArchive.Stream.Basic

/-!
# Sinks

A sink answers each write with the number of bytes that it accepts, with an interruption, after
which the write is simply tried again, or with a failure. It is interrupted only so often in a row:
`patience` bounds it. Accepting nothing of a write that is not empty is an error.
-/

namespace FlatArchive

open Attempt

/-- The answer to one write. -/
inductive Acceptance where
  | accepted (n : Nat)
  | interrupted
  | failed (e : IoError)
  deriving Repr, DecidableEq

structure Sink (τ : Type) where
  /-- Accept a front part of `bs`. -/
  write : τ → (bs : Bytes) → Acceptance × τ
  /-- A bound on the interruptions before the next answer of another kind. -/
  patience : τ → Nat
  accepted_le : ∀ {t bs n t'}, write t bs = (.accepted n, t') → n ≤ bs.length
  patience_of_interrupted : ∀ {t bs t'}, write t bs = (.interrupted, t') → patience t' < patience t

namespace Sink

variable {σ τ : Type} (sink : Sink τ)

/-- Write all of `bs`. -/
def put (bs : Bytes) (t : τ) : Except IoError Unit × τ :=
  if _hbs : bs = [] then (.ok (), t)
  else match _h : sink.write t bs with
    | (.accepted 0, t') => (.error .writeZero, t')
    | (.accepted (n + 1), t') => put (bs.drop (n + 1)) t'
    | (.interrupted, t') => put bs t'
    | (.failed e, t') => (.error e, t')
termination_by (bs.length, sink.patience t)
decreasing_by
  · have := List.length_pos_iff.2 _hbs
    exact Prod.Lex.left _ _ (by simp only [List.length_drop]; omega)
  · exact Prod.Lex.right _ (sink.patience_of_interrupted _h)

theorem put_nil (t : τ) : sink.put [] t = (.ok (), t) := by
  rw [put, dif_pos rfl]

/-- One write, and what its answer leads to. -/
theorem put_of_ne {bs : Bytes} (hbs : bs ≠ []) (t : τ) :
    sink.put bs t = match sink.write t bs with
      | (.accepted 0, t') => (.error .writeZero, t')
      | (.accepted (n + 1), t') => sink.put (bs.drop (n + 1)) t'
      | (.interrupted, t') => sink.put bs t'
      | (.failed e, t') => (.error e, t') := by
  rw [put, dif_neg hbs]
  split <;> simp_all

/-- Copy at most `size` more bytes from a stream, in pieces of at most `piece` bytes, after `count`
bytes that were copied. How the stream reads may depend on what the sink did. -/
def copyAfter (st : τ → Stream σ) (piece count size : Nat) (s : σ) (t : τ) :
    Except IoError Nat × σ × τ :=
  if _hsize : size = 0 then (.ok count, s, t)
  else match _h : (st t).read s (min piece size) with
    | (.bytes [], s') => (.ok count, s', t)
    | (.bytes (b :: bs), s') =>
      match sink.put (b :: bs) t with
      | (.error e, t') => (.error e, s', t')
      | (.ok (), t') => copyAfter st piece (count + (bs.length + 1)) (size - (bs.length + 1)) s' t'
    | (.interrupted, s') => copyAfter st piece count size s' t
    | (.failed e, s') => (.error e, s', t)
termination_by (size, (st t).left s)
decreasing_by
  · exact Prod.Lex.left _ _ (by omega)
  · exact Prod.Lex.right _ ((st t).left_of_interrupted _h)

theorem copyAfter_zero (st : τ → Stream σ) (piece count : Nat) (s : σ) (t : τ) :
    sink.copyAfter st piece count 0 s t = (.ok count, s, t) := by
  rw [copyAfter, dif_pos rfl]

/-- One read, and what its answer leads to. -/
theorem copyAfter_of_ne (st : τ → Stream σ) (piece count : Nat) {size : Nat} (hsize : size ≠ 0)
    (s : σ) (t : τ) :
    sink.copyAfter st piece count size s t = match (st t).read s (min piece size) with
      | (.bytes [], s') => (.ok count, s', t)
      | (.bytes (b :: bs), s') =>
        match sink.put (b :: bs) t with
        | (.error e, t') => (.error e, s', t')
        | (.ok (), t') =>
          sink.copyAfter st piece (count + (bs.length + 1)) (size - (bs.length + 1)) s' t'
      | (.interrupted, s') => sink.copyAfter st piece count size s' t
      | (.failed e, s') => (.error e, s', t) := by
  rw [copyAfter, dif_neg hsize]
  split <;> simp_all

/-- Copy `size` bytes from a stream, or as many as it has, and give their number. -/
def copy (st : τ → Stream σ) (piece size : Nat) (s : σ) (t : τ) : Except IoError Nat × σ × τ :=
  sink.copyAfter st piece 0 size s t

end Sink

end FlatArchive
