-- SUMMARY: A reader's count of entries over whole sessions, on streams that may fail at any point.
import FlatArchive.Proofs.Session
import Mathlib

/-!
# Counting entries

A reader counts the entries that `next` gives out and numbers them by this count. The count is kept
through whatever a session does: reads that fail, reads of the stream that the reader does not count,
and streams that end or fail at any point and go on after. So it never passes what the header
announced, the numbers are 1, 2, 3 and so on, and a failure of `next` carries the number that the
next entry will get.

That a failure carries this number and no other rests on what reads fail with: reading a stream never
fails with the error of an entry, which would keep its own number.
-/

namespace FlatArchive

/-! ## What reads fail with -/

namespace Attempt

variable {σ ε α β : Type} {E : ε → Prop}

/-- `E` holds of every error that the attempt may end in. -/
def Raises (E : ε → Prop) (x : Attempt σ ε α) : Prop := ∀ s e s', x.exec s = (.error e, s') → E e

namespace Raises

theorem pure (a : α) : Raises E (Pure.pure a : Attempt σ ε α) :=
  fun _ _ _ h => nomatch h

theorem throw {e : ε} (he : E e) : Raises E (throw e : Attempt σ ε α) := by
  intro s e' s' h
  cases h
  exact he

theorem bind {x : Attempt σ ε α} {f : α → Attempt σ ε β} (hx : Raises E x)
    (hf : ∀ a, Raises E (f a)) : Raises E (x >>= f) := by
  intro s e s'' h
  rw [exec_bind] at h
  rcases hexec : x.exec s with ⟨e' | a, s'⟩
  · rw [hexec] at h
    cases h
    exact hx s e s'' hexec
  · rw [hexec] at h
    exact hf a s' e s'' h

end Raises

end Attempt

namespace Source

open Attempt

variable {σ ε : Type} {src : Source σ ε} {E : ε → Prop}

section

variable (hfill : ∀ n, Raises E (src.take n)) (hreport : ∀ e, E (src.report e))

include hfill hreport

theorem raises_readField (field : Field) (n : Nat) : Raises E (src.readField field n) := by
  refine (hfill n).bind fun bs => ?_
  split
  · exact Raises.pure _
  · exact Raises.throw (hreport _)

theorem raises_readHead : Raises E src.readHead :=
  (raises_readField hfill hreport .size _).bind fun _ =>
    (raises_readField hfill hreport .name _).bind fun _ => Raises.pure _

theorem raises_readChunks (size remaining : Nat) (content : Bytes) :
    Raises E (ofFn (src.readChunks size remaining content)) := by
  intro s e s' h
  rw [exec_ofFn] at h
  fun_induction readChunks src size remaining content s with
  | case1 => cases h
  | case2 _ _ s _ _ e' s'' hfailed =>
    cases h
    exact hfill _ s e s' hfailed
  | case3 _ _ _ _ _ _ _ _ _ ih => exact ih h
  | case4 =>
    cases h
    exact hreport _

theorem raises_readEntry : Raises E src.readEntry := by
  refine (raises_readHead hfill hreport).bind fun head => ?_
  cases head.name with
  | error e => exact Raises.throw (hreport e)
  | ok name =>
    exact (raises_readChunks hfill hreport _ _ _).bind fun _ => Raises.pure _

end

end Source

/-- The errors of reads: a format error, or a failure of the stream. -/
inductive Error.OfRead : Error → Prop where
  | format (cause : FormatError) : OfRead (.format cause)
  | io (cause : IoError) : OfRead (.io "Read image" none cause)

/-- They belong to no entry yet. -/
theorem Error.OfRead.atEntry {e : Error} (h : OfRead e) (index : Nat) :
    e.atEntry index = .entry index e := by
  cases h <;> rfl

namespace Stream

open Attempt

variable {σ : Type} (st : Stream σ)

theorem raises_take (n : Nat) : Raises Error.OfRead (st.source.take n) := by
  intro s e s' h
  have hfill : st.fillAfter #[] n s = (.error e, s') := h
  clear h
  generalize (#[] : Array UInt8) = got at hfill
  fun_induction fillAfter st got n s with
  | case1 | case2 => cases hfill
  | case3 _ _ _ _ _ _ _ _ ih | case4 _ _ _ _ _ _ ih => exact ih hfill
  | case5 =>
    cases hfill
    exact .io _

theorem raises_readEntry : Raises Error.OfRead st.source.readEntry :=
  Source.raises_readEntry st.raises_take .format

end Stream

/-! ## One request -/

/-- The number of the entry that an answer gives, if it gives one. -/
def Answer.index? : Except Error Answer → Option Nat
  | .ok (.next (some (index, _))) => some index
  | _ => none

namespace Reader

open Attempt

variable {σ : Type} (st : Stream σ)

/-- What asking for the next entry comes to: none, and the reader is as it was; an entry with the next
number; or the error of the entry with this number, which is not counted. -/
theorem exec_next_cases (r : Reader σ) :
    (r.remaining = 0 ∧ (next st).exec r = (.ok none, r))
      ∨ (0 < r.remaining ∧ ∃ entry s,
          (next st).exec r = (.ok (some (r.decoded + 1, entry)), ⟨s, r.header, r.decoded + 1⟩))
      ∨ (0 < r.remaining ∧ ∃ cause s, Error.OfRead cause
          ∧ (next st).exec r = (.error (.entry (r.decoded + 1) cause), ⟨s, r.header, r.decoded⟩)) := by
  rw [next, exec_ofFn]
  by_cases hdone : r.remaining = 0
  · rw [if_pos hdone]
    exact .inl ⟨hdone, rfl⟩
  have hpos := Nat.pos_of_ne_zero hdone
  rw [if_neg hdone]
  rcases hread : st.source.readEntry.exec r.stream with ⟨cause | entry, s⟩
  · have hcause := st.raises_readEntry _ _ _ hread
    refine .inr (.inr ⟨hpos, cause, s, hcause, ?_⟩)
    dsimp only
    rw [hcause.atEntry]
  · exact .inr (.inl ⟨hpos, entry, s, rfl⟩)

/-- Other requests give no entry that counts, and of the reader they move the stream only. -/
theorem exec_ask_of_ne_next {q : Request} (hq : q ≠ .next) (r : Reader σ) :
    Answer.index? ((Request.ask st q).exec r).1 = none
      ∧ ∃ s, ((Request.ask st q).exec r).2 = ⟨s, r.header, r.decoded⟩ := by
  cases q with
  | next => exact absurd rfl hq
  | trailing =>
    rw [Request.ask, exec_map]
    refine ⟨?_, _, rfl⟩
    rcases ((trailing st).exec r).1 with _ | _ <;> rfl
  | header =>
    rw [Request.ask, exec_map]
    refine ⟨?_, _, rfl⟩
    rcases ((onStream st.source.readHeader).exec r).1 with _ | _ <;> rfl
  | entry =>
    rw [Request.ask, exec_map]
    refine ⟨?_, _, rfl⟩
    rcases ((onStream st.source.readEntry).exec r).1 with _ | _ <;> rfl

/-- The reader has its header, and the numbers that it gave out run from 1 to its count, which is
within what the header announced. -/
structure Counted (announced : Header) (given : List Nat) (r : Reader σ) : Prop where
  header : r.header = announced
  indices : given = List.range' 1 r.decoded
  decoded_le : r.decoded ≤ announced.count

namespace Counted

variable {announced : Header} {given : List Nat} {r : Reader σ}

theorem remaining (h : Counted announced given r) : r.decoded + r.remaining = announced.count := by
  rw [Reader.remaining, h.header]
  exact Nat.add_sub_of_le h.decoded_le

theorem ask (h : Counted announced given r) (q : Request) :
    Counted announced (given ++ (Answer.index? ((Request.ask st q).exec r).1).toList)
      ((Request.ask st q).exec r).2 := by
  by_cases hq : q = .next
  · subst hq
    have hremaining := h.remaining
    rw [Request.ask, exec_map]
    rcases exec_next_cases st r with ⟨-, hexec⟩ | ⟨hpos, entry, s, hexec⟩ | ⟨-, cause, s, -, hexec⟩
    · rw [hexec]
      simpa [Answer.index?, Except.map] using h
    · rw [hexec]
      refine ⟨h.header, ?_, by dsimp only; omega⟩
      rw [List.range'_1_concat, ← h.indices, Nat.add_comm r.decoded]
      rfl
    · rw [hexec]
      exact ⟨h.header, by simpa [Answer.index?, Except.map] using h.indices, h.decoded_le⟩
  · obtain ⟨hindex, s, hafter⟩ := exec_ask_of_ne_next st hq r
    rw [hindex, hafter]
    exact ⟨h.header, by simpa using h.indices, h.decoded_le⟩

/-- A whole session keeps the count. -/
theorem askAll (h : Counted announced given r) (requests : List Request) :
    Counted announced
      (given ++ (Request.askAll (Request.ask st) requests r).1.filterMap (Answer.index? ·.1))
      (Request.askAll (Request.ask st) requests r).2 := by
  induction requests generalizing given r with
  | nil => simpa [Request.askAll] using h
  | cons q qs ih =>
    have hrest := ih (h.ask st q)
    rw [List.append_assoc] at hrest
    rw [Request.askAll, List.filterMap_cons]
    dsimp only
    cases hindex : Answer.index? ((Request.ask st q).exec r).1 with
    | none => rwa [hindex] at hrest
    | some index => rwa [hindex] at hrest

end Counted

theorem counted_of_ofStream {s : σ} {r : Reader σ} (h : ofStream st s = .ok r) :
    Counted r.header [] r := by
  unfold ofStream at h
  split at h
  · cases h
    exact ⟨rfl, rfl, Nat.zero_le _⟩
  · cases h

/-- The count of a reader at every point of every session, whatever its stream does. After the
requests `before` the numbers of the entries that came are `1, …, m`. The header is the one that the
reader was opened with, `m` is within its count, and what remains is the rest of it. Asked for the
next entry then, the reader gives none exactly if nothing remains, and does not touch its stream; an
entry that comes has the number `m + 1`, within the count, and there remains one less; and a failure
is that of entry `m + 1`, after which as many entries remain and the number is the same. Whatever else
is asked, neither changes. -/
theorem count_of_askAll {s : σ} {start : Reader σ} (hopen : ofStream st s = .ok start)
    (before : List Request) :
    ∃ answers now m, Request.askAll (Request.ask st) before start = (answers, now)
      ∧ answers.filterMap (Answer.index? ·.1) = List.range' 1 m
      ∧ now.header = start.header ∧ now.decoded = m ∧ m ≤ start.header.count
      ∧ now.remaining = start.header.count - m
      ∧ (((next st).exec now).1 = .ok none ↔ now.remaining = 0)
      ∧ (now.remaining = 0 → ((next st).exec now).2 = now)
      ∧ (∀ index entry after, (next st).exec now = (.ok (some (index, entry)), after) →
          index = m + 1 ∧ index ≤ start.header.count ∧ after.header = start.header
            ∧ after.decoded = m + 1 ∧ after.remaining + 1 = now.remaining)
      ∧ (∀ e after, (next st).exec now = (.error e, after) →
          (∃ cause, Error.OfRead cause ∧ e = .entry (m + 1) cause) ∧ after.header = start.header
            ∧ after.decoded = m ∧ after.remaining = now.remaining)
      ∧ ∀ q, q ≠ .next → ∀ answer after, (Request.ask st q).exec now = (answer, after) →
          after.header = start.header ∧ after.decoded = m ∧ after.remaining = now.remaining := by
  have hcounted := (counted_of_ofStream st hopen).askAll st before
  rcases hall : Request.askAll (Request.ask st) before start with ⟨answers, now⟩
  rw [hall, List.nil_append] at hcounted
  have hheader := hcounted.header
  have hle := hcounted.decoded_le
  have hremaining : now.remaining = start.header.count - now.decoded := by
    rw [remaining, hheader]
  refine ⟨answers, now, now.decoded, rfl, hcounted.indices, hheader, rfl, hle, hremaining, ?_, ?_,
    ?_, ?_, ?_⟩
  · rcases exec_next_cases st now with ⟨hdone, hexec⟩ | ⟨hpos, _, _, hexec⟩ | ⟨hpos, _, _, -, hexec⟩
    · simp [hexec, hdone]
    · simp [hexec, Nat.ne_of_gt hpos]
    · simp [hexec, Nat.ne_of_gt hpos]
  · intro hdone
    rw [next, exec_ofFn, if_pos hdone]
  · intro index entry after hexec
    rcases exec_next_cases st now with ⟨-, h⟩ | ⟨hpos, _, s', h⟩ | ⟨-, _, _, -, h⟩
    · rw [h] at hexec
      cases hexec
    · rw [h] at hexec
      cases hexec
      have hlt : now.decoded < start.header.count := by omega
      refine ⟨rfl, hlt, hheader, rfl, ?_⟩
      rw [hremaining, remaining]
      dsimp only
      rw [hheader]
      omega
    · rw [h] at hexec
      cases hexec
  · intro e after hexec
    rcases exec_next_cases st now with ⟨-, h⟩ | ⟨-, _, _, h⟩ | ⟨-, cause, s', hcause, h⟩
    · rw [h] at hexec
      cases hexec
    · rw [h] at hexec
      cases hexec
    · rw [h] at hexec
      cases hexec
      exact ⟨⟨cause, hcause, rfl⟩, hheader, rfl, rfl⟩
  · intro q hq answer after hexec
    obtain ⟨-, s', hafter⟩ := exec_ask_of_ne_next st hq now
    rw [hexec] at hafter
    dsimp only at hafter
    subst hafter
    exact ⟨hheader, rfl, rfl⟩

/-- A stream that is interrupted, then fails once after the header, and gives nothing once after that:
the first entry is refused and still remains, so the next request does not end the image either. -/
theorem count_of_failing_script :
    let script : Script := [.interrupted, .bytes [1], .failed (.os .inputOutput), .nothing]
    ∃ start now, ofStream Script.stream script = .ok start
      ∧ Request.askAll (Request.ask Script.stream) [.next, .trailing] start =
          ([(.error (.entry 1 (.io "Read image" none (.os .inputOutput))), 1), (.ok (.trailing 0), 1)],
            now)
      ∧ now.remaining = 1 ∧ ((next Script.stream).exec now).1 ≠ .ok none := by
  intro script
  have hopen : ofStream Script.stream script =
      .ok ⟨[.bytes [], .failed (.os .inputOutput), .nothing], ⟨1⟩, 0⟩ := by
    cbv
  obtain ⟨answers, now, -, hall, -, -, -, -, -, hnone, -⟩ :=
    count_of_askAll Script.stream hopen [.next, .trailing]
  have hrun : Request.askAll (Request.ask Script.stream) [.next, .trailing]
      ⟨[.bytes [], .failed (.os .inputOutput), .nothing], ⟨1⟩, 0⟩ =
        ([(.error (.entry 1 (.io "Read image" none (.os .inputOutput))), 1), (.ok (.trailing 0), 1)],
          ⟨[], ⟨1⟩, 0⟩) := by
    cbv
  rw [hrun] at hall
  cases hall
  have hone : Reader.remaining (⟨[], ⟨1⟩, 0⟩ : Reader Script) = 1 := rfl
  refine ⟨_, _, hopen, hrun, hone, fun h => ?_⟩
  rw [hnone.1 h] at hone
  cases hone

end Reader

end FlatArchive
