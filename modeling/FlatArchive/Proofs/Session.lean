-- SUMMARY: A reader of images gives the same answers however its stream cuts the bytes up.
import FlatArchive.Image.Reader
import FlatArchive.Proofs.Delivery

/-!
# Sessions

A session opens a reader on a stream and asks it one thing after another: the next entry, the bytes
that trail, the header or an entry read past the reader's count. It goes on after errors. The same
session can be held with a byte string in memory, where every answer is what the byte string itself
gives to the read in question, and only the number of an entry is added to the errors of `next`.

The two come to the same answers on every stream that delivers the byte string, and what the stream
has left to deliver at the end is what is left unread in memory.
-/

namespace FlatArchive

open Attempt

/-- What can be asked of a reader. -/
inductive Request where
  | next
  | trailing
  /-- The header, read once more from where the stream is. -/
  | header
  /-- An entry that the reader does not count. -/
  | entry
  deriving Repr, DecidableEq

inductive Answer where
  | next (found : Option (Nat × Entry))
  | trailing (count : Nat)
  | header (header : Header)
  | entry (entry : Entry)
  deriving Repr, DecidableEq

namespace Request

variable {σ : Type}

/-- Ask a reader of a stream. -/
def ask (st : Stream σ) : Request → Attempt (Reader σ) Error Answer
  | .next => .next <$> Reader.next st
  | .trailing => .trailing <$> Reader.trailing st
  | .header => .header <$> Reader.onStream st.source.readHeader
  | .entry => .entry <$> Reader.onStream st.source.readEntry

/-- The next entry of a byte string in memory, of which the reader holds what is unread. -/
def nextInMemory : Attempt (Reader Bytes) Error (Option (Nat × Entry)) := ofFn fun r =>
  if r.remaining = 0 then (.ok none, r)
  else
    let index := r.decoded + 1
    match Bytes.source.readEntry.exec r.stream with
    | (.ok found, rest) =>
      (.ok (some (index, found)), { r with stream := rest, decoded := index })
    | (.error e, rest) => (.error (.entry index (.format e)), { r with stream := rest })

/-- Ask a byte string in memory. -/
def askMemory : Request → Attempt (Reader Bytes) Error Answer
  | .next => .next <$> nextInMemory
  | .trailing => ofFn fun r => (.ok (.trailing r.stream.length), { r with stream := [] })
  | .header => .header <$> Reader.onStream (Bytes.source.readHeader.mapError .format)
  | .entry => .entry <$> Reader.onStream (Bytes.source.readEntry.mapError .format)

/-- Ask for one thing after another, whatever the answers are; each comes with the number of entries
that remain after it. -/
def askAll (ask : Request → Attempt (Reader σ) Error Answer) :
    List Request → Reader σ → List (Except Error Answer × Nat) × Reader σ
  | [], r => ([], r)
  | q :: qs, r =>
    let (answer, r) := (ask q).exec r
    let (answers, r') := askAll ask qs r
    ((answer, r.remaining) :: answers, r')

end Request

/-- What a session shows: the header, an answer for each request, and what the stream was left as. -/
structure Session.Transcript (σ : Type) where
  header : Header
  answers : List (Except Error Answer × Nat)
  stream : σ

open Session

variable {σ : Type}

/-- Open a reader on a stream and ask it. -/
def session (st : Stream σ) (s : σ) (requests : List Request) : Except Error (Transcript σ) :=
  match Reader.ofStream st s with
  | .error e => .error e
  | .ok r =>
    let (answers, r') := Request.askAll (Request.ask st) requests r
    .ok ⟨r.header, answers, r'.stream⟩

/-- Hold the same session with a byte string in memory. -/
def memorySession (bs : Bytes) (requests : List Request) : Except Error (Transcript Bytes) :=
  match Bytes.source.readHeader.exec bs with
  | (.error e, _) => .error (.format e)
  | (.ok header, rest) =>
    let (answers, r) := Request.askAll Request.askMemory requests ⟨rest, header, 0⟩
    .ok ⟨header, answers, r.stream⟩

/-- A session with a stream shows what a session in memory does, and the stream is left with what is
left unread there. -/
inductive Session.Agree (st : Stream σ) :
    Except Error (Transcript σ) → Except Error (Transcript Bytes) → Prop where
  | error (e : Error) : Agree st (.error e) (.error e)
  | ok {header : Header} {answers : List (Except Error Answer × Nat)} {s : σ} {unread : Bytes}
      (delivers : st.Delivers s unread) :
      Agree st (.ok ⟨header, answers, s⟩) (.ok ⟨header, answers, unread⟩)

/-! ## One request -/

/-- The readers are at the same point: the stream has yet to deliver what is unread in memory. -/
structure Reader.SamePoint (st : Stream σ) (r : Reader σ) (m : Reader Bytes) : Prop where
  header : r.header = m.header
  decoded : r.decoded = m.decoded
  delivers : st.Delivers r.stream m.stream

namespace Reader.SamePoint

variable {st : Stream σ}

theorem remaining {r : Reader σ} {m : Reader Bytes} (h : SamePoint st r m) :
    r.remaining = m.remaining := by
  rw [Reader.remaining, Reader.remaining, h.header, h.decoded]

theorem follows_onStream {α : Type} {x : Attempt σ Error α} {y : Attempt Bytes FormatError α}
    (h : Follows st.Delivers .format x y) :
    Follows (SamePoint st) id (Reader.onStream x) (Reader.onStream (y.mapError .format)) := by
  intro r m hrm
  obtain ⟨hres, hR⟩ := h r.stream m.stream hrm.delivers
  simp only [Reader.onStream, exec_onPart, exec_mapError]
  refine ⟨?_, hrm.header, hrm.decoded, hR⟩
  rw [hres]
  cases (y.exec m.stream).1 <;> rfl

theorem follows_next : Follows (SamePoint st) id (Reader.next st) Request.nextInMemory := by
  intro r m hrm
  obtain ⟨hres, hR⟩ := Source.follows_readEntry st.honest_delivers.reads r.stream m.stream hrm.delivers
  simp only [Reader.next, Request.nextInMemory, exec_ofFn, hrm.remaining, hrm.decoded]
  split
  · exact ⟨rfl, hrm⟩
  · rcases hx : st.source.readEntry.exec r.stream with ⟨rx, s'⟩
    rcases hy : Bytes.source.readEntry.exec m.stream with ⟨ry, rest⟩
    rw [hx, hy] at hres hR
    cases ry with
    | error e =>
      cases hres
      exact ⟨rfl, hrm.header, rfl, hR⟩
    | ok entry =>
      cases hres
      exact ⟨rfl, hrm.header, rfl, hR⟩

theorem follows_trailing :
    Follows (SamePoint st) id (Request.ask st .trailing) (Request.askMemory .trailing) := by
  intro r m hrm
  obtain ⟨s', hdrain, hs'⟩ := st.honest_delivers.drain hrm.delivers
  have hexec : (Reader.trailing st).exec r = (.ok m.stream.length, { r with stream := s' }) := by
    rw [Reader.trailing, Reader.onStream, exec_onPart, hdrain]
  rw [Request.ask, exec_map, hexec, Request.askMemory, exec_ofFn]
  exact ⟨rfl, hrm.header, hrm.decoded, hs'⟩

/-- Whatever is asked, the answer is that of the byte string in memory. -/
theorem follows_ask (q : Request) :
    Follows (SamePoint st) id (Request.ask st q) (Request.askMemory q) := by
  cases q with
  | next => exact follows_next.map _
  | trailing => exact follows_trailing
  | header => exact (follows_onStream (Source.follows_readHeader st.honest_delivers.reads)).map _
  | entry => exact (follows_onStream (Source.follows_readEntry st.honest_delivers.reads)).map _

/-- So are all answers of a session. -/
theorem askAll_eq (requests : List Request) {r : Reader σ} {m : Reader Bytes}
    (h : SamePoint st r m) :
    (Request.askAll (Request.ask st) requests r).1 = (Request.askAll Request.askMemory requests m).1
      ∧ SamePoint st (Request.askAll (Request.ask st) requests r).2
          (Request.askAll Request.askMemory requests m).2 := by
  induction requests generalizing r m with
  | nil => exact ⟨rfl, h⟩
  | cons q qs ih =>
    obtain ⟨hres, hsame⟩ := follows_ask q r m h
    obtain ⟨hanswers, hend⟩ := ih hsame
    refine ⟨?_, hend⟩
    simp only [Request.askAll, hanswers, hres, hsame.remaining]
    cases ((Request.askMemory q).exec m).1 <;> rfl

end Reader.SamePoint

/-! ## Sessions -/

theorem session_agree {st : Stream σ} {s : σ} {bs : Bytes} (h : st.Delivers s bs)
    (requests : List Request) : Agree st (session st s requests) (memorySession bs requests) := by
  obtain ⟨hres, hR⟩ := Source.follows_readHeader st.honest_delivers.reads s bs h
  unfold session memorySession Reader.ofStream
  rcases hx : st.source.readHeader.exec s with ⟨rx, s'⟩
  rcases hy : Bytes.source.readHeader.exec bs with ⟨ry, rest⟩
  rw [hx, hy] at hres hR
  cases ry with
  | error e =>
    cases hres
    exact .error _
  | ok header =>
    cases hres
    have hpoint : Reader.SamePoint st ⟨s', header, 0⟩ ⟨rest, header, 0⟩ := ⟨rfl, rfl, hR⟩
    obtain ⟨hanswers, hend⟩ := hpoint.askAll_eq requests
    dsimp only
    rw [hanswers]
    exact .ok hend.delivers

/-- Whichever way a stream delivers a byte string, a session with it shows what it shows on the
byte string in one piece, which is what the byte string in memory gives to each read. -/
theorem session_of_delivers {st : Stream σ} {s : σ} {bs : Bytes} (h : st.Delivers s bs)
    (requests : List Request) :
    Agree st (session st s requests) (memorySession bs requests)
      ∧ Agree Script.stream (session Script.stream [.bytes bs] requests)
          (memorySession bs requests) := by
  have hpiece : Script.IsSteady [.bytes bs] := Script.IsSteady.bytes fun _ hmem => nomatch hmem
  have hone : Script.stream.Delivers [.bytes bs] bs := by
    simpa using Script.delivers hpiece
  exact ⟨session_agree h requests, session_agree hone requests⟩

/-- An image with one record that is cut in its size and in its name, with interruptions. -/
theorem session_of_cut_record :
    let pieces : Script := [.interrupted, .bytes [1], .interrupted, .interrupted, .bytes [2, 0, 0],
      .bytes (List.replicate 5 0), .bytes (0x61 :: List.replicate 200 0), .interrupted,
      .bytes (List.replicate 55 0 ++ [7, 8, 9])]
    let requests : List Request := [.next, .next, .trailing, .entry]
    Script.stream.Delivers pieces (Script.text pieces)
      ∧ Agree Script.stream (session Script.stream pieces requests)
          (memorySession (Script.text pieces) requests)
      ∧ Agree Script.stream (session Script.stream [.bytes (Script.text pieces)] requests)
          (memorySession (Script.text pieces) requests) := by
  intro pieces requests
  have hsteady : Script.IsSteady pieces := by
    simp [Script.IsSteady, pieces]
  have hdelivers := Script.delivers hsteady
  exact ⟨hdelivers, session_of_delivers hdelivers requests⟩

end FlatArchive
