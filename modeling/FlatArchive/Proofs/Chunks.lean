-- SUMMARY: Content is read in pieces that are never far ahead of what was delivered, and adds up to one read.
import FlatArchive.Proofs.Record

/-!
# Reading in chunks

Content is asked for piece by piece, and a piece is delivered in full before the next one is asked for.
So what was asked for is never more than one piece ahead of what was delivered, whatever size a head
declares. The content is all that was delivered, if that is the declared size. The counts that are kept
on the way are words of 64 bits, and none of them can wrap around (`Source.readWords`).

To speak of what a source was asked for, it is also read through one that records it
(`Source.recorded`), which answers as the source itself does.
-/

namespace FlatArchive

open Attempt

/-! ## Requests -/

/-- What a source was asked for, and its answer. -/
structure Chunk (ε : Type) where
  asked : Nat
  answer : Except ε Bytes

namespace Chunk

variable {ε : Type}

/-- The bytes that were delivered. -/
def bytes (r : Chunk ε) : Bytes :=
  match r.answer with
  | .ok bs => bs
  | .error _ => []

/-- All that was asked for was delivered. -/
def IsFull (r : Chunk ε) : Prop := ∃ bs, r.answer = .ok bs ∧ bs.length = r.asked

/-- The number of bytes that requests asked for in all. -/
def askedFor (log : List (Chunk ε)) : Nat := (log.map asked).sum

/-- The bytes that requests delivered in all. -/
def delivered (log : List (Chunk ε)) : Bytes := log.flatMap bytes

@[simp] theorem delivered_nil : delivered ([] : List (Chunk ε)) = [] := rfl

@[simp] theorem delivered_cons (r : Chunk ε) (log : List (Chunk ε)) :
    delivered (r :: log) = r.bytes ++ delivered log := rfl

theorem delivered_append (log more : List (Chunk ε)) :
    delivered (log ++ more) = delivered log ++ delivered more := List.flatMap_append

theorem askedFor_of_full {log : List (Chunk ε)} (h : ∀ r ∈ log, r.IsFull) :
    askedFor log = (delivered log).length := by
  induction log with
  | nil => rfl
  | cons r log ih =>
    obtain ⟨⟨bs, hanswer, hlength⟩, hrest⟩ := List.forall_mem_cons.1 h
    have hbytes : r.bytes = bs := by rw [bytes, hanswer]
    have hlog := ih hrest
    rw [delivered_cons, List.length_append, hbytes, hlength, ← hlog]
    rfl

end Chunk

open Chunk

namespace Source

variable {σ ε : Type} (src : Source σ ε)

/-- The source that also records what it is asked for. -/
def recorded : Source (σ × List (Chunk ε)) ε where
  fill n u := ((src.fill n u.1).1, (src.fill n u.1).2, u.2 ++ [⟨n, (src.fill n u.1).1⟩])
  report := src.report
  fill_le h := src.fill_le (Prod.ext (Prod.mk.inj h).1 rfl)

variable {src} in
theorem fill_recorded {n : Nat} {s s' : σ} {answer : Except ε Bytes}
    (h : src.fill n s = (answer, s')) (log : List (Chunk ε)) :
    src.recorded.fill n (s, log) = (answer, (s', log ++ [⟨n, answer⟩])) := by
  simp only [recorded, h]

/-! ## Runs -/

/-- How much is asked for next of a content of `size` bytes. -/
def nextPiece (size : Nat) (content : Bytes) : Nat := min (size - content.length) chunkSize

/-- How a content of `size` bytes is read on when `content` is there: what is asked for and answered,
what it comes to, and the state that it leaves. -/
inductive Chunks (size : Nat) : Bytes → σ → List (Chunk ε) → Except ε Bytes → σ → Prop where
  | complete {content : Bytes} {s : σ} (whole : content.length = size) :
      Chunks size content s [] (.ok content) s
  | full {content bs : Bytes} {s s₁ s' : σ} {log : List (Chunk ε)} {result : Except ε Bytes}
      (missing : content.length < size) (fill : src.fill (nextPiece size content) s = (.ok bs, s₁))
      (all : bs.length = nextPiece size content) (rest : Chunks size (content ++ bs) s₁ log result s') :
      Chunks size content s (⟨nextPiece size content, .ok bs⟩ :: log) result s'
  | short {content bs : Bytes} {s s₁ : σ} (missing : content.length < size)
      (fill : src.fill (nextPiece size content) s = (.ok bs, s₁))
      (less : bs.length < nextPiece size content) :
      Chunks size content s [⟨nextPiece size content, .ok bs⟩]
        (.error (src.report (.truncated .content size (content.length + bs.length)))) s₁
  | failed {content : Bytes} {e : ε} {s s₁ : σ} (missing : content.length < size)
      (fill : src.fill (nextPiece size content) s = (.error e, s₁)) :
      Chunks size content s [⟨nextPiece size content, .error e⟩] (.error e) s₁

variable {src} {size : Nat} {content : Bytes} {s s' : σ} {log : List (Chunk ε)}
  {result : Except ε Bytes}

theorem nextPiece_pos (h : content.length < size) : 0 < nextPiece size content := by
  simp only [nextPiece, chunkSize]
  omega

theorem nextPiece_le (size : Nat) (content : Bytes) :
    nextPiece size content ≤ size - content.length ∧ nextPiece size content ≤ chunkSize :=
  ⟨Nat.min_le_left .., Nat.min_le_right ..⟩

variable (src) in
theorem exists_chunks (content : Bytes) (h : content.length ≤ size) (s : σ) :
    ∃ log result s', Chunks src size content s log result s' := by
  induction hleft : size - content.length using Nat.strongRecOn generalizing content s with
  | ind left ih =>
    rcases Nat.eq_or_lt_of_le h with hwhole | hmissing
    · exact ⟨_, _, _, .complete hwhole⟩
    rcases hfill : src.fill (nextPiece size content) s with ⟨e | bs, s₁⟩
    · exact ⟨_, _, _, .failed hmissing hfill⟩
    rcases Nat.eq_or_lt_of_le (src.fill_le hfill) with hall | hless
    · have hpos := nextPiece_pos hmissing
      have hle := (nextPiece_le size content).1
      have hlength : (content ++ bs).length = content.length + bs.length := List.length_append
      obtain ⟨log, result, s', hrest⟩ :=
        ih (size - (content ++ bs).length) (by omega) _ (by omega) s₁ rfl
      exact ⟨_, _, _, .full hmissing hfill hall hrest⟩
    · exact ⟨_, _, _, .short hmissing hfill hless⟩

/-- The next piece of a content that is not all there. -/
theorem readChunks_missing (h : content.length < size) (s : σ) :
    src.readChunks size (size - content.length) content s =
      match src.fill (nextPiece size content) s with
      | (.error e, s') => (.error e, s')
      | (.ok bs, s') =>
        if bs.length = nextPiece size content then
          src.readChunks size (size - (content ++ bs).length) (content ++ bs) s'
        else (.error (src.report (.truncated .content size (content.length + bs.length))), s') := by
  have hpiece : min (size - content.length) chunkSize = nextPiece size content := rfl
  have hbefore : size - (size - content.length) = content.length := by omega
  rw [readChunks, dif_neg (by omega), hbefore]
  simp only [hpiece]
  rcases src.fill (nextPiece size content) s with ⟨e | bs, s'⟩
  · rfl
  · dsimp only
    split_ifs with hall
    · rw [List.length_append, hall, Nat.sub_sub]
    · rfl

namespace Chunks

theorem readChunks_eq (h : Chunks src size content s log result s') :
    src.readChunks size (size - content.length) content s = (result, s') := by
  induction h with
  | complete whole => rw [readChunks, dif_pos (by omega)]
  | full missing fill all rest ih =>
    rw [readChunks_missing missing, fill]
    dsimp only
    rw [if_pos all, ih]
  | short missing fill less =>
    rw [readChunks_missing missing, fill]
    dsimp only
    rw [if_neg less.ne]
  | failed missing fill => rw [readChunks_missing missing, fill]

/-- Reading through the source that records goes the same way, and records the requests. -/
theorem recorded (h : Chunks src size content s log result s') (before : List (Chunk ε)) :
    Chunks src.recorded size content (s, before) log result (s', before ++ log) := by
  induction h generalizing before with
  | complete whole =>
    rw [List.append_nil]
    exact .complete whole
  | @full content bs s s₁ s' log result missing fill all rest ih =>
    have hrest := ih (before ++ [⟨nextPiece size content, .ok bs⟩])
    rw [List.append_assoc] at hrest
    exact .full missing (fill_recorded fill before) all hrest
  | short missing fill less => exact .short missing (fill_recorded fill before) less
  | failed missing fill => exact .failed missing (fill_recorded fill before)

/-! ## Requests of a run -/

theorem asked_first {r : Chunk ε} {after : List (Chunk ε)}
    (h : Chunks src size content s (r :: after) result s') :
    content.length < size ∧ r.asked = nextPiece size content := by
  cases h with
  | full missing => exact ⟨missing, rfl⟩
  | short missing => exact ⟨missing, rfl⟩
  | failed missing => exact ⟨missing, rfl⟩

/-- At each request all those before it were answered in full, and no more is asked for than is missing,
nor more than one piece. -/
theorem split {front after : List (Chunk ε)} {r : Chunk ε}
    (h : Chunks src size content s (front ++ r :: after) result s') :
    (∀ q ∈ front, q.IsFull) ∧ content.length + (delivered front).length + r.asked ≤ size
      ∧ r.asked ≤ chunkSize := by
  induction front generalizing content s with
  | nil =>
    obtain ⟨hmissing, hasked⟩ := h.asked_first
    have hle := nextPiece_le size content
    refine ⟨nofun, ?_, by omega⟩
    rw [delivered_nil, List.length_nil]
    omega
  | cons q front ih =>
    generalize hlog : q :: front ++ r :: after = log at h
    cases h with
    | complete => cases hlog
    | @full _ bs _ _ _ log _ missing fill all rest =>
      obtain ⟨rfl, rfl⟩ := List.cons.inj hlog
      obtain ⟨hfull, hsum, hpiece⟩ := ih rest
      refine ⟨List.forall_mem_cons.2 ⟨⟨bs, rfl, all⟩, hfull⟩, ?_, hpiece⟩
      rw [List.length_append] at hsum
      rw [delivered_cons, List.length_append]
      change _ + (bs.length + _) + _ ≤ _
      omega
    | short => simp at hlog
    | failed => simp at hlog

/-- What the run comes to, by what was delivered in all and the last answer. -/
theorem result_cases (h : Chunks src size content s log result s') :
    (content.length + (delivered log).length = size ∧ result = .ok (content ++ delivered log))
      ∨ content.length + (delivered log).length < size
        ∧ ∃ r : Chunk ε, log.getLast? = some r ∧ ((∃ bs, r.answer = .ok bs ∧ bs.length < r.asked
            ∧ result = .error (src.report
              (.truncated .content size (content.length + (delivered log).length))))
          ∨ ∃ e, r.answer = .error e ∧ result = .error e) := by
  induction h with
  | complete whole =>
    left
    simp [whole]
  | @full content bs s s₁ s' log result missing fill all rest ih =>
    have hbytes : content.length + (delivered (⟨nextPiece size content, .ok bs⟩ :: log)).length =
        (content ++ bs).length + (delivered log).length := by
      rw [delivered_cons, List.length_append, List.length_append, ← Nat.add_assoc]
      rfl
    rw [hbytes]
    rcases ih with ⟨hwhole, hresult⟩ | ⟨hless, r, hlast, hends⟩
    · refine .inl ⟨hwhole, ?_⟩
      rw [hresult, List.append_assoc]
      rfl
    · refine .inr ⟨hless, r, ?_, hends⟩
      rw [List.getLast?_cons, hlast]
      rfl
  | @short content bs s s₁ missing fill less =>
    have hle := (nextPiece_le size content).1
    have hbytes : delivered [(⟨nextPiece size content, .ok bs⟩ : Chunk ε)] = bs := by
      rw [delivered_cons, delivered_nil, List.append_nil]
      rfl
    rw [hbytes]
    exact .inr ⟨by omega, _, rfl, .inl ⟨bs, rfl, less, rfl⟩⟩
  | @failed content e s s₁ missing fill =>
    refine .inr ⟨?_, _, rfl, .inr ⟨e, rfl, rfl⟩⟩
    simpa [Chunk.bytes] using missing

theorem result_eq_ok_iff (h : Chunks src size [] s log result s') {bs : Bytes} :
    result = .ok bs ↔ (delivered log).length = size ∧ bs = delivered log := by
  have hcases := h.result_cases
  simp only [List.length_nil, Nat.zero_add, List.nil_append] at hcases
  rcases hcases with ⟨hwhole, rfl⟩ | ⟨hless, -, -, ⟨-, -, -, rfl⟩ | ⟨-, -, rfl⟩⟩
  · simp [hwhole, eq_comm]
  · simp [hless.ne]
  · simp [hless.ne]

theorem result_eq_error_iff (h : Chunks src size [] s log result s') {e : ε} :
    result = .error e ↔ (delivered log).length < size ∧ ∃ r : Chunk ε, log.getLast? = some r
      ∧ ((∃ bs, r.answer = .ok bs ∧ bs.length < r.asked
          ∧ e = src.report (.truncated .content size (delivered log).length))
        ∨ r.answer = .error e) := by
  have hcases := h.result_cases
  simp only [List.length_nil, Nat.zero_add, List.nil_append] at hcases
  rcases hcases with ⟨hwhole, rfl⟩ | ⟨hless, r, hlast, hends⟩
  · simp [hwhole]
  · constructor
    · rintro rfl
      refine ⟨hless, r, hlast, ?_⟩
      rcases hends with ⟨bs, hanswer, hshort, hresult⟩ | ⟨e', hanswer, hresult⟩
      · exact .inl ⟨bs, hanswer, hshort, Except.error.inj hresult⟩
      · exact .inr (hanswer.trans hresult.symm)
    · rintro ⟨-, r', hlast', hends'⟩
      obtain rfl : r = r' := Option.some.inj (hlast.symm.trans hlast')
      rcases hends with ⟨bs, hanswer, -, rfl⟩ | ⟨e', hanswer, rfl⟩
      · rcases hends' with ⟨-, -, -, rfl⟩ | hanswer'
        · rfl
        · cases hanswer.symm.trans hanswer'
      · rcases hends' with ⟨bs, hanswer', -, -⟩ | hanswer'
        · cases hanswer.symm.trans hanswer'
        · exact hanswer.symm.trans hanswer'

end Chunks

end Source

/-! ## Counting in words -/

namespace Word

/-- A number as a word, if it is one. -/
def ofNat? (n : Nat) : Option UInt64 := if n < 2 ^ 64 then some (.ofNat n) else none

/-- The sum of two words, unless it wraps around. -/
def add? (a b : UInt64) : Option UInt64 := if a.toNat + b.toNat < 2 ^ 64 then some (a + b) else none

/-- The difference of two words, unless it wraps around. -/
def sub? (a b : UInt64) : Option UInt64 := if b.toNat ≤ a.toNat then some (a - b) else none

theorem toNat_ofNat {n : Nat} (h : n < 2 ^ 64) : (UInt64.ofNat n).toNat = n := by
  rw [UInt64.toNat_ofNat']
  exact Nat.mod_eq_of_lt h

theorem add?_eq {a b c : UInt64} (h : c.toNat = a.toNat + b.toNat) : add? a b = some c := by
  have hlt : a.toNat + b.toNat < 2 ^ 64 := h ▸ c.toNat_lt
  rw [add?, if_pos hlt, Option.some.injEq, ← UInt64.toNat_inj, UInt64.toNat_add, h]
  exact Nat.mod_eq_of_lt hlt

theorem sub?_eq_some_iff {a b c : UInt64} : sub? a b = some c ↔ c.toNat + b.toNat = a.toNat := by
  unfold sub?
  split_ifs with hle
  · rw [Option.some.injEq, ← UInt64.toNat_inj, UInt64.toNat_sub_of_le _ _ hle]
    omega
  · simp only [false_iff]
    omega

theorem toNat_min (a b : UInt64) : (min a b).toNat = min a.toNat b.toNat := by
  change (if a ≤ b then a else b).toNat = _
  split_ifs with hle <;> rw [UInt64.le_iff_toNat_le] at hle <;> omega

end Word

namespace Source

variable {σ ε : Type} (src : Source σ ε)

/-- Reading content with all counts kept as words: the content that is there, where the piece that is
asked for will end, what was delivered and what remains. There is no result if one of them wraps
around. -/
def readWords (size remaining : UInt64) (content : Bytes) (s : σ) : Option (Except ε Bytes × σ) :=
  if _h : remaining = 0 then some (.ok content, s)
  else do
    let want := min remaining 65536
    let start ← Word.ofNat? content.length
    let _stop ← Word.add? start want
    match src.fill want.toNat s with
    | (.error e, s') => some (.error e, s')
    | (.ok bs, s') =>
      let count ← Word.ofNat? bs.length
      if count = want then
        match _hrest : Word.sub? remaining want with
        | none => none
        | some rest => readWords size rest (content ++ bs) s'
      else
        let before ← Word.sub? size remaining
        let actual ← Word.add? before count
        some (.error (src.report (.truncated .content size.toNat actual.toNat)), s')
termination_by remaining.toNat
decreasing_by
  have hsum := Word.sub?_eq_some_iff.1 _hrest
  have hpos : remaining.toNat ≠ 0 := fun h => _h (UInt64.toNat_inj.1 h)
  rw [Word.toNat_min] at hsum
  change rest.toNat + min remaining.toNat 65536 = remaining.toNat at hsum
  omega

variable {src} {size remaining : UInt64} {content : Bytes} {s s' : σ}

/-- The next piece of a content that is not all there: no count wraps around. -/
theorem readWords_missing (hremaining : remaining.toNat = size.toNat - content.length)
    (hmissing : content.length < size.toNat) (s : σ) :
    src.readWords size remaining content s =
      match src.fill (nextPiece size.toNat content) s with
      | (.error e, s') => some (.error e, s')
      | (.ok bs, s') =>
        if bs.length = nextPiece size.toNat content then
          src.readWords size (.ofNat (size.toNat - (content ++ bs).length)) (content ++ bs) s'
        else some (.error (src.report (.truncated .content size.toNat (content.length + bs.length))), s')
      := by
  have hsize := size.toNat_lt
  have hle := (nextPiece_le size.toNat content).1
  have hwant : (min remaining 65536).toNat = nextPiece size.toNat content := by
    rw [Word.toNat_min, hremaining]
    rfl
  have hne : remaining ≠ 0 := by
    rintro rfl
    rw [UInt64.toNat_zero] at hremaining
    omega
  have hstart : Word.ofNat? content.length = some (.ofNat content.length) := if_pos (by omega)
  have hstop : Word.add? (.ofNat content.length) (min remaining 65536) =
      some (.ofNat (content.length + nextPiece size.toNat content)) := by
    apply Word.add?_eq
    rw [Word.toNat_ofNat (by omega), Word.toNat_ofNat (by omega), hwant]
  rw [readWords, dif_neg hne]
  simp only [hstart, hstop, hwant, Option.bind_eq_bind, Option.bind_some]
  rcases hfill : src.fill (nextPiece size.toNat content) s with ⟨e | bs, s'⟩
  · rfl
  have hbs := src.fill_le hfill
  have hcount : Word.ofNat? bs.length = some (.ofNat bs.length) := if_pos (by omega)
  have hall : UInt64.ofNat bs.length = min remaining 65536 ↔
      bs.length = nextPiece size.toNat content := by
    rw [← UInt64.toNat_inj, Word.toNat_ofNat (by omega), hwant]
  simp only [hcount, Option.bind_some, hall]
  split_ifs with hfull
  · have hrest : Word.sub? remaining (min remaining 65536) =
        some (.ofNat (size.toNat - (content ++ bs).length)) := by
      rw [Word.sub?_eq_some_iff, Word.toNat_ofNat (by omega), hwant, List.length_append]
      omega
    split
    · next hnone => simp [hrest] at hnone
    · next rest hsome =>
      rw [hrest, Option.some.injEq] at hsome
      rw [hsome]
  · have hbefore : Word.sub? size remaining = some (.ofNat content.length) := by
      rw [Word.sub?_eq_some_iff, Word.toNat_ofNat (by omega)]
      omega
    have hactual : Word.add? (.ofNat content.length) (.ofNat bs.length) =
        some (.ofNat (content.length + bs.length)) := by
      apply Word.add?_eq
      rw [Word.toNat_ofNat (by omega), Word.toNat_ofNat (by omega), Word.toNat_ofNat (by omega)]
    simp only [hbefore, hactual, Option.bind_some]
    rw [Word.toNat_ofNat (by omega)]

namespace Chunks

variable {log : List (Chunk ε)} {result : Except ε Bytes}

/-- Reading with counts in words goes as described too. -/
theorem readWords_eq (h : Chunks src size.toNat content s log result s')
    (hremaining : remaining.toNat = size.toNat - content.length) :
    src.readWords size remaining content s = some (result, s') := by
  have hsize := size.toNat_lt
  generalize hn : size.toNat = n at h
  induction h generalizing remaining with
  | complete whole =>
    have hzero : remaining = 0 := by
      rw [← UInt64.toNat_inj, hremaining, UInt64.toNat_zero]
      omega
    rw [readWords, dif_pos hzero]
  | @full content bs s s₁ s' log result missing fill all rest ih =>
    subst hn
    rw [readWords_missing hremaining missing, fill]
    dsimp only
    rw [if_pos all, ih (Word.toNat_ofNat (by omega))]
  | short missing fill less =>
    subst hn
    rw [readWords_missing hremaining missing, fill]
    dsimp only
    rw [if_neg less.ne]
  | failed missing fill =>
    subst hn
    rw [readWords_missing hremaining missing, fill]

end Chunks

end Source

open Source

/-! ## Byte strings -/

/-- What a byte string delivers and what is left of it make up the byte string. -/
theorem Bytes.delivered_append_of_chunks {size : Nat} {content bs rest : Bytes}
    {log : List (Chunk FormatError)} {result : Except FormatError Bytes}
    (h : Chunks source size content bs log result rest) : delivered log ++ rest = bs := by
  have hfill : ∀ {n bs got rest}, source.fill n bs = (.ok got, rest) → got ++ rest = bs := by
    intro n bs got rest hfill
    cases hfill
    exact List.take_append_drop ..
  induction h with
  | complete whole => rfl
  | full missing fill all rest ih =>
    rw [delivered_cons, List.append_assoc, ih]
    exact hfill fill
  | short missing fill less =>
    rw [delivered_cons, delivered_nil, List.append_nil]
    exact hfill fill
  | failed missing fill => cases fill

/-! ## The whole of it -/

/-- Whatever a source answers, content of any size is read so: at each request all those before it were
answered in full, and with it no more than 65536 bytes are asked for beyond what was delivered. No count
wraps around. The content comes to what was delivered if that is the size. Else less was delivered, and
the last answer was short, which is told with the number of bytes delivered, or it was an error, which
is told as it is. A byte string gives up the content as in one read, and what is delivered with the
piece that is asked for is never more than 65536 bytes longer than the byte string. -/
theorem readContent_in_chunks {σ ε : Type} (src : Source σ ε) (size : UInt64) (s : σ) :
    (∃ (log : List (Chunk ε)) (result : Except ε Bytes) (s' : σ),
      (src.readContent size.toNat).exec s = (result, s')
        ∧ (src.recorded.readContent size.toNat).exec (s, []) = (result, (s', log))
        ∧ src.readWords size size [] s = some (result, s')
        ∧ (∀ (front after : List (Chunk ε)) (r : Chunk ε), log = front ++ r :: after →
          r.asked ≤ 65536 ∧ askedFor front + r.asked ≤ (delivered front).length + 65536
            ∧ ∀ q ∈ front, q.IsFull)
        ∧ (∀ bs, result = .ok bs ↔ (delivered log).length = size.toNat ∧ bs = delivered log)
        ∧ (∀ e, result = .error e ↔ (delivered log).length < size.toNat
          ∧ ∃ r : Chunk ε, log.getLast? = some r
            ∧ ((∃ bs, r.answer = .ok bs ∧ bs.length < r.asked
                ∧ e = src.report (.truncated .content size.toNat (delivered log).length))
              ∨ r.answer = .error e)))
      ∧ ∀ bs : Bytes, (Bytes.source.readContent size.toNat).exec bs =
          (if size.toNat ≤ bs.length then (.ok (bs.take size.toNat), bs.drop size.toNat)
          else (.error (.truncated .content size.toNat bs.length), []))
        ∧ ∀ (front after : List (Chunk FormatError)) (r : Chunk FormatError),
          ((Bytes.source.recorded.readContent size.toNat).exec (bs, [])).2.2 = front ++ r :: after →
          (delivered front).length + r.asked ≤ bs.length + 65536 := by
  constructor
  · obtain ⟨log, result, s', hrun⟩ := exists_chunks src [] (Nat.zero_le size.toNat) s
    refine ⟨log, result, s', hrun.readChunks_eq, (hrun.recorded []).readChunks_eq,
      hrun.readWords_eq rfl, ?_, fun bs => hrun.result_eq_ok_iff, fun e => hrun.result_eq_error_iff⟩
    rintro front after r rfl
    obtain ⟨hfull, -, hpiece⟩ := hrun.split
    rw [askedFor_of_full hfull]
    exact ⟨hpiece, Nat.add_le_add_left hpiece _, hfull⟩
  · intro bs
    refine ⟨Bytes.exec_readContent size.toNat bs, ?_⟩
    intro front after r hlog
    obtain ⟨log, result, rest, hrun⟩ :=
      exists_chunks Bytes.source [] (Nat.zero_le size.toNat) bs
    have hrecorded : (Bytes.source.recorded.readContent size.toNat).exec (bs, []) =
        (result, (rest, log)) := (hrun.recorded []).readChunks_eq
    rw [hrecorded] at hlog
    dsimp only at hlog
    subst hlog
    obtain ⟨-, -, hpiece⟩ := hrun.split
    have hbytes := congrArg List.length (Bytes.delivered_append_of_chunks hrun)
    rw [delivered_append, List.length_append, List.length_append] at hbytes
    simp only [chunkSize] at hpiece
    omega

/-- Of three bytes, content of the greatest size is found to be truncated after one request. -/
theorem readContent_in_chunks_greatestSize :
    let size : UInt64 := 0xFFFFFFFFFFFFFFFF
    let truncated : Except FormatError Bytes := .error (.truncated .content size.toNat 3)
    (Bytes.source.readContent size.toNat).exec [1, 2, 3] = (truncated, [])
      ∧ (Bytes.source.recorded.readContent size.toNat).exec ([1, 2, 3], []) =
        (truncated, ([], [⟨65536, .ok [1, 2, 3]⟩]))
      ∧ Bytes.source.readWords size size [] [1, 2, 3] = some (truncated, [])
      ∧ (delivered ([] : List (Chunk FormatError))).length + 65536 ≤ [1, 2, 3].length + 65536 := by
  intro size truncated
  obtain ⟨⟨log, result, s', hread, -, hwords, -⟩, hbytes⟩ :=
    readContent_in_chunks Bytes.source size [1, 2, 3]
  obtain ⟨hexec, hroom⟩ := hbytes [1, 2, 3]
  rw [if_neg (by decide)] at hexec
  have hrecorded : (Bytes.source.recorded.readContent size.toNat).exec ([1, 2, 3], []) =
      (truncated, ([], [⟨65536, .ok [1, 2, 3]⟩])) := by
    have hpiece : nextPiece size.toNat [] = 65536 := by decide
    have hrun : Chunks Bytes.source size.toNat [] [1, 2, 3]
        [⟨nextPiece size.toNat [], .ok [1, 2, 3]⟩] truncated [] :=
      .short (by decide) (by rw [hpiece]; rfl) (by decide)
    rw [hpiece] at hrun
    exact (hrun.recorded []).readChunks_eq
  obtain ⟨rfl, rfl⟩ := Prod.mk.inj (hread.symm.trans hexec)
  refine ⟨hexec, hrecorded, hwords, hroom [] [] ⟨65536, .ok [1, 2, 3]⟩ ?_⟩
  rw [hrecorded]
  rfl

end FlatArchive
