-- SUMMARY: Streams that deliver a byte string, however they cut it, are read like the byte string itself.
import FlatArchive.Stream.OpenFile
import FlatArchive.Stream.Script

/-!
# Delivery

A stream delivers a byte string if its reads hand it out from front to back: in pieces of any size,
with interruptions in between, never failing, and giving nothing only at the end. Then every read
of the image format does on the stream what it does on the byte string in memory, and it leaves the
stream with the rest still to deliver, after a failed read as well.

The argument goes through `Attempt.Follows`: an attempt on one state follows an attempt on another
if both come to the same result from states that a relation holds of, and it holds again after. To
follow is kept by sequencing, so it is enough to show it of the one operation that sources have.
-/

namespace FlatArchive

/-! ## Following -/

namespace Attempt

variable {σ τ ε ε' α β : Type}

theorem exec_map (g : α → β) (x : Attempt σ ε α) (s : σ) :
    (g <$> x).exec s = ((x.exec s).1.map g, (x.exec s).2) := by
  rw [map_eq_pure_bind, exec_bind]
  rcases x.exec s with ⟨_ | a, s'⟩ <;> rfl

/-- From states that `R` relates, `x` and `y` come to the same result, the errors of `y` translated
by `f`, and to states that `R` relates. -/
def Follows (R : σ → τ → Prop) (f : ε → ε') (x : Attempt σ ε' α) (y : Attempt τ ε α) : Prop :=
  ∀ s t, R s t → (x.exec s).1 = (y.exec t).1.mapError f ∧ R (x.exec s).2 (y.exec t).2

namespace Follows

variable {R : σ → τ → Prop} {f : ε → ε'}

theorem pure (a : α) : Follows R f (Pure.pure a) (Pure.pure a) :=
  fun _ _ hR => ⟨rfl, hR⟩

theorem throw (e : ε) : Follows R f (throw (f e) : Attempt σ ε' α) (throw e) :=
  fun _ _ hR => ⟨rfl, hR⟩

theorem bind {x : Attempt σ ε' α} {y : Attempt τ ε α} {g : α → Attempt σ ε' β}
    {h : α → Attempt τ ε β} (hxy : Follows R f x y) (hgh : ∀ a, Follows R f (g a) (h a)) :
    Follows R f (x >>= g) (y >>= h) := by
  intro s t hR
  obtain ⟨hres, hR'⟩ := hxy s t hR
  rw [exec_bind, exec_bind]
  rcases hx : x.exec s with ⟨rx, s'⟩
  rcases hy : y.exec t with ⟨ry, t'⟩
  rw [hx, hy] at hres hR'
  cases ry with
  | error e =>
    cases hres
    exact ⟨rfl, hR'⟩
  | ok a =>
    cases hres
    exact hgh a s' t' hR'

theorem map {x : Attempt σ ε' α} {y : Attempt τ ε α} (g : α → β) (hxy : Follows R f x y) :
    Follows R f (g <$> x) (g <$> y) := by
  simp only [map_eq_pure_bind]
  exact hxy.bind fun a => pure (g a)

end Follows

end Attempt

/-! ## Sources that follow a byte string -/

namespace Source

open Attempt

variable {σ ε : Type} {src : Source σ ε} {R : σ → Bytes → Prop}

/-- What is filled from a source is the front of the byte string that `R` gives it. -/
def Reads (src : Source σ ε) (R : σ → Bytes → Prop) : Prop :=
  ∀ n, Follows R src.report (src.take n) (Bytes.source.take n)

theorem follows_fail {α : Type} (e : FormatError) :
    Follows R src.report (src.fail e : Attempt σ ε α) (Bytes.source.fail e) :=
  Follows.throw e

theorem follows_readField (h : src.Reads R) (field : Field) (n : Nat) :
    Follows R src.report (src.readField field n) (Bytes.source.readField field n) := by
  refine (h n).bind fun bs => ?_
  split
  · exact Follows.pure _
  · exact follows_fail _

theorem follows_readHeader (h : src.Reads R) :
    Follows R src.report src.readHeader Bytes.source.readHeader :=
  (follows_readField h .header 1).bind fun _ => Follows.pure _

theorem follows_readHead (h : src.Reads R) :
    Follows R src.report src.readHead Bytes.source.readHead :=
  (follows_readField h .size _).bind fun _ =>
    (follows_readField h .name _).bind fun _ => Follows.pure _

theorem follows_readChunks (h : src.Reads R) (size remaining : Nat) (content : Bytes) :
    Follows R src.report (ofFn (src.readChunks size remaining content))
      (ofFn (Bytes.source.readChunks size remaining content)) := by
  intro s bs hR
  simp only [exec_ofFn]
  -- The induction is on what remains of the content, for the last chunk may be a short one.
  induction remaining using Nat.strongRecOn generalizing content s bs with
  | ind remaining ih =>
    rw [readChunks, readChunks]
    by_cases hrem : remaining = 0
    · simp only [hrem, dif_pos]
      exact ⟨rfl, hR⟩
    simp only [hrem, dif_neg, not_false_eq_true]
    obtain ⟨hres, hR'⟩ := h (min remaining chunkSize) s bs hR
    simp only [exec_take] at hres hR'
    rcases hx : src.fill (min remaining chunkSize) s with ⟨rx, s'⟩
    rcases hy : Bytes.source.fill (min remaining chunkSize) bs with ⟨ry, bs'⟩
    rw [hx, hy] at hres hR'
    cases ry with
    | error e =>
      cases hres
      exact ⟨rfl, hR'⟩
    | ok got =>
      cases hres
      dsimp only
      split
      · have hlt : remaining - min remaining chunkSize < remaining := by
          simp only [chunkSize]
          omega
        exact ih _ hlt _ _ _ hR'
      · exact ⟨rfl, hR'⟩

theorem follows_readEntry (h : src.Reads R) :
    Follows R src.report src.readEntry Bytes.source.readEntry := by
  refine (follows_readHead h).bind fun head => ?_
  cases head.name with
  | error e => exact follows_fail e
  | ok name => exact (follows_readChunks h _ _ _).bind fun _ => Follows.pure _

end Source

/-! ## Streams that deliver -/

namespace Stream

variable {σ : Type}

/-- `rest` says truly of each state what is still to come from it: reads hand out its front, give
nothing only at its end, and never fail. -/
structure Honest (st : Stream σ) (rest : σ → Bytes → Prop) : Prop where
  bytes : ∀ {s n bs got s'}, rest s bs → st.read s n = (.bytes got, s') →
    ∃ tail, bs = got ++ tail ∧ rest s' tail
  nothing : ∀ {s n bs s'}, rest s bs → st.read s n = (.bytes [], s') → n = 0 ∨ bs = []
  interrupted : ∀ {s n bs s'}, rest s bs → st.read s n = (.interrupted, s') → rest s' bs
  not_failed : ∀ {s n bs e s'}, rest s bs → st.read s n ≠ (.failed e, s')

/-- From `s` on the stream delivers `bs` and then ends. -/
def Delivers (st : Stream σ) (s : σ) (bs : Bytes) : Prop := ∃ rest, st.Honest rest ∧ rest s bs

variable {st : Stream σ}

theorem Honest.delivers {rest : σ → Bytes → Prop} (h : st.Honest rest) {s : σ} {bs : Bytes}
    (hs : rest s bs) : st.Delivers s bs := ⟨rest, h, hs⟩

theorem honest_delivers (st : Stream σ) : st.Honest st.Delivers where
  bytes := by
    rintro s n bs got s' ⟨rest, h, hs⟩ hread
    obtain ⟨tail, rfl, hs'⟩ := h.bytes hs hread
    exact ⟨tail, rfl, h.delivers hs'⟩
  nothing := fun ⟨_, h, hs⟩ hread => h.nothing hs hread
  interrupted := fun ⟨_, h, hs⟩ hread => h.delivers (h.interrupted hs hread)
  not_failed := fun ⟨_, h, hs⟩ => h.not_failed hs

variable {rest : σ → Bytes → Prop}

theorem Honest.fillAfter (hst : st.Honest rest) {s : σ} {bs : Bytes} (h : rest s bs)
    (got : Array UInt8) (n : Nat) :
    ∃ s', st.fillAfter got n s = (.ok (got.toList ++ bs.take n), s') ∧ rest s' (bs.drop n) := by
  fun_induction Stream.fillAfter st got n s generalizing bs with
  | case1 got s => exact ⟨s, by simp, by simpa using h⟩
  | case2 got n s hn s' hread =>
    have hnil : bs = [] := (hst.nothing h hread).resolve_left hn
    obtain ⟨tail, htail, hs'⟩ := hst.bytes h hread
    rw [hnil] at htail ⊢
    cases htail
    exact ⟨s', by simp, by simpa using hs'⟩
  | case3 got n s hn b piece s' hread ih =>
    obtain ⟨tail, rfl, hs'⟩ := hst.bytes h hread
    have hle : (b :: piece).length ≤ n := st.read_le hread
    obtain ⟨s'', hfill, hs''⟩ := ih hs'
    refine ⟨s'', ?_, ?_⟩
    · rw [hfill, List.take_append, List.take_of_length_le hle]
      simp
    · rw [List.drop_append, List.drop_of_length_le hle]
      simpa using hs''
  | case4 got n s hn s' hread ih => exact ih (hst.interrupted h hread)
  | case5 got n s hn e s' hread => exact absurd hread (hst.not_failed h)

/-- A stream is a source that reads what it honestly has to come. -/
theorem Honest.reads (hst : st.Honest rest) : st.source.Reads rest := by
  intro n s bs h
  obtain ⟨s', hfill, hs'⟩ := hst.fillAfter h #[] n
  have hexec : (st.source.take n).exec s = (.ok (bs.take n), s') := hfill
  rw [hexec]
  exact ⟨rfl, hs'⟩

theorem Honest.drainAfter (hst : st.Honest rest) {s : σ} {bs : Bytes} (h : rest s bs)
    (count : Nat) :
    ∃ s', st.drainAfter count s = (.ok (count + bs.length), s') ∧ rest s' [] := by
  fun_induction Stream.drainAfter st count s generalizing bs with
  | case1 count s s' hread =>
    have hnil : bs = [] := (hst.nothing h hread).resolve_left (by decide)
    obtain ⟨tail, htail, hs'⟩ := hst.bytes h hread
    rw [hnil] at htail ⊢
    cases htail
    exact ⟨s', rfl, hs'⟩
  | case2 count s b piece s' hread ih =>
    obtain ⟨tail, rfl, hs'⟩ := hst.bytes h hread
    obtain ⟨s'', hdrain, hs''⟩ := ih hs'
    refine ⟨s'', ?_, hs''⟩
    rw [hdrain, List.length_append, List.length_cons]
    congr 2
    omega
  | case3 count s s' hread ih => exact ih (hst.interrupted h hread)
  | case4 count s e s' hread => exact absurd hread (hst.not_failed h)

theorem Honest.drain (hst : st.Honest rest) {s : σ} {bs : Bytes} (h : rest s bs) :
    ∃ s', st.drain.exec s = (.ok bs.length, s') ∧ rest s' [] := by
  obtain ⟨s', hdrain, hs'⟩ := hst.drainAfter h 0
  exact ⟨s', by simpa [Stream.drain] using hdrain, hs'⟩

end Stream

/-! ## Scripts and files -/

namespace Script

/-- The script has nothing but bytes and interruptions. -/
def IsSteady (s : Script) : Prop := ∀ item ∈ s, item = .interrupted ∨ ∃ bs, item = .bytes bs

/-- All bytes of a script in order. -/
def text (s : Script) : Bytes := s.flatMap fun
  | .bytes bs => bs
  | _ => []

@[simp] theorem text_nil : text [] = [] := rfl

@[simp] theorem text_bytes (bs : Bytes) (s : Script) : text (.bytes bs :: s) = bs ++ text s := rfl

@[simp] theorem text_interrupted (s : Script) : text (.interrupted :: s) = text s := rfl

theorem IsSteady.tail {item : ScriptItem} {s : Script} (h : IsSteady (item :: s)) : IsSteady s :=
  fun item' hmem => h item' (List.mem_cons_of_mem _ hmem)

theorem IsSteady.bytes {bs : Bytes} {s : Script} (h : IsSteady s) : IsSteady (.bytes bs :: s) := by
  intro item hmem
  rcases List.mem_cons.1 hmem with rfl | hmem
  · exact .inr ⟨bs, rfl⟩
  · exact h item hmem

/-- What one read does to a script of bytes and interruptions. -/
theorem isSteady_read {s : Script} (h : IsSteady s) (n : Nat) :
    IsSteady (read s n).2 ∧
      ((read s n).1 = .interrupted ∧ text (read s n).2 = text s ∨
        ∃ got, (read s n).1 = .bytes got ∧ text s = got ++ text (read s n).2 ∧
          (got = [] → n = 0 ∨ text s = [])) := by
  fun_induction read s n with
  | case1 n => exact ⟨h, .inr ⟨[], rfl, rfl, fun _ => .inr rfl⟩⟩
  | case2 rest n ih => exact ih h.tail
  | case3 b bs rest n =>
    refine ⟨h.tail.bytes, .inr ⟨_, rfl, ?_, ?_⟩⟩
    · rw [text_bytes, text_bytes, ← List.append_assoc, List.take_append_drop]
    · intro hgot
      left
      simpa using hgot
  | case4 rest n => exact ⟨h.tail, .inl ⟨rfl, rfl⟩⟩
  | case5 rest n => rcases h _ List.mem_cons_self with hitem | ⟨bs, hitem⟩ <;> cases hitem
  | case6 e rest n => rcases h _ List.mem_cons_self with hitem | ⟨bs, hitem⟩ <;> cases hitem

/-- What the answer to a read says of the script before and after it. -/
theorem IsSteady.of_read {s s' : Script} {n : Nat} {answer : Delivery} (h : IsSteady s)
    (hread : stream.read s n = (answer, s')) :
    IsSteady s' ∧
      (answer = .interrupted ∧ text s' = text s ∨
        ∃ got, answer = .bytes got ∧ text s = got ++ text s' ∧
          (got = [] → n = 0 ∨ text s = [])) := by
  have hstep := isSteady_read h n
  rwa [show read s n = (answer, s') from hread] at hstep

/-- A script of bytes and interruptions delivers its bytes. -/
theorem delivers {s : Script} (h : IsSteady s) : stream.Delivers s (text s) := by
  refine ⟨fun s bs => IsSteady s ∧ bs = text s, ?_, h, rfl⟩
  constructor
  case bytes =>
    rintro s n _ got s' ⟨hs, rfl⟩ hread
    obtain ⟨hs', hint | ⟨got', hgot, htext, -⟩⟩ := hs.of_read hread
    · cases hint.1
    · cases hgot
      exact ⟨_, htext, hs', rfl⟩
  case nothing =>
    rintro s n _ s' ⟨hs, rfl⟩ hread
    obtain ⟨-, hint | ⟨got', hgot, -, hend⟩⟩ := hs.of_read hread
    · cases hint.1
    · cases hgot
      exact hend rfl
  case interrupted =>
    rintro s n _ s' ⟨hs, rfl⟩ hread
    obtain ⟨hs', hint | ⟨got', hgot, -⟩⟩ := hs.of_read hread
    · exact ⟨hs', hint.2.symm⟩
    · cases hgot
  case not_failed =>
    rintro s n _ e s' ⟨hs, rfl⟩ hread
    obtain ⟨-, hint | ⟨got', hgot, -⟩⟩ := hs.of_read hread
    · cases hint.1
    · cases hgot

end Script

namespace OpenFile

/-- What an open file has yet to give. -/
def text (fs : FileSystem) (f : OpenFile) : Bytes := (fs.content f.node).drop f.offset

theorem text_read (fs : FileSystem) (f : OpenFile) (n : Nat) :
    f.text fs = (f.read fs n).1 ++ (f.read fs n).2.text fs := by
  simp only [text, read]
  rw [← List.drop_drop]
  generalize (fs.content f.node).drop f.offset = bs
  rcases Nat.le_total n bs.length with hn | hn
  · rw [List.length_take_of_le hn, List.take_append_drop]
  · rw [List.take_of_length_le hn]
    simp

theorem eq_nil_of_read_nil {fs : FileSystem} {f : OpenFile} {n : Nat}
    (h : (f.read fs n).1 = []) : n = 0 ∨ f.text fs = [] := List.take_eq_nil_iff.1 h

end OpenFile

namespace BufferedFile

/-- What a buffered file has yet to give: its buffer, and what follows the offset of the file. -/
def text (fs : FileSystem) (b : BufferedFile) : Bytes := b.buffer ++ b.file.text fs

theorem text_read (fs : FileSystem) (b : BufferedFile) (n : Nat) :
    b.text fs = (b.read fs n).1 ++ (b.read fs n).2.text fs := by
  unfold read
  split
  · next h =>
    have hempty : b.buffer = [] := by simp_all
    simpa [text, hempty] using OpenFile.text_read fs b.file n
  · split
    · next h =>
      have hempty : b.buffer = [] := by simpa using h
      simp only [text, hempty, List.nil_append]
      rw [← List.append_assoc, List.take_append_drop]
      exact OpenFile.text_read fs b.file capacity
    · simp [text, ← List.append_assoc, List.take_append_drop]

theorem eq_nil_of_read_nil {fs : FileSystem} {b : BufferedFile} {n : Nat}
    (h : (b.read fs n).1 = []) : n = 0 ∨ b.text fs = [] := by
  unfold read at h
  split at h
  · next hbuffer =>
    have hempty : b.buffer = [] := by simp_all
    simpa [text, hempty] using OpenFile.eq_nil_of_read_nil h
  · split at h
    · next hbuffer =>
      have hempty : b.buffer = [] := by simpa using hbuffer
      rcases List.take_eq_nil_iff.1 h with hn | hahead
      · exact .inl hn
      · right
        simpa [text, hempty, capacity] using OpenFile.eq_nil_of_read_nil hahead
    · next hbuffer =>
      left
      rcases List.take_eq_nil_iff.1 h with hn | hnil
      · exact hn
      · simp [hnil] at hbuffer

/-- A read stays in the file that is open. -/
theorem node_read (fs : FileSystem) (b : BufferedFile) (n : Nat) :
    (b.read fs n).2.file.node = b.file.node := by
  unfold read
  split
  · rfl
  · split <;> rfl

/-- The buffered file is open on node `i`, with `bs` to come. -/
def Holds (fs : FileSystem) (i : NodeId) (b : BufferedFile) (bs : Bytes) : Prop :=
  b.file.node = i ∧ b.text fs = bs

theorem holds_ofNode (fs : FileSystem) (i : NodeId) : Holds fs i (ofNode i) (fs.content i) :=
  ⟨rfl, rfl⟩

/-- What is to come depends on nothing in the file system but the content of the node. -/
theorem Holds.of_content_eq {fs fs' : FileSystem} {i : NodeId} {b : BufferedFile} {bs : Bytes}
    (h : Holds fs i b bs) (hcontent : fs'.content i = fs.content i) : Holds fs' i b bs := by
  obtain ⟨rfl, rfl⟩ := h
  exact ⟨rfl, by rw [text, text, OpenFile.text, OpenFile.text, hcontent]⟩

theorem honest_holds (fs : FileSystem) (i : NodeId) : (stream fs).Honest (Holds fs i) where
  bytes := by
    rintro b n _ got b' ⟨rfl, rfl⟩ hread
    cases hread
    exact ⟨_, text_read fs b n, node_read fs b n, rfl⟩
  nothing := by
    rintro b n _ b' ⟨rfl, rfl⟩ hread
    have hnil : (b.read fs n).1 = [] := Delivery.bytes.inj (congrArg Prod.fst hread)
    exact eq_nil_of_read_nil hnil
  interrupted := by
    intro b n bs b' _ hread
    simp [stream, Stream.ofRead] at hread
  not_failed := by
    intro b n bs e b' _ hread
    simp [stream, Stream.ofRead] at hread

end BufferedFile

end FlatArchive
