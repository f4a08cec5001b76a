-- SUMMARY: What is copied of a stream that has more or less than was announced, and the record that it leaves.
import FlatArchive.Proofs.Blame
import FlatArchive.Proofs.WrittenNames
import FlatArchive.Stream.Script

/-!
# Copies of a given size

The head of an entry is written before the content is read, and only the loop that copies the content
keeps the entries behind it in place: it takes no more from the stream than the head says, and it counts
what it got. So of a file that has grown the front is copied, and a file that has shrunk is an error,
never a shorter entry. What was opened may also be a directory, which has a size but cannot be read.

A run of the loop is told step by step (`Sink.Copies`). What holds of it is proved by induction on the
run: how much it takes, what it takes of a stream that supplies given bytes, and how that depends on the
lengths that a file has meanwhile.
-/

namespace FlatArchive

open Attempt FileSystem

variable {σ τ : Type}

/-! ## What a stream hands out -/

/-- The bytes that an answer hands out. -/
def Delivery.part : Delivery → Bytes
  | .bytes bs => bs
  | .interrupted | .failed _ => []

namespace Stream

/-- The stream that also records what it has handed out so far. -/
def recorded (st : Stream σ) : Stream (σ × Bytes) where
  read u n := ((st.read u.1 n).1, (st.read u.1 n).2, u.2 ++ (st.read u.1 n).1.part)
  left u := st.left u.1
  read_le h := st.read_le (Prod.ext (Prod.mk.inj h).1 rfl)
  left_of_bytes h := by
    obtain ⟨hanswer, rfl⟩ := Prod.mk.inj h
    exact st.left_of_bytes (Prod.ext hanswer rfl)
  left_of_interrupted h := by
    obtain ⟨hanswer, rfl⟩ := Prod.mk.inj h
    exact st.left_of_interrupted (Prod.ext hanswer rfl)

theorem read_recorded {st : Stream σ} {s s' : σ} {n : Nat} {a : Delivery}
    (h : st.read s n = (a, s')) (taken : Bytes) :
    st.recorded.read (s, taken) n = (a, (s', taken ++ a.part)) := by
  simp only [recorded, h]

end Stream

namespace Sink

variable {sink : Sink τ} {t u v : τ}

/-! ## Sinks that do not fail -/

/-- No write fails or accepts nothing, whatever was written before. -/
def NeverFails (sink : Sink τ) (t : τ) : Prop := ∀ cause u, ¬ sink.FailedWith t cause u

theorem NeverFails.of_reaches (h : sink.NeverFails t) (hreach : sink.Reaches t u) :
    sink.NeverFails u := fun cause v hfailed => h cause v (hfailed.of_reaches hreach)

theorem NeverFails.put_ne_error (h : sink.NeverFails t) {bs : Bytes} {e : IoError} :
    sink.put bs t ≠ (.error e, u) :=
  fun hput => h e u ((Reaches.put .refl hput).2 e rfl)

theorem NeverFails.put (h : sink.NeverFails t) (bs : Bytes) : ∃ t', sink.put bs t = (.ok (), t') := by
  rcases hput : sink.put bs t with ⟨e | ⟨⟩, t'⟩
  · exact absurd hput h.put_ne_error
  · exact ⟨t', rfl⟩

theorem Collects.neverFails {P : Bytes → τ → Prop} (h : sink.Collects P fun _ => False)
    {held : Bytes} (hP : P held t) : sink.NeverFails t := by
  have hreached : ∀ {u}, sink.Reaches t u → ∃ held, P held u := by
    intro u hreach
    induction hreach with
    | refl => exact ⟨held, hP⟩
    | @write u bs _ ih =>
      obtain ⟨held, hP⟩ := ih
      rcases hwrite : sink.write u bs with ⟨n | - | e, u'⟩
      · exact ⟨_, h.accepted hP hwrite⟩
      · exact ⟨_, h.interrupted hP hwrite⟩
      · exact (h.failed hP hwrite).2.elim
  intro cause u hfailed
  cases hfailed with
  | failed reached write =>
    obtain ⟨held, hP⟩ := hreached reached
    exact (h.failed hP write).2
  | nothing reached ne write =>
    obtain ⟨held, hP⟩ := hreached reached
    exact h.nothing hP ne write

/-- The sink that records puts the same, and what is put it has recorded. -/
theorem put_recorded {bs : Bytes} {r : Except IoError Unit} (h : sink.put bs t = (r, u))
    (held : Bytes) : ∃ held', sink.recorded.put bs (t, held) = (r, (u, held'))
      ∧ (r = .ok () → held' = held ++ bs) := by
  have hstart : (t, held).1 = t := rfl
  rcases hput : sink.recorded.put bs (t, held) with ⟨r', u', held'⟩
  obtain ⟨u'', hsame, rfl⟩ := (Follows.put sink.follows_recorded bs).exec_eq hstart hput
  cases hsame.symm.trans h
  refine ⟨held', rfl, ?_⟩
  rintro rfl
  exact ((sink.collects_recorded t).put_eq_ok ⟨rfl, .refl⟩ hput).1

/-! ## Runs of the copying loop -/

/-- How a run copies at most `size` bytes: what it takes from the stream, the failure that ends it if one
does, and the states that it leaves. -/
inductive Copies (sink : Sink τ) (st : τ → Stream σ) (piece : Nat) :
    Nat → σ → τ → Bytes → Option IoError → σ → τ → Prop where
  | full {s : σ} {t : τ} : Copies sink st piece 0 s t [] none s t
  | ended {size : Nat} {s s' : σ} {t : τ} (missing : size ≠ 0)
      (read : (st t).read s (min piece size) = (.bytes [], s')) :
      Copies sink st piece size s t [] none s' t
  | piece {size : Nat} {s s₁ s' : σ} {t t₁ t' : τ} {b : UInt8} {bs got : Bytes}
      {fault : Option IoError} (missing : size ≠ 0)
      (read : (st t).read s (min piece size) = (.bytes (b :: bs), s₁))
      (put : sink.put (b :: bs) t = (.ok (), t₁))
      (rest : Copies sink st piece (size - (bs.length + 1)) s₁ t₁ got fault s' t') :
      Copies sink st piece size s t (b :: bs ++ got) fault s' t'
  | interrupted {size : Nat} {s s₁ s' : σ} {t t' : τ} {got : Bytes} {fault : Option IoError}
      (missing : size ≠ 0) (read : (st t).read s (min piece size) = (.interrupted, s₁))
      (rest : Copies sink st piece size s₁ t got fault s' t') :
      Copies sink st piece size s t got fault s' t'
  | unread {size : Nat} {s s' : σ} {t : τ} {e : IoError} (missing : size ≠ 0)
      (read : (st t).read s (min piece size) = (.failed e, s')) :
      Copies sink st piece size s t [] (some e) s' t
  | unwritten {size : Nat} {s s' : σ} {t t' : τ} {b : UInt8} {bs : Bytes} {e : IoError}
      (missing : size ≠ 0) (read : (st t).read s (min piece size) = (.bytes (b :: bs), s'))
      (put : sink.put (b :: bs) t = (.error e, t')) :
      Copies sink st piece size s t (b :: bs) (some e) s' t'

/-- What a run comes to that took `got` after `count` bytes. -/
def copied (count : Nat) (got : Bytes) : Option IoError → Except IoError Nat
  | none => .ok (count + got.length)
  | some e => .error e

theorem exists_copies (sink : Sink τ) (st : τ → Stream σ) (piece size : Nat) (s : σ) (t : τ) :
    ∃ got fault s' t', sink.Copies st piece size s t got fault s' t' := by
  obtain ⟨count⟩ : Nonempty Nat := ⟨0⟩
  fun_induction sink.copyAfter st piece count size s t with
  | case1 => exact ⟨_, _, _, _, .full⟩
  | case2 count size s t missing s' read => exact ⟨_, _, _, _, .ended missing read⟩
  | case3 count size s t missing b bs s' read e t' put =>
    exact ⟨_, _, _, _, .unwritten missing read put⟩
  | case4 count size s t missing b bs s₁ read t₁ put ih =>
    obtain ⟨got, fault, s', t', rest⟩ := ih
    exact ⟨_, _, _, _, .piece missing read put rest⟩
  | case5 count size s t missing s₁ read ih =>
    obtain ⟨got, fault, s', t', rest⟩ := ih
    exact ⟨_, _, _, _, .interrupted missing read rest⟩
  | case6 count size s t missing e s' read => exact ⟨_, _, _, _, .unread missing read⟩

namespace Copies

variable {st : τ → Stream σ} {piece size : Nat} {s s' : σ} {t' : τ} {got : Bytes}
  {fault : Option IoError}

theorem copyAfter_eq (h : sink.Copies st piece size s t got fault s' t') (count : Nat) :
    sink.copyAfter st piece count size s t = (copied count got fault, s', t') := by
  induction h generalizing count with
  | full =>
    rw [copyAfter, dif_pos rfl]
    rfl
  | ended missing read =>
    rw [copyAfter_of_ne _ _ _ _ missing, read]
    rfl
  | @piece size s s₁ s' t t₁ t' b bs got fault missing read put rest ih =>
    rw [copyAfter_of_ne _ _ _ _ missing, read]
    dsimp only
    rw [put]
    dsimp only
    rw [ih]
    cases fault with
    | none => rw [copied, copied, List.length_append, List.length_cons, Nat.add_assoc]
    | some e => rfl
  | interrupted missing read rest ih =>
    rw [copyAfter_of_ne _ _ _ _ missing, read]
    exact ih count
  | unread missing read =>
    rw [copyAfter_of_ne _ _ _ _ missing, read]
    rfl
  | unwritten missing read put =>
    rw [copyAfter_of_ne _ _ _ _ missing, read]
    dsimp only
    rw [put]
    rfl

theorem length_le (h : sink.Copies st piece size s t got fault s' t') : got.length ≤ size := by
  induction h with
  | full => exact Nat.le_refl 0
  | ended | unread => exact Nat.zero_le _
  | @piece size s s₁ s' t t₁ t' b bs got fault missing read put rest ih =>
    have hread := Stream.read_le _ read
    rw [List.length_append]
    simp only [List.length_cons] at hread ⊢
    omega
  | interrupted missing read rest ih => exact ih
  | unwritten missing read put => exact Nat.le_trans (Stream.read_le _ read) (Nat.min_le_right ..)

/-- The run on the stream that records: what it hands out is what the run takes. -/
theorem recorded_stream (h : sink.Copies st piece size s t got fault s' t') (taken : Bytes) :
    sink.Copies (fun t => (st t).recorded) piece size (s, taken) t got fault (s', taken ++ got) t' := by
  induction h generalizing taken with
  | full =>
    rw [List.append_nil]
    exact .full
  | ended missing read => exact .ended missing (Stream.read_recorded read taken)
  | @piece size s s₁ s' t t₁ t' b bs got fault missing read put rest ih =>
    have hrest := ih (taken ++ b :: bs)
    rw [List.append_assoc] at hrest
    exact .piece missing (Stream.read_recorded read taken) put hrest
  | interrupted missing read rest ih =>
    have hread := Stream.read_recorded read taken
    rw [Delivery.part, List.append_nil] at hread
    exact .interrupted missing hread (ih taken)
  | unread missing read => exact .unread missing (Stream.read_recorded read taken)
  | unwritten missing read put => exact .unwritten missing (Stream.read_recorded read taken) put

/-- The run on the sink that records: it accepts what the run takes, unless the sink fails. -/
theorem recorded_sink (h : sink.Copies st piece size s t got fault s' t') (held : Bytes) :
    ∃ held', (fault = none ∨ sink.NeverFails t → held' = held ++ got)
      ∧ sink.recorded.Copies (st ∘ Prod.fst) piece size s (t, held) got fault s' (t', held') := by
  induction h generalizing held with
  | full => exact ⟨held, fun _ => (List.append_nil held).symm, .full⟩
  | ended missing read => exact ⟨held, fun _ => (List.append_nil held).symm, .ended missing read⟩
  | @piece size s s₁ s' t t₁ t' b bs got fault missing read put rest ih =>
    obtain ⟨held₁, hput, hheld₁⟩ := put_recorded put held
    obtain ⟨held', hheld', hrest⟩ := ih held₁
    refine ⟨held', fun hgood => ?_, .piece missing read hput hrest⟩
    have hgood₁ := hgood.imp_right fun hsink => hsink.of_reaches (Reaches.put .refl put).1
    rw [hheld' hgood₁, hheld₁ rfl, List.append_assoc]
  | interrupted missing read rest ih =>
    obtain ⟨held', hheld', hrest⟩ := ih held
    exact ⟨held', hheld', .interrupted missing read hrest⟩
  | unread missing read => exact ⟨held, fun _ => (List.append_nil held).symm, .unread missing read⟩
  | unwritten missing read put =>
    obtain ⟨held', hput, -⟩ := put_recorded put held
    refine ⟨held', ?_, .unwritten missing read hput⟩
    rintro (hnone | hsink)
    · cases hnone
    · exact absurd put hsink.put_ne_error

end Copies

/-! ## Streams that supply given bytes -/

/-- `rest` says of the states that copying comes to what the stream still gives before it first gives
nothing. What it does afterwards is not told. -/
structure Supplies (sink : Sink τ) (st : τ → Stream σ) (rest : σ → τ → Bytes → Prop) : Prop where
  bytes : ∀ {s t n bs b got s'}, rest s t bs → (st t).read s n = (.bytes (b :: got), s') →
    ∃ tail, bs = b :: got ++ tail ∧ ∀ t', sink.put (b :: got) t = (.ok (), t') → rest s' t' tail
  nothing : ∀ {s t n bs s'}, rest s t bs → 0 < n → (st t).read s n = (.bytes [], s') → bs = []
  interrupted : ∀ {s t n bs s'}, rest s t bs → (st t).read s n = (.interrupted, s') → rest s' t bs
  not_failed : ∀ {s t n bs e s'}, rest s t bs → (st t).read s n ≠ (.failed e, s')

end Sink

/-- A stream that the sink has no part in. -/
theorem Stream.Honest.supplies {st : Stream σ} {rest : σ → Bytes → Prop} (h : st.Honest rest)
    (sink : Sink τ) : sink.Supplies (fun _ => st) fun s _ bs => rest s bs where
  bytes hrest hread := by
    obtain ⟨tail, hbs, hrest'⟩ := h.bytes hrest hread
    exact ⟨tail, hbs, fun _ _ => hrest'⟩
  nothing hrest hpos hread := (h.nothing hrest hread).resolve_left hpos.ne'
  interrupted hrest hread := h.interrupted hrest hread
  not_failed hrest := h.not_failed hrest

/-- A file that keeps its content while it is copied. -/
theorem OpenFile.supplies (sink : Sink τ) (files : τ → FileSystem) (content : Bytes) :
    sink.Supplies (OpenFile.stream ∘ files) fun f t bs =>
      (∀ u, sink.Reaches t u → (files u).node? f.node = some (.file content))
        ∧ bs = content.drop f.offset where
  bytes := by
    rintro f t n _ b got f' ⟨hkept, rfl⟩ hread
    obtain ⟨hpart, rfl⟩ := OpenFile.eq_of_read_bytes hread
    rw [FileSystem.content, hkept t .refl] at hpart
    have hfront : b :: got <+: content.drop f.offset := hpart ▸ List.take_prefix _ _
    refine ⟨_, (List.prefix_iff_eq_append.1 hfront).symm, fun t' hput => ⟨?_, List.drop_drop⟩⟩
    exact fun u hu => hkept u ((Sink.Reaches.put .refl hput).1.trans hu)
  nothing := by
    rintro f t n _ f' ⟨hkept, rfl⟩ hpos hread
    obtain ⟨hpart, -⟩ := OpenFile.eq_of_read_bytes hread
    rw [FileSystem.content, hkept t .refl, eq_comm, List.take_eq_nil_iff] at hpart
    exact hpart.resolve_left hpos.ne'
  interrupted _ hread := absurd hread OpenFile.read_ne_interrupted
  not_failed := by
    rintro f t n _ e f' ⟨hkept, -⟩ hread
    obtain ⟨-, hdir, -⟩ := OpenFile.eq_of_read_failed hread
    rw [FileSystem.isDirectory, hkept t .refl] at hdir
    cases hdir

namespace Sink.Copies

variable {sink : Sink τ} {piece size : Nat} {t t' : τ} {got : Bytes} {fault : Option IoError}

/-- What is taken of a stream that supplies `bs`. -/
theorem of_supplies {st : τ → Stream σ} {s s' : σ} {rest : σ → τ → Bytes → Prop} {bs : Bytes}
    (h : sink.Copies st piece size s t got fault s' t') (hpiece : 0 < piece)
    (hsink : sink.NeverFails t) (hst : sink.Supplies st rest) (hrest : rest s t bs) :
    fault = none ∧ got = bs.take size := by
  induction h generalizing bs with
  | full => exact ⟨rfl, rfl⟩
  | ended missing read =>
    rw [hst.nothing hrest (by omega) read]
    exact ⟨rfl, List.take_nil.symm⟩
  | piece missing read put _ ih =>
    obtain ⟨tail, rfl, hrest'⟩ := hst.bytes hrest read
    have hle := Nat.le_trans (Stream.read_le _ read) (Nat.min_le_right ..)
    obtain ⟨hfault, hgot⟩ := ih (hsink.of_reaches (Reaches.put .refl put).1) (hrest' _ put)
    refine ⟨hfault, ?_⟩
    rw [hgot, List.take_append, List.take_of_length_le hle, List.length_cons]
  | interrupted missing read _ ih => exact ih hsink (hst.interrupted hrest read)
  | unread missing read => exact absurd read (hst.not_failed hrest)
  | unwritten missing read put => exact absurd put hsink.put_ne_error

/-! ## Files that change -/

variable {files : τ → FileSystem} {f f' : OpenFile}

/-- To a sink that does not fail, only what is a directory in the end is not copied. -/
theorem fault_of_file (h : sink.Copies (OpenFile.stream ∘ files) piece size f t got fault f' t')
    (hsink : sink.NeverFails t) : fault = none
      ∨ fault = some (.os .isDirectory) ∧ sink.Reaches t t' ∧ (files t').isDirectory f.node = true := by
  cases fault with
  | none => exact .inl rfl
  | some e =>
    obtain ⟨hreached, hcause⟩ := Reaches.copyAfter .refl (h.copyAfter_eq 0)
    rcases hcause e rfl with ⟨w, hreached_w, -, hfailed⟩ | ⟨rfl, hdir⟩
    · exact absurd hfailed (hsink.of_reaches hreached_w e t')
    · exact .inr ⟨rfl, hreached, hdir⟩

/-- Nothing is copied of a directory. -/
theorem of_isDirectory (h : sink.Copies (OpenFile.stream ∘ files) piece size f t got fault f' t')
    (hsize : size ≠ 0) (hdir : (files t).isDirectory f.node = true) :
    got = [] ∧ fault = some (.os .isDirectory) := by
  have hread : ((OpenFile.stream ∘ files) t).read f (min piece size) =
      (.failed (.os .isDirectory), f) := OpenFile.stream_read_of_isDirectory hdir _
  cases h with
  | full => exact absurd rfl hsize
  | unread _ read =>
    cases hread.symm.trans read
    exact ⟨rfl, rfl⟩
  | ended _ read | piece _ read | interrupted _ read | unwritten _ read =>
    cases hread.symm.trans read

/-- All is copied of a file that is long enough at any time. -/
theorem length_of_long (h : sink.Copies (OpenFile.stream ∘ files) piece size f t got fault f' t')
    (hpiece : 0 < piece) (hsink : sink.NeverFails t)
    (hlong : ∀ u, sink.Reaches t u → f.offset + size ≤ ((files u).content f.node).length) :
    got.length = size ∧ fault = none := by
  induction h with
  | full => exact ⟨rfl, rfl⟩
  | ended missing read =>
    obtain ⟨hpart, -⟩ := OpenFile.eq_of_read_bytes read
    have hle := hlong _ .refl
    have hlength := congrArg List.length hpart
    rw [List.length_take, List.length_drop, List.length_nil] at hlength
    omega
  | @piece size f f₁ f' t t₁ t' b bs got fault missing read put _ ih =>
    have hle := Nat.le_trans (Stream.read_le _ read) (Nat.min_le_right ..)
    obtain ⟨-, rfl⟩ := OpenFile.eq_of_read_bytes read
    have hreach := (Reaches.put .refl put).1
    rw [List.length_cons] at hle
    obtain ⟨hrest, hfault⟩ := ih (hsink.of_reaches hreach) fun u hu => by
      have := hlong u (hreach.trans hu)
      change f.offset + (bs.length + 1) + (size - (bs.length + 1)) ≤ ((files u).content f.node).length
      omega
    refine ⟨?_, hfault⟩
    rw [List.length_append, hrest, List.length_cons]
    omega
  | interrupted missing read => exact absurd read OpenFile.read_ne_interrupted
  | @unread size f f' t e missing read =>
    -- A directory has no content.
    obtain ⟨-, hdir, -⟩ := OpenFile.eq_of_read_failed read
    have hle := hlong t .refl
    have hlength : ((files t).content f.node).length ≠ 0 := by omega
    have hfile := isFile_of_length_content hlength
    cases (isDirectory_eq_false_of_isFile hfile).symm.trans hdir
  | unwritten missing read put => exact absurd put hsink.put_ne_error

/-- No more is copied of a file than it has at some time. -/
theorem length_le_of_short {m : Nat}
    (h : sink.Copies (OpenFile.stream ∘ files) piece size f t got fault f' t') (hoffset : f.offset ≤ m)
    (hshort : ∀ u, sink.Reaches t u → ((files u).content f.node).length ≤ m) :
    f.offset + got.length ≤ m := by
  have hpiece : ∀ {f : OpenFile} {t n bs f'}, f.offset ≤ m → ((files t).content f.node).length ≤ m →
      ((OpenFile.stream ∘ files) t).read f n = (.bytes bs, f') → f.offset + bs.length ≤ m := by
    intro f t n bs f' hoffset hle hread
    obtain ⟨hpart, -⟩ := OpenFile.eq_of_read_bytes hread
    have hlength := congrArg List.length hpart
    rw [List.length_take, List.length_drop] at hlength
    omega
  induction h with
  | full | ended | unread => exact hoffset
  | @piece size f f₁ f' t t₁ t' b bs got fault missing read put _ ih =>
    have hle := hpiece hoffset (hshort _ .refl) read
    obtain ⟨-, rfl⟩ := OpenFile.eq_of_read_bytes read
    have hrest := ih hle fun u hu => hshort u ((Reaches.put .refl put).1.trans hu)
    rw [List.length_append, ← Nat.add_assoc]
    exact hrest
  | interrupted missing read => exact absurd read OpenFile.read_ne_interrupted
  | unwritten missing read put => exact hpiece hoffset (hshort _ .refl) read

end Sink.Copies

/-! ## Entries from files -/

namespace Builder

open Sink

variable {sink : Sink τ} {files : τ → FileSystem} {name : String} {p : Path} {s : Session τ}
  {i : NodeId} {expected : Nat} {t₁ t₂ : τ} {f : OpenFile} {got : Bytes} {fault : Option IoError}

/-- What writing a file of the expected size comes to, by the run that copied `got` of it. -/
def copyResult (p : Path) (expected : Nat) (got : Bytes) : Option IoError → Except Error Nat
  | none =>
    if got.length = expected then .ok expected else .error (.lengthMismatch p expected got.length)
  | some cause => .error (.io "Copy source file" (some p) cause)

/-- Writing a file, by the run that copies it. -/
theorem exec_writeFile (hfind : (files s.state).find p = .ok i)
    (hexpected : (files s.state).size i = expected)
    (hput : sink.put (Head.ofName name (UInt64.ofNat expected)).toBytes s.state = (.ok (), t₁))
    (hcopies : sink.Copies (OpenFile.stream ∘ files) pieceSize expected (.ofNode i) t₁ got fault f t₂) :
    (writeFile sink files name p).exec s = (copyResult p expected got fault, ⟨t₂, s.events⟩) := by
  have hcopy : sink.copy (OpenFile.stream ∘ files) pieceSize expected (.ofNode i) t₁ =
      (copied 0 got fault, f, t₂) := hcopies.copyAfter_eq 0
  have hopen := openSource_eq_ok_iff.2 hfind
  rw [writeFile, exec_bind_ok (exec_get s), exec_bind_ok (exec_liftM_eq_ok_iff.2 ⟨hopen, rfl⟩)]
  dsimp only
  rw [hexpected, exec_bind_ok (exec_put _ hput)]
  have hcopied := exec_copy (s := ⟨t₁, s.events⟩) (.io "Copy source file" (some p)) hcopy
  cases fault with
  | some cause => exact exec_bind_error hcopied
  | none =>
    rw [copied, Nat.zero_add] at hcopied
    rw [exec_bind_ok hcopied, copyResult]
    split_ifs with hlength
    · rw [hlength]
      rfl
    · rfl

/-- The sink itself does what the one does that records. -/
theorem exec_writeFile_of_recorded {r : Except Error Nat} {t t' : τ} {held accepted : Bytes}
    {events told : List Event}
    (h : (writeFile sink.recorded (files ∘ Prod.fst) name p).exec ⟨(t, held), events⟩ =
      (r, ⟨(t', accepted), told⟩)) : (writeFile sink files name p).exec ⟨t, events⟩ = (r, ⟨t', told⟩) := by
  refine Task.exec_of_follows_recorded (follows_writeFile sink.follows_recorded ?_ name p) h
  rintro v _ rfl
  exact .refl _

/-- On a sink that does not fail the head is written, and then what the run takes that copies the
content. -/
theorem exec_writeFile_recorded {head : Bytes} (hsink : sink.NeverFails s.state)
    (hfind : (files s.state).find p = .ok i) (hexpected : (files s.state).size i = expected)
    (hhead : head = (Head.ofName name (UInt64.ofNat expected)).toBytes) :
    ∃ t₁ t₂ f content fault, sink.put head s.state = (.ok (), t₁) ∧ sink.NeverFails t₁
      ∧ sink.Copies (OpenFile.stream ∘ files) pieceSize expected (.ofNode i) t₁ content fault f t₂
      ∧ (writeFile sink.recorded (files ∘ Prod.fst) name p).exec ⟨(s.state, []), s.events⟩ =
        (copyResult p expected content fault, ⟨(t₂, head ++ content), s.events⟩) := by
  subst hhead
  obtain ⟨t₁, hput⟩ := hsink.put (Head.ofName name (UInt64.ofNat expected)).toBytes
  have hsink₁ := hsink.of_reaches (Reaches.put .refl hput).1
  obtain ⟨content, fault, f, t₂, hcopies⟩ :=
    exists_copies sink (OpenFile.stream ∘ files) pieceSize expected (.ofNode i) t₁
  obtain ⟨held₁, hput_recorded, hheld₁⟩ := put_recorded hput []
  obtain ⟨held₂, hheld₂, hrecorded⟩ := hcopies.recorded_sink held₁
  obtain rfl := hheld₁ rfl
  obtain rfl := hheld₂ (.inr hsink₁)
  exact ⟨t₁, t₂, f, content, fault, hput, hsink₁, hcopies,
    exec_writeFile hfind hexpected hput_recorded hrecorded⟩

/-- Copying takes no more from a stream than it is asked for, and of a stream that supplies given bytes
to a sink that does not fail it writes exactly the front.

So a file that is written leaves an entry of the announced size or an error. On a sink that does not
fail, all of it is copied if it is long enough at any time, and nothing that it does not have: a file
that has become shorter is an error, which tells both lengths. The only other error is that of reading
what is a directory by then, of which nothing is copied. -/
theorem record_keeps_announced_size (sink : Sink τ) :
    (∀ (st : τ → Stream σ) (piece size : Nat) (s : σ) (t : τ),
      ∃ r s' t' taken accepted,
        sink.copy st piece size s t = (r, s', t')
          ∧ sink.recorded.copy (fun u => (st u.1).recorded) piece size (s, []) (t, []) =
            (r, (s', taken), (t', accepted))
          ∧ taken.length ≤ size
          ∧ ∀ rest bs, 0 < piece → sink.NeverFails t → sink.Supplies st rest → rest s t bs →
            r = .ok (min size bs.length) ∧ taken = bs.take size ∧ accepted = bs.take size)
      ∧ ∀ (files : τ → FileSystem) (name : String) (p : Path) (s : Session τ),
        ∃ r t' accepted events,
          (writeFile sink files name p).exec s = (r, ⟨t', events⟩)
            ∧ (writeFile sink.recorded (files ∘ Prod.fst) name p).exec ⟨(s.state, []), s.events⟩ =
              (r, ⟨(t', accepted), events⟩)
            ∧ (∀ n, r = .ok n → ∃ i content, (files s.state).find p = .ok i
              ∧ (files s.state).size i = n
              ∧ content.length = n ∧ accepted = Entry.encode ⟨name, content⟩)
            ∧ ∀ i expected head, sink.NeverFails s.state → (files s.state).find p = .ok i →
              (files s.state).size i = expected →
              head = (Head.ofName name (UInt64.ofNat expected)).toBytes →
              ∃ t₁ content, sink.put head s.state = (.ok (), t₁)
                ∧ accepted = head ++ content
                ∧ content.length ≤ expected
                ∧ ((r = if content.length = expected then .ok expected
                    else .error (.lengthMismatch p expected content.length))
                  ∨ r = .error (.io "Copy source file" (some p) (.os .isDirectory))
                    ∧ sink.Reaches t₁ t' ∧ (files t').isDirectory i = true)
                ∧ ((files t₁).isDirectory i = true → expected ≠ 0 →
                  content = [] ∧ r = .error (.io "Copy source file" (some p) (.os .isDirectory)))
                ∧ ((∀ u, sink.Reaches t₁ u → expected ≤ ((files u).content i).length) →
                  content.length = expected ∧ r = .ok expected)
                ∧ (∀ m, (∀ u, sink.Reaches t₁ u → ((files u).content i).length ≤ m) →
                  content.length ≤ m)
                ∧ ∀ rest bs, sink.Supplies (OpenFile.stream ∘ files) rest → rest (.ofNode i) t₁ bs →
                  content = bs.take expected ∧ r = if content.length = expected then .ok expected
                    else .error (.lengthMismatch p expected content.length) := by
  constructor
  · intro st piece size s t
    obtain ⟨taken, fault, s', t', hcopies⟩ := exists_copies sink st piece size s t
    obtain ⟨accepted, haccepted, hrecorded⟩ := (hcopies.recorded_stream []).recorded_sink []
    refine ⟨_, s', t', taken, accepted, hcopies.copyAfter_eq 0, hrecorded.copyAfter_eq 0,
      hcopies.length_le, ?_⟩
    intro rest bs hpiece hsink hst hrest
    obtain ⟨rfl, rfl⟩ := hcopies.of_supplies hpiece hsink hst hrest
    rw [copied, Nat.zero_add, List.length_take]
    exact ⟨rfl, rfl, haccepted (.inl rfl)⟩
  · intro files name p s
    rcases hrun : (writeFile sink.recorded (files ∘ Prod.fst) name p).exec ⟨(s.state, []), s.events⟩
      with ⟨r, ⟨⟨t', accepted⟩, events⟩⟩
    refine ⟨r, t', accepted, events, exec_writeFile_of_recorded hrun, rfl, ?_, ?_⟩
    · rintro n rfl
      obtain ⟨i, content, hfind, hexpected, hlength, hheld, -⟩ :=
        writeFile_eq_ok (sink.collects_recorded s.state) ⟨rfl, .refl⟩ hrun
      exact ⟨i, content, hfind, hexpected, hlength, hheld.1⟩
    · intro i expected head hsink hfind hexpected hhead
      obtain ⟨t₁, t₂, f, content, fault, hput, hsink₁, hcopies, hexec⟩ :=
        exec_writeFile_recorded hsink hfind hexpected hhead
      have hpiece : 0 < pieceSize := by decide
      obtain ⟨hresult, hsession⟩ := Prod.mk.inj (hrun.symm.trans hexec)
      cases hsession
      refine ⟨t₁, content, hput, rfl, hcopies.length_le, ?_, fun hdir hne => ?_, fun hlong => ?_,
        fun m hshort => ?_, fun rest bs hst hrest => ?_⟩
      · rcases hcopies.fault_of_file hsink₁ with rfl | ⟨rfl, hreached, hdir⟩
        · exact .inl hresult
        · exact .inr ⟨hresult, hreached, hdir⟩
      · obtain ⟨hnothing, rfl⟩ := hcopies.of_isDirectory hne hdir
        exact ⟨hnothing, hresult⟩
      · obtain ⟨hlength, rfl⟩ := hcopies.length_of_long hpiece hsink₁ fun u hu => by
          rw [OpenFile.ofNode, Nat.zero_add]
          exact hlong u hu
        rw [copyResult, if_pos hlength] at hresult
        exact ⟨hlength, hresult⟩
      · have hle := hcopies.length_le_of_short (Nat.zero_le m) hshort
        rwa [OpenFile.ofNode, Nat.zero_add] at hle
      · obtain ⟨rfl, hcontent⟩ := hcopies.of_supplies hpiece hsink₁ hst hrest
        exact ⟨hcontent, hresult⟩

/-! ### A file that changes once its head is written -/

/-- A sink that accepts everything and only counts it. -/
def counter : Sink Nat where
  write n bs := (.accepted bs.length, n + bs.length)
  patience _ := 0
  accepted_le h := by
    cases h
    exact Nat.le_refl _
  patience_of_interrupted h := by cases h

theorem collects_counter : counter.Collects (fun held n => n = held.length) fun _ => False where
  accepted := by
    rintro held _ bs n u rfl hwrite
    cases hwrite
    rw [List.take_length, List.length_append]
  nothing _ hne hwrite := by
    injection (Prod.mk.inj hwrite).1 with hlength
    exact hne (List.length_eq_zero_iff.1 hlength)
  interrupted _ hwrite := by cases hwrite
  failed _ hwrite := by cases hwrite

theorem le_of_reaches_counter {n m : Nat} (h : counter.Reaches n m) : n ≤ m := by
  induction h with
  | refl => exact Nat.le_refl n
  | write bs _ ih => exact Nat.le_trans ih (Nat.le_add_right _ _)

/-- The file `a` has three bytes until so much was written as a head has, and then it is another node. -/
def replacedFile (node : Node) (n : Nat) : FileSystem where
  nodes := #[.directory 0 [([0x61], 1)], if n < Head.length then .file [1, 2, 3] else node]
  root := 0
  cwd := 0
  pathLimit := none

/-- Once the head is written no write leads back. -/
theorem node?_replacedFile {node : Node} {n m : Nat} (hle : Head.length ≤ n)
    (hreach : counter.Reaches n m) : (replacedFile node m).node? 1 = some node := by
  have hnode : (if m < Head.length then Node.file [1, 2, 3] else node) = node :=
    if_neg (Nat.not_lt.2 (Nat.le_trans hle (le_of_reaches_counter hreach)))
  exact congrArg some hnode

theorem record_keeps_announced_size_replaced :
    (∃ s' t', counter.copy (fun _ => Script.stream) 2 4 [.bytes [1], .interrupted, .bytes [2, 3, 4, 5]] 0 =
        (.ok 4, s', t'))
      ∧ (∃ s, (writeFile counter (replacedFile (.file [9])) "a" ⟨[0x61]⟩).exec ⟨0, []⟩ =
        (.error (.lengthMismatch ⟨[0x61]⟩ 3 1), s))
      ∧ (∃ s, (writeFile counter (replacedFile (.file [9, 8, 7, 6])) "a" ⟨[0x61]⟩).exec ⟨0, []⟩ =
        (.ok 3, s))
      ∧ ∃ s, (writeFile counter (replacedFile (.directory 0 [])) "a" ⟨[0x61]⟩).exec ⟨0, []⟩ =
        (.error (.io "Copy source file" (some ⟨[0x61]⟩) (.os .isDirectory)), s) := by
  have hempty : 0 = ([] : Bytes).length := rfl
  have hcounter := collects_counter.neverFails hempty
  obtain ⟨hcopy, hwrite⟩ := record_keeps_announced_size (σ := Script) counter
  have hfind : ∀ node, (replacedFile node 0).find ⟨[0x61]⟩ = .ok 1 := by
    intro node
    cbv
  have hhead : ∀ {n : Nat}, counter.put (Head.ofName "a" 3).toBytes 0 = (.ok (), n) →
      Head.length ≤ n := by
    intro n hput
    rw [collects_counter.put_eq_ok hempty hput, List.nil_append, Head.length_toBytes]
  have hreplaced : ∀ content : Bytes, ∃ r s,
      (writeFile counter (replacedFile (.file content)) "a" ⟨[0x61]⟩).exec ⟨0, []⟩ = (r, s)
        ∧ r = if (content.take 3).length = 3 then .ok 3
          else .error (.lengthMismatch ⟨[0x61]⟩ 3 (content.take 3).length) := by
    intro content
    obtain ⟨r, t', accepted, events, hexec, -, -, hfile⟩ :=
      hwrite (replacedFile (.file content)) "a" ⟨[0x61]⟩ ⟨0, []⟩
    obtain ⟨t₁, got, hput, -, -, -, -, -, -, hsupplied⟩ := hfile 1 3 _ hcounter (hfind _) rfl rfl
    obtain ⟨rfl, hr⟩ := hsupplied _ content (OpenFile.supplies counter _ content)
      ⟨fun u hu => node?_replacedFile (hhead hput) hu, rfl⟩
    exact ⟨r, _, hexec, hr⟩
  refine ⟨?_, ?_, ?_, ?_⟩
  · obtain ⟨r, s', t', taken, accepted, hexec, -, -, hsupplied⟩ :=
      hcopy (fun _ => Script.stream) 2 4 [.bytes [1], .interrupted, .bytes [2, 3, 4, 5]] 0
    have hsteady : Script.IsSteady [.bytes [1], .interrupted, .bytes [2, 3, 4, 5]] := by
      simp [Script.IsSteady]
    obtain ⟨rfl, -⟩ := hsupplied _ _ (by decide) hcounter
      (Script.stream.honest_delivers.supplies counter) (Script.delivers hsteady)
    exact ⟨s', t', hexec⟩
  · obtain ⟨_, s, hexec, rfl⟩ := hreplaced [9]
    exact ⟨s, hexec⟩
  · obtain ⟨_, s, hexec, rfl⟩ := hreplaced [9, 8, 7, 6]
    exact ⟨s, hexec⟩
  · obtain ⟨r, t', accepted, events, hexec, -, -, hfile⟩ :=
      hwrite (replacedFile (.directory 0 [])) "a" ⟨[0x61]⟩ ⟨0, []⟩
    obtain ⟨t₁, got, hput, -, -, -, hdirectory, -⟩ := hfile 1 3 _ hcounter (hfind _) rfl rfl
    have hnode : (replacedFile (.directory 0 []) t₁).node? 1 = some (.directory 0 []) :=
      node?_replacedFile (hhead hput) .refl
    obtain ⟨-, rfl⟩ := hdirectory (isDirectory_iff.2 ⟨0, [], hnode⟩) (by decide)
    exact ⟨_, hexec⟩

end Builder

end FlatArchive
