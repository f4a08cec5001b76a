-- SUMMARY: Taking a head from bytes and reading it field by field agree, and both undo writing it.
import FlatArchive.Proofs.Chunks
import FlatArchive.Proofs.Delivery
import FlatArchive.Proofs.NameField

/-!
# Heads

A head is taken from a byte string as a whole, or read from a source field by field. Every byte string
of 264 bytes is a head, no other one is, and the head is written back as just these bytes. A source
that hands them out first gives the same head and gives up these bytes only. What it does after them,
to end or to fail, makes no difference.
-/

namespace FlatArchive

open Attempt Text

/-! ## Bytes as a head -/

namespace Head

theorem ofBytes_toBytes (head : Head) : ofBytes head.toBytes = .ok head := by
  have hsize : (Bytes.ofNat sizeWidth head.size.toNat).length = sizeWidth := Bytes.length_ofNat ..
  have htake : head.toBytes.take sizeWidth = Bytes.ofNat sizeWidth head.size.toNat :=
    List.take_left' hsize
  have hdrop : head.toBytes.drop sizeWidth = head.nameField := List.drop_left' hsize
  rw [ofBytes, dif_pos head.length_toBytes]
  simp only [htake, hdrop, ofFields_ofNat]

theorem toBytes_of_ofBytes {bs : Bytes} {head : Head} (h : ofBytes bs = .ok head) :
    head.toBytes = bs := by
  unfold ofBytes at h
  split at h
  · next hlength =>
    cases h
    have hle : sizeWidth ≤ bs.length := by
      rw [hlength]
      decide
    rw [toBytes_ofFields (List.length_take_of_le hle), List.take_append_drop]
  · cases h

/-- Bytes are taken as the head that is written as them. -/
theorem ofBytes_eq_ok_iff {bs : Bytes} {head : Head} : ofBytes bs = .ok head ↔ head.toBytes = bs := by
  constructor
  · exact toBytes_of_ofBytes
  · rintro rfl
    exact ofBytes_toBytes head

theorem exists_ofBytes_iff {bs : Bytes} : (∃ head, ofBytes bs = .ok head) ↔ bs.length = length := by
  constructor
  · rintro ⟨head, h⟩
    rw [← ofBytes_eq_ok_iff.1 h, length_toBytes]
  · intro h
    exact ⟨_, dif_pos h⟩

/-- The size is what the first eight bytes write. -/
theorem size_of_toBytes (head : Head) :
    head.size.toNat = Bytes.toNat (head.toBytes.take sizeWidth) := by
  have hlt : head.size.toNat < 256 ^ sizeWidth := head.size.toNat_lt
  rw [toBytes, List.take_left' (Bytes.length_ofNat ..), Bytes.toNat_ofNat, Nat.mod_eq_of_lt hlt]

theorem nameBytes_ofName (name : String) (size : UInt64) :
    (ofName name size).nameBytes = (Utf8.encode (Name.fit name)).takeWhile (· != 0) := by
  rw [nameBytes, ofName, Name.ofField_toField_eq, Name.encode_kept]

end Head

/-! ## Sources that start with a head -/

namespace Source

variable {σ ε : Type} {src : Source σ ε} {starts : σ → Bytes → Prop}

/-- `starts` says truly of each state which bytes the source hands out first, in whatever portions they
are asked for. It says nothing of what comes after them. -/
def HandsOut (src : Source σ ε) (starts : σ → Bytes → Prop) : Prop :=
  ∀ {s n bs}, starts s bs → n ≤ bs.length →
    ∃ s', src.fill n s = (.ok (bs.take n), s') ∧ starts s' (bs.drop n)

/-- A source that is read like a byte string hands it out. -/
theorem Reads.handsOut {R : σ → Bytes → Prop} (h : src.Reads R) : src.HandsOut R := by
  intro s n bs hs _
  obtain ⟨hanswer, hR⟩ := h n s bs hs
  exact ⟨_, Prod.ext hanswer rfl, hR⟩

theorem readField_of_fill {field : Field} {n : Nat} {s s' : σ} {bs : Bytes}
    (h : src.fill n s = (.ok bs, s')) (hlength : bs.length = n) :
    (src.readField field n).exec s = (.ok ⟨bs, hlength⟩, s') := by
  rw [exec_readField, h]
  exact dif_pos hlength

theorem readHead_of_fills {s s₁ s₂ : σ} {head : Head}
    (hsize : src.fill Head.sizeWidth s = (.ok (Bytes.ofNat Head.sizeWidth head.size.toNat), s₁))
    (hname : src.fill Name.fieldSize s₁ = (.ok head.nameField, s₂)) :
    src.readHead.exec s = (.ok head, s₂) := by
  rw [readHead, exec_bind_ok (readField_of_fill hsize (Bytes.length_ofNat ..)),
    exec_bind_ok (readField_of_fill hname head.length_nameField), exec_pure, Head.ofFields_ofNat]

end Source

/-- Every source that hands out `bs` first gives the head. It is asked for as many bytes as `bs` has,
hands out just these, and then goes on with what follows them. -/
def Head.ReadFrom (head : Head) (bs : Bytes) : Prop :=
  ∀ {σ ε : Type} (src : Source σ ε) (starts : σ → Bytes → Prop), src.HandsOut starts →
    ∀ (s : σ) (rest : Bytes), starts s (bs ++ rest) → ∃ (s' : σ) (log : List (Chunk ε)),
      src.readHead.exec s = (.ok head, s') ∧ starts s' rest
        ∧ src.recorded.readHead.exec (s, []) = (.ok head, (s', log))
        ∧ Chunk.delivered log = bs ∧ Chunk.askedFor log = bs.length

theorem Head.readFrom_toBytes (head : Head) : head.ReadFrom head.toBytes := by
  intro σ ε src starts hsrc s rest hs
  have hsize : (Bytes.ofNat sizeWidth head.size.toNat).length = sizeWidth := Bytes.length_ofNat ..
  have hname := head.length_nameField
  rw [toBytes, List.append_assoc] at hs
  obtain ⟨s₁, hfill, hs₁⟩ := hsrc hs (n := sizeWidth) (by rw [List.length_append, hsize]; omega)
  rw [List.take_left' hsize] at hfill
  rw [List.drop_left' hsize] at hs₁
  obtain ⟨s₂, hfill₁, hs₂⟩ := hsrc hs₁ (n := Name.fieldSize) (by rw [List.length_append, hname]; omega)
  rw [List.take_left' hname] at hfill₁
  rw [List.drop_left' hname] at hs₂
  refine ⟨s₂, [⟨sizeWidth, .ok (Bytes.ofNat sizeWidth head.size.toNat)⟩,
    ⟨Name.fieldSize, .ok head.nameField⟩], Source.readHead_of_fills hfill hfill₁, hs₂, ?_, ?_, ?_⟩
  · have hrecorded := Source.fill_recorded hfill []
    exact Source.readHead_of_fills hrecorded (Source.fill_recorded hfill₁ _)
  · rw [Chunk.delivered_cons, Chunk.delivered_cons, Chunk.delivered_nil, List.append_nil]
    rfl
  · rw [length_toBytes]
    rfl

/-! ## The whole of it -/

/-- Bytes are taken as a head if and only if there are 264 of them. The head is written as these bytes,
its size is the number that the first eight write, and a source that starts with the bytes gives the
same head and has then handed out these bytes only. A head that is made of a name and a size is taken
back from its bytes both ways, with that size, and the bytes of its name are those of the part of the
name that fits, up to the first zero. -/
theorem Head.taken_and_read_alike :
    (∀ bs : Bytes, ((∃ head, ofBytes bs = .ok head) ↔ bs.length = 264)
        ∧ (bs.length ≠ 264 → ofBytes bs = .error (.badLayout .sizeMismatch))
        ∧ ∀ head, ofBytes bs = .ok head → head.toBytes = bs
          ∧ head.size.toNat = Bytes.toNat (bs.take 8) ∧ head.ReadFrom bs)
      ∧ ∀ (name : String) (size : UInt64), ∃ head,
        ofBytes (ofName name size).toBytes = .ok head ∧ head.ReadFrom (ofName name size).toBytes
          ∧ head = ofName name size ∧ head.size = size
          ∧ head.nameBytes = (Utf8.encode (Name.fit name)).takeWhile (· != 0) := by
  constructor
  · intro bs
    refine ⟨exists_ofBytes_iff, fun h => dif_neg h, fun head h => ?_⟩
    obtain rfl := ofBytes_eq_ok_iff.1 h
    exact ⟨rfl, size_of_toBytes head, readFrom_toBytes head⟩
  · intro name size
    exact ⟨ofName name size, ofBytes_eq_ok_iff.2 rfl, readFrom_toBytes _, rfl, rfl,
      nameBytes_ofName name size⟩

/-- A head with no zero in it, that a stream delivers in two pieces with another byte behind. -/
theorem Head.taken_and_read_alike_full : ∃ head s log,
    let script : Script := [.bytes (List.replicate 100 0xFF), .interrupted,
      .bytes (List.replicate 164 0xFF ++ [7])]
    ofBytes (List.replicate 264 0xFF) = .ok head ∧ head.size = 0xFFFFFFFFFFFFFFFF
      ∧ Script.stream.source.readHead.exec script = (.ok head, s) ∧ Script.stream.Delivers s [7]
      ∧ Script.stream.source.recorded.readHead.exec (script, []) = (.ok head, (s, log))
      ∧ Chunk.delivered log = List.replicate 264 0xFF := by
  obtain ⟨hbytes, -⟩ := taken_and_read_alike
  obtain ⟨hlength, -, hhead⟩ := hbytes (List.replicate 264 0xFF)
  obtain ⟨head, htaken⟩ := hlength.2 List.length_replicate
  obtain ⟨-, hsize, hread⟩ := hhead head htaken
  have hsteady : Script.IsSteady [.bytes (List.replicate 100 0xFF), .interrupted,
      .bytes (List.replicate 164 0xFF ++ [7])] := by
    intro item hitem
    rcases List.mem_cons.1 hitem with rfl | hitem
    · exact .inr ⟨_, rfl⟩
    rcases List.mem_pair.1 hitem with rfl | rfl
    · exact .inl rfl
    · exact .inr ⟨_, rfl⟩
  have hdelivers := Script.delivers hsteady
  rw [Script.text_bytes, Script.text_interrupted, Script.text_bytes, Script.text_nil, List.append_nil,
    ← List.append_assoc, List.replicate_append_replicate] at hdelivers
  have hreads : Script.stream.source.Reads Script.stream.Delivers :=
    Script.stream.honest_delivers.reads
  obtain ⟨s, log, hexec, hrest, hrecorded, hlog, -⟩ := hread _ _ hreads.handsOut _ _ hdelivers
  refine ⟨head, s, log, htaken, ?_, hexec, hrest, hrecorded, hlog⟩
  rw [← UInt64.toNat_inj, hsize]
  decide

end FlatArchive
