-- SUMMARY: The records of an image as a grammar, the ways in which bytes fail to be one, and reading by them.
import FlatArchive.Image.Source
import FlatArchive.Proofs.Utf8

/-!
# Records

A record is a head, whose field holds a name, and content of the size that the head declares. Every
byte string either starts with a record or is damaged in one of four ways: it ends in the size, in
the name field or in the content, or the name is not text. Reading an entry gives the record that
the bytes start with and leaves what follows it, or it gives the damage.
-/

namespace FlatArchive

open Attempt Text

/-! ## Fields and heads -/

namespace Bytes

/-- Of a number its lowest bytes are written. -/
theorem toNat_ofNat (width n : Nat) : toNat (ofNat width n) = n % 256 ^ width := by
  induction width generalizing n with
  | zero => simp [ofNat, toNat, Nat.mod_one]
  | succ width ih =>
    simp only [ofNat, toNat, ih]
    rw [Nat.pow_succ, Nat.mul_comm (256 ^ width), Nat.mod_mul]
    simp [Nat.mod_eq_of_lt (Nat.mod_lt n (by decide : 0 < 256))]

/-- What is read has no more digits than there are bytes. -/
theorem toNat_lt (bs : Bytes) : toNat bs < 256 ^ bs.length := by
  induction bs with
  | nil => simp [toNat]
  | cons b bs ih =>
    have hb := b.toNat_lt
    simp only [toNat, List.length_cons, Nat.pow_succ]
    omega

theorem readField_append (field : Field) {n : Nat} {part : Bytes} (h : part.length = n)
    (rest : Bytes) : (source.readField field n).exec (part ++ rest) = (.ok ⟨part, h⟩, rest) := by
  have hle : n ≤ (part ++ rest).length := by
    rw [List.length_append]
    omega
  subst h
  rw [exec_readField, dif_pos hle]
  simp

theorem readField_short (field : Field) {n : Nat} {bs : Bytes} (h : bs.length < n) :
    (source.readField field n).exec bs = (.error (.truncated field n bs.length), []) := by
  rw [exec_readField, dif_neg (Nat.not_le.2 h)]

end Bytes

namespace Head

theorem ofFields_ofNat (h : Head) :
    ofFields (Bytes.ofNat sizeWidth h.size.toNat) h.nameField h.length_nameField = h := by
  have hlt : h.size.toNat < 256 ^ sizeWidth := h.size.toNat_lt
  rw [ofFields, Bytes.toNat_ofNat, Nat.mod_eq_of_lt hlt, UInt64.ofNat_toNat]

/-- Two fields of the right length are what the head that they make up is written as. -/
theorem toBytes_ofFields {size name : Bytes} (hsize : size.length = sizeWidth)
    (hname : name.length = Name.fieldSize) : (ofFields size name hname).toBytes = size ++ name := by
  have hlt : Bytes.toNat size < 2 ^ 64 := by
    have := Bytes.toNat_lt size
    rw [hsize] at this
    exact this
  have hnat : (UInt64.ofNat (Bytes.toNat size)).toNat = Bytes.toNat size := by
    rw [UInt64.toNat_ofNat']
    exact Nat.mod_eq_of_lt hlt
  simp only [toBytes, ofFields, hnat]
  rw [← hsize, Bytes.ofNat_toNat]

/-- Bytes that are long enough start with a head. -/
theorem exists_toBytes {bs : Bytes} (h : length ≤ bs.length) :
    ∃ head rest, bs = toBytes head ++ rest := by
  have hsize : (bs.take sizeWidth).length = sizeWidth :=
    List.length_take_of_le (Nat.le_trans (by decide) h)
  have hname : ((bs.drop sizeWidth).take Name.fieldSize).length = Name.fieldSize := by
    refine List.length_take_of_le ?_
    simp only [length, List.length_drop] at h ⊢
    omega
  refine ⟨ofFields (bs.take sizeWidth) _ hname, (bs.drop sizeWidth).drop Name.fieldSize, ?_⟩
  rw [toBytes_ofFields hsize, List.append_assoc, List.take_append_drop, List.take_append_drop]

end Head

theorem Bytes.readHead_append (head : Head) (rest : Bytes) :
    source.readHead.exec (head.toBytes ++ rest) = (.ok head, rest) := by
  have hsize : (Bytes.ofNat Head.sizeWidth head.size.toNat).length = Head.sizeWidth :=
    Bytes.length_ofNat ..
  rw [Source.readHead, Head.toBytes, List.append_assoc,
    exec_bind_ok (readField_append .size hsize _),
    exec_bind_ok (readField_append .name head.length_nameField _), exec_pure]
  rw [Head.ofFields_ofNat]

/-! ## Content -/

namespace Bytes

/-- The chunks of content are what one read of the whole would give. -/
theorem readChunks_eq (size remaining : Nat) (hle : remaining ≤ size) (content bs : Bytes) :
    source.readChunks size remaining content bs =
      if remaining ≤ bs.length then (.ok (content ++ bs.take remaining), bs.drop remaining)
      else (.error (.truncated .content size (size - remaining + bs.length)), []) := by
  induction remaining using Nat.strongRecOn generalizing content bs with
  | ind remaining ih =>
    rw [Source.readChunks]
    by_cases hzero : remaining = 0
    · simp [hzero]
    have hfill : source.fill (min remaining Source.chunkSize) bs =
      (.ok (bs.take (min remaining Source.chunkSize)), bs.drop (min remaining Source.chunkSize)) := rfl
    have hwant : 0 < min remaining Source.chunkSize ∧ min remaining Source.chunkSize ≤ remaining := by
      simp only [Source.chunkSize]
      omega
    generalize min remaining Source.chunkSize = want at hfill hwant
    simp only [hzero, dif_neg, not_false_eq_true, hfill]
    rcases Nat.lt_or_ge bs.length want with hshort | hlong
    · have hlen : (bs.take want).length = bs.length := by
        rw [List.length_take]
        omega
      rw [if_neg (by omega), if_neg (by omega), hlen, List.drop_of_length_le (by omega)]
      rfl
    · have hlen : (bs.take want).length = want := List.length_take_of_le hlong
      rw [if_pos hlen, ih (remaining - want) (by omega) (by omega), List.length_drop]
      by_cases henough : remaining ≤ bs.length
      · have hsum : want + (remaining - want) = remaining := by omega
        rw [if_pos (by omega), if_pos henough, List.append_assoc, List.drop_drop, ← List.take_add,
          hsum]
      · rw [if_neg (by omega), if_neg henough]
        congr 3
        omega

/-- Content of a byte string is its front part, if it is long enough; else all of it is consumed. -/
theorem exec_readContent (size : Nat) (bs : Bytes) :
    (source.readContent size).exec bs =
      if size ≤ bs.length then (.ok (bs.take size), bs.drop size)
      else (.error (.truncated .content size bs.length), []) := by
  rw [Source.readContent, exec_ofFn, readChunks_eq _ _ (Nat.le_refl _), Nat.sub_self, Nat.zero_add,
    List.nil_append]

theorem readContent_append {content : Bytes} {size : Nat} (h : content.length = size)
    (rest : Bytes) : (source.readContent size).exec (content ++ rest) = (.ok content, rest) := by
  subst h
  rw [exec_readContent, if_pos (by simp)]
  simp

theorem readContent_short {size : Nat} {bs : Bytes} (h : bs.length < size) :
    (source.readContent size).exec bs = (.error (.truncated .content size bs.length), []) := by
  rw [exec_readContent, if_neg (by omega)]

end Bytes

/-! ## Records -/

/-- A complete record of an image: a head, the name that its field holds up to the first zero, and
content of the size that it declares. -/
structure Record where
  head : Head
  name : String
  content : Bytes
  encode_name : Utf8.encode name = head.nameBytes
  length_content : content.length = head.size.toNat

namespace Record

/-- The bytes of a record, as they stand in the image. -/
def bytes (r : Record) : Bytes := r.head.toBytes ++ r.content

def entry (r : Record) : Entry := ⟨r.name, r.content⟩

@[simp] theorem length_bytes (r : Record) : r.bytes.length = Head.length + r.content.length := by
  simp [bytes]

theorem head_name (r : Record) : r.head.name = .ok r.name := by
  rw [Head.name, Utf8.decode_eq_ok_iff.2 r.encode_name]

end Record

namespace Name

open Utf8

/-- A name that fits its field is not cut. -/
theorem takeFitting_of_length_le {room : Nat} {cs : List Char}
    (h : (encodeList cs).length ≤ room) : takeFitting room cs = cs := by
  induction cs generalizing room with
  | nil => rfl
  | cons c cs ih =>
    rw [encodeList_cons, List.length_append, String.length_utf8EncodeChar] at h
    rw [takeFitting, if_pos (by omega), ih (by omega)]

theorem fit_of_length_le {name : String} (h : (encode name).length ≤ maxLength) :
    fit name = name := by
  rw [fit, takeFitting_of_length_le h, String.ofList_toList]

/-- A name that fits its field and has no zero byte is what its field holds. -/
theorem ofField_toField {name : String} (hlen : (encode name).length ≤ maxLength)
    (hzero : 0 ∉ encode name) : ofField (toField name) = encode name := by
  have hfit := fit_of_length_le hlen
  have hpos : 0 < fieldSize - (encode name).length := by
    simp only [fieldSize, maxLength] at hlen ⊢
    omega
  obtain ⟨k, hk⟩ := Nat.exists_eq_succ_of_ne_zero (Nat.ne_of_gt hpos)
  rw [ofField, toField, hfit, hk, List.replicate_succ, List.takeWhile_append_of_pos]
  · simp
  · intro b hb
    simp only [bne_iff_ne, ne_eq]
    rintro rfl
    exact hzero hb

end Name

/-- The record that an entry is written as. Its name must fit the field and have no zero byte, and its
length must be a number of 64 bits. -/
def Record.ofEntry (e : Entry) (hlen : (Utf8.encode e.name).length ≤ Name.maxLength)
    (hzero : 0 ∉ Utf8.encode e.name) (hsize : e.content.length < 2 ^ 64) : Record where
  head := e.head
  name := e.name
  content := e.content
  encode_name := (Name.ofField_toField hlen hzero).symm
  length_content := by
    rw [Entry.head, Head.ofName, UInt64.toNat_ofNat']
    exact (Nat.mod_eq_of_lt hsize).symm

theorem Record.bytes_ofEntry {e : Entry} (hlen : (Utf8.encode e.name).length ≤ Name.maxLength)
    (hzero : 0 ∉ Utf8.encode e.name) (hsize : e.content.length < 2 ^ 64) :
    (ofEntry e hlen hzero hsize).bytes = e.encode := rfl

/-- How bytes fail to start with a record, and the error that says so. -/
inductive Damage : Bytes → FormatError → Prop where
  | size {bs : Bytes} (short : bs.length < Head.sizeWidth) :
      Damage bs (.truncated .size Head.sizeWidth bs.length)
  | name {size bs : Bytes} (length_size : size.length = Head.sizeWidth)
      (short : bs.length < Name.fieldSize) :
      Damage (size ++ bs) (.truncated .name Name.fieldSize bs.length)
  /-- The name is not text, whether or not the content is there. -/
  | encoding {head : Head} {fault : Utf8.Error} (decode : Utf8.decode head.nameBytes = .error fault)
      (bs : Bytes) : Damage (head.toBytes ++ bs) (.badName fault)
  | content {head : Head} {name : String} {bs : Bytes} (encode_name : Utf8.encode name = head.nameBytes)
      (short : bs.length < head.size.toNat) :
      Damage (head.toBytes ++ bs) (.truncated .content head.size.toNat bs.length)

/-- Bytes start with a record, or they are damaged. -/
theorem record_or_damage (bs : Bytes) :
    (∃ (r : Record) (rest : Bytes), bs = r.bytes ++ rest) ∨ ∃ e, Damage bs e := by
  by_cases hsize : bs.length < Head.sizeWidth
  · exact .inr ⟨_, .size hsize⟩
  by_cases hhead : bs.length < Head.length
  · right
    have htake : (bs.take Head.sizeWidth).length = Head.sizeWidth :=
      List.length_take_of_le (Nat.le_of_not_lt hsize)
    have hdrop : (bs.drop Head.sizeWidth).length < Name.fieldSize := by
      simp only [Head.length, List.length_drop] at hhead hsize ⊢
      omega
    rw [← List.take_append_drop Head.sizeWidth bs]
    exact ⟨_, .name htake hdrop⟩
  obtain ⟨head, rest, rfl⟩ := Head.exists_toBytes (Nat.le_of_not_lt hhead)
  cases hname : Utf8.decode head.nameBytes with
  | error fault => exact .inr ⟨_, .encoding hname rest⟩
  | ok name =>
    have hencode := Utf8.decode_eq_ok_iff.1 hname
    by_cases hcontent : rest.length < head.size.toNat
    · exact .inr ⟨_, .content hencode hcontent⟩
    · left
      refine ⟨⟨head, name, rest.take head.size.toNat, hencode,
        List.length_take_of_le (Nat.le_of_not_lt hcontent)⟩, rest.drop head.size.toNat, ?_⟩
      rw [Record.bytes, List.append_assoc, List.take_append_drop]

/-! ## Reading -/

namespace Bytes

theorem readEntry_record (r : Record) (rest : Bytes) :
    source.readEntry.exec (r.bytes ++ rest) = (.ok r.entry, rest) := by
  rw [Source.readEntry, Record.bytes, List.append_assoc, exec_bind_ok (readHead_append _ _),
    r.head_name]
  dsimp only
  rw [exec_bind_ok (readContent_append r.length_content rest), exec_pure]
  rfl

theorem readEntry_damage {bs : Bytes} {e : FormatError} (h : Damage bs e) :
    ∃ rest, source.readEntry.exec bs = (.error e, rest) := by
  cases h with
  | size short =>
    have hhead : source.readHead.exec bs = (.error (.truncated .size Head.sizeWidth bs.length), []) :=
      exec_bind_error (readField_short .size short)
    exact ⟨[], exec_bind_error hhead⟩
  | @name size bs length_size short =>
    have hhead : source.readHead.exec (size ++ bs) =
        (.error (.truncated .name Name.fieldSize bs.length), []) := by
      rw [Source.readHead, exec_bind_ok (readField_append .size length_size _),
        exec_bind_error (readField_short .name short)]
    exact ⟨[], exec_bind_error hhead⟩
  | @encoding head fault decode bs =>
    have hname : head.name = .error (.badName fault) := by
      rw [Head.name, decode]
    refine ⟨bs, ?_⟩
    rw [Source.readEntry, exec_bind_ok (readHead_append _ _), hname]
    rfl
  | @content head name bs encode_name short =>
    have hname : head.name = .ok name := by
      rw [Head.name, Utf8.decode_eq_ok_iff.2 encode_name]
    refine ⟨[], ?_⟩
    rw [Source.readEntry, exec_bind_ok (readHead_append _ _), hname]
    exact exec_bind_error (readContent_short short)

end Bytes

end FlatArchive
