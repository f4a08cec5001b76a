-- SUMMARY: An open image gives out its records in order, and stops at the first damage.
import FlatArchive.Image.Reader
import FlatArchive.Proofs.Delivery
import FlatArchive.Proofs.Record

/-!
# Open images

An image that is open stands at a place in its file: its header was read, some entries were given
out, and the bytes behind them are still to be read. The next step depends on these bytes only:
it gives the record that they start with, or the error of their damage, with the entry's number.
-/

namespace FlatArchive

open Attempt

/-! ## Many records -/

/-- Bytes hold the number of records that is asked for, or some records and then damage. -/
theorem records_or_damage (n : Nat) (bs : Bytes) :
    (∃ (rs : List Record) (rest : Bytes), rs.length = n ∧ bs = rs.flatMap Record.bytes ++ rest) ∨
      ∃ (rs : List Record) (bad : Bytes) (e : FormatError),
        rs.length < n ∧ bs = rs.flatMap Record.bytes ++ bad ∧ Damage bad e := by
  induction n generalizing bs with
  | zero => exact .inl ⟨[], bs, rfl, rfl⟩
  | succ n ih =>
    rcases record_or_damage bs with ⟨r, rest, rfl⟩ | ⟨e, hdamage⟩
    · rcases ih rest with ⟨rs, tail, hlen, rfl⟩ | ⟨rs, bad, e, hlen, rfl, hdamage⟩
      · exact .inl ⟨r :: rs, tail, by simpa using hlen, by simp⟩
      · exact .inr ⟨r :: rs, bad, e, by simpa using hlen, by simp, hdamage⟩
    · exact .inr ⟨[], bs, e, Nat.succ_pos n, rfl, hdamage⟩

/-- Entry `index` of the image is complete, and so are those before it. -/
def Decodes (image : Bytes) (index : Nat) (r : Record) : Prop :=
  ∃ (n : UInt8) (before : List Record) (rest : Bytes),
    image = n :: (before.flatMap Record.bytes ++ (r.bytes ++ rest)) ∧ before.length < n.toNat
      ∧ index = before.length + 1

namespace ImageFile

/-- The image is open on node `i`: `decoded` entries were given out, and `bs` is still to be read. -/
structure Stands (fs : FileSystem) (i : NodeId) (image : ImageFile) (header : Header)
    (decoded : Nat) (bs : Bytes) : Prop where
  header : image.reader.header = header
  decoded : image.reader.decoded = decoded
  holds : BufferedFile.Holds fs i image.reader.stream bs

variable {fs : FileSystem} {p : Path} {i : NodeId} {image : ImageFile} {header : Header}
  {decoded : Nat} {bs : Bytes}

theorem Stands.remaining (h : Stands fs i image header decoded bs) :
    image.reader.remaining = header.count - decoded := by
  rw [Reader.remaining, h.header, h.decoded]

/-- Where an image stands depends on nothing in the file system but the content of its node. -/
theorem Stands.of_content_eq {fs' : FileSystem} (h : Stands fs i image header decoded bs)
    (hcontent : fs'.content i = fs.content i) : Stands fs' i image header decoded bs :=
  ⟨h.header, h.decoded, h.holds.of_content_eq hcontent⟩

/-! ## Opening -/

theorem readHeader_cons (b : UInt8) (bs : Bytes) :
    Bytes.source.readHeader.exec (b :: bs) = (.ok ⟨b⟩, bs) := by
  have hfield : (Bytes.source.readField .header 1).exec (b :: bs) = (.ok ⟨[b], rfl⟩, bs) :=
    Bytes.readField_append .header (show [b].length = 1 from rfl) bs
  rw [Source.readHeader, exec_bind_ok hfield, exec_pure]
  rfl

theorem readHeader_nil :
    Bytes.source.readHeader.exec [] = (.error (.truncated .header 1 0), []) :=
  exec_bind_error (Bytes.readField_short .header (by decide))

theorem ofPath_of_content_cons {b : UInt8} (hfind : fs.find p = .ok i) (hfile : fs.isFile i = true)
    (hcontent : fs.content i = b :: bs) :
    ∃ image, ofPath fs p = .ok image ∧ image.path = p ∧ Stands fs i image ⟨b⟩ 0 bs := by
  have hholds := BufferedFile.holds_ofNode fs i
  obtain ⟨hres, hrest⟩ :=
    Source.follows_readHeader (BufferedFile.honest_holds fs i).reads _ _ hholds
  rw [hcontent, readHeader_cons] at hres hrest
  rcases hx : (BufferedFile.stream fs).source.readHeader.exec (.ofNode i) with ⟨rx, s⟩
  rw [hx] at hres hrest
  cases hres
  refine ⟨⟨p, ⟨s, ⟨b⟩, 0⟩⟩, ?_, rfl, rfl, rfl, hrest⟩
  rw [ofPath, hfind]
  simp only [hfile, if_true]
  rw [Reader.ofStream, hx]

theorem ofPath_of_content_nil (hfind : fs.find p = .ok i) (hfile : fs.isFile i = true)
    (hcontent : fs.content i = []) :
    ofPath fs p = .error (.format (.truncated .header 1 0)) := by
  have hholds := BufferedFile.holds_ofNode fs i
  obtain ⟨hres, -⟩ :=
    Source.follows_readHeader (BufferedFile.honest_holds fs i).reads _ _ hholds
  rw [hcontent, readHeader_nil] at hres
  rcases hx : (BufferedFile.stream fs).source.readHeader.exec (.ofNode i) with ⟨rx, s⟩
  rw [hx] at hres
  cases hres
  rw [ofPath, hfind]
  simp only [hfile, if_true]
  rw [Reader.ofStream, hx]
  rfl

/-- An image that opens is a regular file, and stands behind its first byte. -/
theorem stands_of_ofPath (h : ofPath fs p = .ok image) :
    ∃ i b bs, fs.find p = .ok i ∧ fs.isFile i = true ∧ fs.content i = b :: bs
      ∧ Stands fs i image ⟨b⟩ 0 bs := by
  cases hfind : fs.find p with
  | error e =>
    rw [ofPath, hfind] at h
    cases h
  | ok i =>
    cases hfile : fs.isFile i with
    | false =>
      rw [ofPath, hfind] at h
      simp [hfile] at h
    | true =>
      cases hcontent : fs.content i with
      | nil =>
        rw [ofPath_of_content_nil hfind hfile hcontent] at h
        cases h
      | cons b bs =>
        obtain ⟨image', hopen, -, hstands⟩ := ofPath_of_content_cons hfind hfile hcontent
        rw [hopen] at h
        cases h
        exact ⟨i, b, bs, rfl, hfile, hcontent, hstands⟩

/-! ## Steps -/

theorem exec_next (fs : FileSystem) (image : ImageFile) :
    (next fs).exec image =
      (((Reader.next (BufferedFile.stream fs)).exec image.reader).1.mapError (Error.atPath image.path),
        { image with reader := ((Reader.next (BufferedFile.stream fs)).exec image.reader).2 }) := rfl

theorem Stands.next_none (h : Stands fs i image header decoded bs) (hend : header.count ≤ decoded) :
    (next fs).exec image = (.ok none, image) := by
  have hzero : image.reader.remaining = 0 := by
    rw [h.remaining]
    omega
  rw [exec_next, Reader.next, exec_ofFn, if_pos hzero]
  rfl

/-- What the next step reads is what the bytes to come give. -/
theorem Stands.readEntry (h : Stands fs i image header decoded bs) :
    ((BufferedFile.stream fs).source.readEntry.exec image.reader.stream).1 =
        (Bytes.source.readEntry.exec bs).1.mapError .format
      ∧ BufferedFile.Holds fs i
          ((BufferedFile.stream fs).source.readEntry.exec image.reader.stream).2
          (Bytes.source.readEntry.exec bs).2 :=
  Source.follows_readEntry (BufferedFile.honest_holds fs i).reads _ _ h.holds

theorem Stands.next_record {r : Record} {rest : Bytes}
    (h : Stands fs i image header decoded (r.bytes ++ rest)) (hmore : decoded < header.count) :
    ∃ image', (next fs).exec image = (.ok (some (decoded + 1, r.entry)), image')
      ∧ Stands fs i image' header (decoded + 1) rest := by
  have hpos : image.reader.remaining ≠ 0 := by
    rw [h.remaining]
    omega
  obtain ⟨hres, hrest⟩ := h.readEntry
  rw [Bytes.readEntry_record] at hres hrest
  rcases hx : (BufferedFile.stream fs).source.readEntry.exec image.reader.stream with ⟨rx, s⟩
  rw [hx] at hres hrest
  cases hres
  refine ⟨{ image with reader := { image.reader with stream := s, decoded := decoded + 1 } }, ?_,
    h.header, rfl, hrest⟩
  rw [exec_next, Reader.next, exec_ofFn, if_neg hpos, hx, h.decoded]
  rfl

theorem Stands.next_damage {e : FormatError} (h : Stands fs i image header decoded bs)
    (hmore : decoded < header.count) (hdamage : Damage bs e) :
    ∃ image', (next fs).exec image = (.error (.entry (decoded + 1) (.format e)), image') := by
  have hpos : image.reader.remaining ≠ 0 := by
    rw [h.remaining]
    omega
  obtain ⟨rest, hread⟩ := Bytes.readEntry_damage hdamage
  obtain ⟨hres, -⟩ := h.readEntry
  rw [hread] at hres
  rcases hx : (BufferedFile.stream fs).source.readEntry.exec image.reader.stream with ⟨rx, s⟩
  rw [hx] at hres
  cases hres
  refine ⟨{ image with reader := ⟨s, image.reader.header, decoded⟩ }, ?_⟩
  rw [exec_next, Reader.next, exec_ofFn, if_neg hpos, hx, h.decoded]
  rfl

theorem Stands.trailing (h : Stands fs i image header decoded bs) :
    ∃ image', (ImageFile.trailing fs).exec image = (.ok bs.length, image') := by
  obtain ⟨s, hdrain, -⟩ := (BufferedFile.honest_holds fs i).drain h.holds
  refine ⟨{ image with reader := { image.reader with stream := s } }, ?_⟩
  rw [ImageFile.trailing, onReader, exec_ofFn, Reader.trailing, Reader.onStream, exec_onPart, hdrain]
  rfl

end ImageFile

end FlatArchive
