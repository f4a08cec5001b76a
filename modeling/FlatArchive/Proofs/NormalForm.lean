-- SUMMARY: What changes when an entry that was read is written again, and that it changes only once.
import FlatArchive.Proofs.Decoding

/-!
# Writing again what was read

More bytes can be read as a record than are written: a name may fill its whole field, and behind the
zero that ends it there may be anything. An entry that was read and is written again gets a record of
the same length in which only the name field differs: what fits is as it was, and zeros follow. This
record is a normal form. It is read as the entry with its name cut to what fits, and writing that
gives the same record.

So a loop that reads an image to its end and writes each entry again can compare the lengths, and it
has consumed what it has written.
-/

namespace FlatArchive

open Attempt Text

/-- An entry with its name cut to what fits the field. -/
def Entry.fitted (e : Entry) : Entry := ⟨Name.fit e.name, e.content⟩

/-- Cutting the name beforehand makes no difference to what is written. -/
theorem Entry.encode_fitted (e : Entry) : e.fitted.encode = e.encode := by
  have hfield : Name.toField (Name.fit e.name) = Name.toField e.name := by
    rw [Name.toField, Name.toField, Name.fit_fit]
  simp only [encode, head, fitted, Head.ofName, Head.toBytes, hfield]

/-! ## One record -/

namespace Record

variable (r : Record)

theorem length_content_lt : r.content.length < 2 ^ 64 := by
  rw [r.length_content]
  exact r.head.size.toNat_lt

/-- Its entry is written with the size and the content of the record. -/
theorem encode_entry : r.entry.encode =
    Bytes.ofNat Head.sizeWidth r.head.size.toNat ++ Name.toField r.name ++ r.content := by
  have hsize : UInt64.ofNat r.content.length = r.head.size := by
    rw [r.length_content, UInt64.ofNat_toNat]
  simp only [entry, Entry.encode, Entry.head, Head.ofName, Head.toBytes, hsize]

theorem encode_entry_eq_iff : r.entry.encode = r.bytes ↔
    r.head.nameBytes.length ≤ Name.maxLength
      ∧ ∀ b ∈ r.head.nameField.drop r.head.nameBytes.length, b = 0 := by
  rw [encode_entry, bytes, Head.toBytes, List.append_cancel_right_eq, List.append_cancel_left_eq,
    Name.toField_eq_iff r.head.length_nameField r.encode_name, r.encode_name]

/-- A name that was read has no zero, so all of it that fits is read back. -/
theorem kept_entry : r.entry.kept = r.entry.fitted := by
  have hname : Name.kept r.name = Name.fit r.name := Name.kept_eq_fit r.encode_name
  rw [Entry.kept, Entry.fitted, entry, hname]

theorem fitted_entry_iff : r.entry.fitted = r.entry ↔ r.head.nameBytes.length ≠ Name.fieldSize := by
  have hle := Name.length_encode_le r.head.length_nameField r.encode_name
  rw [r.encode_name] at hle
  rw [Entry.fitted, entry, Entry.mk.injEq, and_iff_left rfl, Name.fit_eq_self_iff, r.encode_name]
  simp only [Name.maxLength, Name.fieldSize] at hle ⊢
  omega

end Record

/-! ## Reading -/

namespace Bytes

variable {n : Nat} {bs rest : Bytes} {e : Entry}

/-- An entry is read where a record stands. -/
theorem readEntry_eq_ok_iff : source.readEntry.exec bs = (.ok e, rest) ↔
    ∃ r : Record, bs = r.bytes ++ rest ∧ e = r.entry := by
  constructor
  · intro h
    rcases record_or_damage bs with ⟨r, rest', rfl⟩ | ⟨damage, hdamage⟩
    · rw [readEntry_record] at h
      cases h
      exact ⟨r, rfl, rfl⟩
    · obtain ⟨rest', hread⟩ := readEntry_damage hdamage
      rw [hread] at h
      cases h
  · rintro ⟨r, rfl, rfl⟩
    exact readEntry_record r rest

theorem readHeader_eq_ok_iff {header : Header} :
    source.readHeader.exec bs = (.ok header, rest) ↔ bs = header.toBytes ++ rest := by
  constructor
  · intro h
    cases bs with
    | nil => cases h
    | cons n bs =>
      rw [ImageFile.readHeader_cons] at h
      cases h
      rfl
  · rintro rfl
    exact ImageFile.readHeader_cons header.byte rest

/-- Reading entries goes past the records that come first, and on from there. -/
theorem readEntries_append (rs : List Record) (n : Nat) (rest : Bytes) :
    source.readEntries (rs.length + n) (rs.flatMap Record.bytes ++ rest) =
      ((rs.map Record.entry ++ (source.readEntries n rest).1.1, (source.readEntries n rest).1.2),
        (source.readEntries n rest).2) := by
  induction rs with
  | nil => simp
  | cons r rs ih =>
    rw [List.flatMap_cons, List.append_assoc, List.length_cons, Nat.add_right_comm,
      Source.readEntries, readEntry_record]
    dsimp only
    rw [ih, List.map_cons, List.cons_append]

/-- The entries that were read stand in records, one behind the other, and if there was no error
these are all that were asked for. -/
theorem records_of_readEntries {entries : List Entry} {err : Option FormatError}
    (h : source.readEntries n bs = ((entries, err), rest)) :
    ∃ rs : List Record, entries = rs.map Record.entry
      ∧ (err = none → rs.length = n ∧ bs = rs.flatMap Record.bytes ++ rest) := by
  rcases records_or_damage n bs with ⟨rs, rest', rfl, rfl⟩ | ⟨rs, bad, damage, hlt, rfl, hdamage⟩
  · have hread := readEntries_append rs 0 rest'
    rw [Nat.add_zero, h, Source.readEntries, List.append_nil] at hread
    cases hread
    exact ⟨rs, rfl, fun _ => ⟨rfl, rfl⟩⟩
  · obtain ⟨m, rfl⟩ := Nat.exists_eq_add_of_lt hlt
    obtain ⟨rest', hbad⟩ := readEntry_damage hdamage
    have hread := readEntries_append rs (m + 1) bad
    rw [← Nat.add_assoc, h, Source.readEntries, hbad, List.append_nil] at hread
    cases hread
    refine ⟨rs, rfl, fun hnone => ?_⟩
    cases hnone

/-- Every entry that can be read is written as a record of the same length, with the same size and
content and a name field that starts with the same bytes, as many as fit, and ends in zeros. This is
the record that was read if its name ended within 255 bytes and zeros followed it. It is read as the
entry with the name that fits, which is the entry itself unless its name filled the field, and this
is written as the same record again.

So the lengths agree for each entry that a loop over an image comes to, and a loop that reads all has
consumed the header and as many bytes as the sizes say. -/
theorem encode_of_readEntry :
    (∀ {bs rest : Bytes} {e : Entry}, source.readEntry.exec bs = (.ok e, rest) →
      ∃ r : Record, bs = r.bytes ++ rest ∧ e = r.entry
        ∧ e.encode.length = r.bytes.length
        ∧ e.encode = Bytes.ofNat Head.sizeWidth r.head.size.toNat
            ++ (r.head.nameField.take (Utf8.encode (Name.fit e.name)).length
              ++ List.replicate (Name.fieldSize - (Utf8.encode (Name.fit e.name)).length) 0)
            ++ r.content
        ∧ (e.encode = r.bytes ↔ r.head.nameBytes.length ≤ Name.maxLength
            ∧ ∀ b ∈ r.head.nameField.drop r.head.nameBytes.length, b = 0)
        ∧ (∀ rest', source.readEntry.exec (e.encode ++ rest') = (.ok e.fitted, rest'))
        ∧ (e.fitted = e ↔ r.head.nameBytes.length ≠ Name.fieldSize)
        ∧ e.fitted.encode = e.encode)
      ∧ ∀ {data bs rest : Bytes} {header : Header} {entries : List Entry} {err : Option FormatError},
          source.readHeader.exec data = (.ok header, bs) →
          source.readEntries header.count bs = ((entries, err), rest) →
          (∀ e ∈ entries, e.encode.length = Head.length + e.content.length)
            ∧ (err = none → entries.length = header.count ∧ ∃ consumed, data = consumed ++ rest
                ∧ consumed.length = 1 + (entries.map fun e => Head.length + e.size).sum) := by
  refine ⟨?_, ?_⟩
  · intro bs rest e hread
    obtain ⟨r, rfl, rfl⟩ := readEntry_eq_ok_iff.1 hread
    refine ⟨r, rfl, rfl, by simp [Record.entry], ?_, r.encode_entry_eq_iff, ?_, r.fitted_entry_iff,
      r.entry.encode_fitted⟩
    · rw [r.encode_entry, Name.toField_eq_take r.encode_name]
      rfl
    · intro rest'
      rw [← r.kept_entry]
      exact readEntry_encode r.length_content_lt rest'
  · intro data bs rest header entries err hheader hread
    refine ⟨fun e _ => e.length_encode, ?_⟩
    rintro rfl
    obtain ⟨rs, rfl, hall⟩ := records_of_readEntries hread
    obtain ⟨hlen, rfl⟩ := hall rfl
    rw [readHeader_eq_ok_iff.1 hheader, ← List.append_assoc]
    refine ⟨by rw [List.length_map, hlen], _, rfl, ?_⟩
    rw [List.length_append, List.length_flatMap, List.map_map]
    congr 3
    funext r
    simp [Record.entry, Entry.size]

/-- A name of 128 characters of two bytes each fills its field, so that no zero ends it. When it is
written again its last character is cut. An image of this record alone has 266 bytes. -/
theorem encode_of_full_field :
    let field := Utf8.encodeList (List.replicate 128 'é')
    ∃ r : Record, r.head.nameField = field ∧ r.content = [7]
      ∧ source.readEntry.exec (r.bytes ++ [9]) = (.ok r.entry, [9])
      ∧ r.entry.encode.length = r.bytes.length ∧ r.entry.encode ≠ r.bytes
      ∧ r.entry.fitted ≠ r.entry
      ∧ source.readEntry.exec (r.entry.encode ++ []) = (.ok r.entry.fitted, [])
      ∧ source.readEntries 1 (r.bytes ++ [9]) = (([r.entry], none), [9])
      ∧ ∃ consumed, 1 :: (r.bytes ++ [9]) = consumed ++ [9] ∧ consumed.length = 266 := by
  intro field
  have hlen : field.length = Name.fieldSize := by decide +kernel
  have hentire : Utf8.encode (String.ofList (List.replicate 128 'é')) = field := by
    rw [Utf8.encode, String.toList_ofList]
  have hname : Utf8.encode (String.ofList (List.replicate 128 'é')) = Name.ofField field := by
    rw [hentire, Name.ofField, Name.takeWhile_encodeList, List.takeWhile_replicate]
    rfl
  let r : Record := ⟨⟨1, field, hlen⟩, _, [7], hname, rfl⟩
  have hread := readEntry_record r [9]
  obtain ⟨r', hbytes, hentry, hlength, -, hsame, hback, hfitted, -⟩ := encode_of_readEntry.1 hread
  have hfull : r'.head.nameBytes.length = Name.fieldSize := by
    have hr' : r'.name = String.ofList (List.replicate 128 'é') := congrArg Entry.name hentry.symm
    rw [← r'.encode_name, hr', hentire, hlen]
  rw [← List.append_cancel_right hbytes] at hlength hsame
  have hheader := ImageFile.readHeader_cons 1 (r.bytes ++ [9])
  have hentries : source.readEntries 1 (r.bytes ++ [9]) = (([r.entry], none), [9]) := by
    simpa [Source.readEntries] using readEntries_append [r] 0 [9]
  obtain ⟨-, hdone⟩ := encode_of_readEntry.2 hheader hentries
  obtain ⟨-, hconsumed⟩ := hdone rfl
  refine ⟨r, rfl, rfl, hread, hlength, ?_, ?_, hback [], hentries, hconsumed⟩
  · intro h
    obtain ⟨hle, -⟩ := hsame.1 h
    rw [hfull] at hle
    exact absurd hle (by decide)
  · intro h
    exact hfitted.1 h hfull

end Bytes

end FlatArchive
