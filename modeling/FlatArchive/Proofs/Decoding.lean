-- SUMMARY: Reading undoes writing, for every list of entries and whatever bytes follow them.
import FlatArchive.Proofs.ImageFile
import FlatArchive.Proofs.NameField

/-!
# Decoding what was encoded

Every entry is written as a record, whatever its name: what does not fit the field is cut, and what is
behind a zero is not read back. So the records behind a header are read one after another without
error, each with the content that it was written with, and what follows them is left.
-/

namespace FlatArchive

open Attempt Text

namespace Entry

/-- What an entry is read back as once it was written. -/
def kept (e : Entry) : Entry := ⟨Name.kept e.name, e.content⟩

@[simp] theorem name_kept (e : Entry) : e.kept.name = Name.kept e.name := by rw [kept]

@[simp] theorem content_kept (e : Entry) : e.kept.content = e.content := by rw [kept]

/-- An entry is kept as it is if its name fits the field and has no zero byte. -/
theorem kept_of_fits {e : Entry} (hlen : (Utf8.encode e.name).length ≤ Name.maxLength)
    (hzero : 0 ∉ Utf8.encode e.name) : e.kept = e := by
  rw [kept, Name.kept_of_fits hlen hzero]

/-- The length of a content is what the head says if it is a number of 64 bits. -/
theorem size_head {e : Entry} (hsize : e.content.length < 2 ^ 64) :
    e.content.length = e.head.size.toNat := by
  rw [head, Head.ofName, UInt64.toNat_ofNat']
  exact (Nat.mod_eq_of_lt hsize).symm

end Entry

/-- The record that an entry is written as. The length of its content must be a number of 64 bits. -/
def Record.written (e : Entry) (hsize : e.content.length < 2 ^ 64) : Record where
  head := e.head
  name := Name.kept e.name
  content := e.content
  encode_name := (Name.ofField_toField_eq e.name).symm
  length_content := Entry.size_head hsize

namespace Bytes

theorem readEntry_encode {e : Entry} (hsize : e.content.length < 2 ^ 64) (rest : Bytes) :
    source.readEntry.exec (e.encode ++ rest) = (.ok e.kept, rest) :=
  readEntry_record (Record.written e hsize) rest

theorem readEntries_encode {entries : List Entry}
    (hsize : ∀ e ∈ entries, e.content.length < 2 ^ 64) (rest : Bytes) :
    source.readEntries entries.length (entries.flatMap Entry.encode ++ rest) =
      ((entries.map Entry.kept, none), rest) := by
  induction entries with
  | nil => rfl
  | cons e entries ih =>
    obtain ⟨he, hentries⟩ := List.forall_mem_cons.1 hsize
    rw [List.flatMap_cons, List.append_assoc, List.length_cons, Source.readEntries,
      readEntry_encode he]
    dsimp only
    rw [ih hentries, List.map_cons]

/-- An image that was written is read back in full. There may be 1 to 255 entries, and their names are
any texts; the contents are as long as a byte string in memory can be. Their number comes back, and of
each entry its content with what its field keeps of the name: what fits, up to the first zero byte.
This is the entry itself if its name has at most 255 bytes and no zero among them. What follows the
image is left unread. -/
theorem readEntries_of_written {entries : List Entry} (hpos : 0 < entries.length)
    (hle : entries.length ≤ maxEntries) (hsize : ∀ e ∈ entries, e.content.length < 2 ^ 64)
    (rest : Bytes) :
    ∃ header : Header, Header.ofCount entries.length = .ok header ∧ header.count = entries.length
      ∧ source.readHeader.exec (header.toBytes ++ (entries.flatMap Entry.encode ++ rest)) =
          (.ok header, entries.flatMap Entry.encode ++ rest)
      ∧ source.readEntries header.count (entries.flatMap Entry.encode ++ rest) =
          ((entries.map Entry.kept, none), rest)
      ∧ ∀ e ∈ entries, e.kept.content = e.content
          ∧ Utf8.encode e.kept.name = (Utf8.encode (Name.fit e.name)).takeWhile (· != 0)
          ∧ ((Utf8.encode e.name).length ≤ Name.maxLength → 0 ∉ Utf8.encode e.name → e.kept = e) := by
  have hcount := Header.ofCount_of_le hpos hle
  have hheader := Header.count_of_ofCount hcount
  refine ⟨_, hcount, hheader, ImageFile.readHeader_cons _ _, ?_, ?_⟩
  · rw [hheader]
    exact readEntries_encode hsize rest
  · intro e _
    rw [Entry.name_kept, Entry.content_kept, Name.encode_kept]
    exact ⟨rfl, rfl, Entry.kept_of_fits⟩

/-- Two entries, one with a name that is too long for its field and one with a zero in its name, and a
byte behind them. -/
theorem readEntries_of_cut_names :
    let long : Entry := ⟨String.ofList (List.replicate 300 'x'), [1, 2, 3]⟩
    let zero : Entry := ⟨"a\x00b", []⟩
    source.readEntries 2 ([long, zero].flatMap Entry.encode ++ [9]) =
        (([long.kept, zero.kept], none), [9])
      ∧ Utf8.encode zero.kept.name = [0x61] := by
  intro long zero
  have hsize : ∀ e ∈ [long, zero], e.content.length < 2 ^ 64 := by
    rw [List.forall_mem_cons, List.forall_mem_singleton]
    exact ⟨by decide, by decide⟩
  have hpos : 0 < [long, zero].length := by decide
  obtain ⟨header, -, hcount, -, hread, hkept⟩ :=
    readEntries_of_written hpos (by decide) hsize [9]
  obtain ⟨-, hname, -⟩ := hkept zero (by simp)
  have hfit : Name.fit zero.name = zero.name := Name.fit_of_length_le (by decide)
  rw [hcount] at hread
  refine ⟨hread, ?_⟩
  rw [hname, hfit]
  decide

end Bytes

end FlatArchive
