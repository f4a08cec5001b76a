-- SUMMARY: What an open image still has to give once its file was overwritten while it was read.
import FlatArchive.Proofs.ImageFile

/-!
# Reading ahead

An open image has read a part of its file into its buffer, up to an offset that only grows. If the
file is overwritten with a content that ends before the offset, nothing of the new content is ever
read: what the buffer holds is still to come, as it was, and then the image ends.
-/

namespace FlatArchive

open Attempt

/-- What every read keeps may be added to what a stream honestly has to come. -/
theorem Stream.Honest.and {σ : Type} {st : Stream σ} {rest : σ → Bytes → Prop} {P : σ → Prop}
    (h : st.Honest rest) (hread : ∀ {s n answer s'}, P s → st.read s n = (answer, s') → P s') :
    st.Honest fun s bs => rest s bs ∧ P s where
  bytes := by
    rintro s n bs got s' ⟨hs, hP⟩ hexec
    obtain ⟨tail, hbs, hs'⟩ := h.bytes hs hexec
    exact ⟨tail, hbs, hs', hread hP hexec⟩
  nothing := fun hs hexec => h.nothing hs.1 hexec
  interrupted := fun hs hexec => ⟨h.interrupted hs.1 hexec, hread hs.2 hexec⟩
  not_failed := fun hs => h.not_failed hs.1

theorem BufferedFile.offset_le_of_read (fs : FileSystem) (b : BufferedFile) (n : Nat) :
    b.file.offset ≤ (b.read fs n).2.file.offset := by
  unfold read
  split
  · exact Nat.le_add_right _ _
  · split
    · exact Nat.le_add_right _ _
    · exact Nat.le_refl _

namespace ImageFile

/-- The bytes of the file up to here were read, perhaps ahead. -/
def offset (image : ImageFile) : Nat := image.reader.stream.file.offset

/-- What was read ahead. -/
def ahead (image : ImageFile) : Bytes := image.reader.stream.buffer

namespace Stands

variable {fs fs' : FileSystem} {i : NodeId} {image image' : ImageFile} {header : Header}
  {decoded : Nat} {bs : Bytes}

theorem eq_ahead_append (h : Stands fs i image header decoded bs) :
    bs = image.ahead ++ (fs.content i).drop image.offset := by
  obtain ⟨rfl, rfl⟩ := h.holds
  rfl

/-- The next step does not go back in the file, whatever it comes to. -/
theorem offset_le_of_next (h : Stands fs i image header decoded bs)
    {result : Except Error (Option (Nat × Entry))} (hnext : (next fs).exec image = (result, image')) :
    image.offset ≤ image'.offset := by
  have hpast := (BufferedFile.honest_holds fs i).and (P := fun b => image.offset ≤ b.file.offset)
    (by
      rintro b n answer b' hle hread
      cases hread
      exact Nat.le_trans hle (BufferedFile.offset_le_of_read fs b n))
  obtain ⟨-, -, hoffset⟩ :=
    Source.follows_readEntry hpast.reads image.reader.stream bs ⟨h.holds, Nat.le_refl _⟩
  rw [exec_next, Reader.next, exec_ofFn] at hnext
  rcases hread : (BufferedFile.stream fs).source.readEntry.exec image.reader.stream with ⟨_ | _, s⟩
  all_goals
    rw [hread] at hnext hoffset
    split at hnext
    · cases hnext
      exact Nat.le_refl _
    · cases hnext
      exact hoffset

/-- Once the file ends before the offset, only what was read ahead is still to come. -/
theorem overwritten (h : Stands fs i image header decoded bs)
    (hle : (fs'.content i).length ≤ image.offset) :
    Stands fs' i image header decoded image.ahead := by
  refine ⟨h.header, h.decoded, h.holds.1, ?_⟩
  have hend : (fs'.content i).drop image.offset = [] := List.drop_of_length_le hle
  rw [BufferedFile.text, OpenFile.text, h.holds.1, ← ImageFile.offset, hend, List.append_nil,
    ImageFile.ahead]

end Stands

end ImageFile

end FlatArchive
