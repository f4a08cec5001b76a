-- SUMMARY: The name under which a file is packed, and why it can be unpacked.
import FlatArchive.Proofs.Packing
import FlatArchive.Proofs.Segments

/-!
# Names of entries

A file is packed under the last segment of its path that counts, if that is an ordinary name and text.
Such a name is its own last segment and stays the last one behind any directory, and it is a path of
one ordinary component: what is packed under it can be unpacked.
-/

namespace FlatArchive

open Text.Utf8

variable {p : Path}

namespace Builder

theorem entryName_unnamed_iff :
    entryName p = .error (.invalidInput p "path has no file name") ↔ p.fileName? = none := by
  unfold entryName
  split
  · next hname => simp [hname]
  · next name hname =>
    rw [hname]
    split <;> simp

theorem entryName_notText_iff :
    entryName p = .error (.invalidInput p "file name is not valid UTF-8") ↔
      ∃ name, p.fileName? = some name ∧ ∀ text, encode text ≠ name := by
  unfold entryName
  split
  · next hname => simp [hname]
  · next name hname =>
    rw [hname]
    split
    · next text htext => simp [← decode_eq_ok_iff, htext]
    · next fault hfault => simpa using encode_ne_of_decode_eq_error hfault

end Builder

open Builder

/-! ## The whole of it -/

/-- A path has no file name if no segment of it counts or the last one that does leads up, and one that
is not text if that segment is none. Otherwise its entry is named by this segment. Such a name is not
empty and has no slash; it names its own entry and that of its path in any directory; and as a path it
is one ordinary component. -/
theorem entryName_of_path (p : Path) :
    (entryName p = .error (.invalidInput p "path has no file name") ↔
        p.counted = [] ∨ p.counted.getLast? = some [Path.dot, Path.dot])
      ∧ (entryName p = .error (.invalidInput p "file name is not valid UTF-8") ↔
        ∃ last, p.counted.getLast? = some last ∧ last ≠ [Path.dot, Path.dot]
          ∧ ∀ text, encode text ≠ last)
      ∧ (∀ name, entryName p = .ok name ↔
        p.counted.getLast? = some (encode name) ∧ encode name ≠ [Path.dot, Path.dot])
      ∧ ∀ name, entryName p = .ok name →
        name ≠ "" ∧ '/' ∉ name.toList ∧ entryName (.ofString name) = .ok name
          ∧ (∀ dir : Path, entryName (dir.join (.ofString name)) = .ok name)
          ∧ checkPath name = .ok (.ofString name)
          ∧ (Path.ofString name).components = [.normal (encode name)] := by
  refine ⟨?_, ?_, ?_, ?_⟩
  · rw [entryName_unnamed_iff, Path.fileName?_eq_none_iff]
  · simp only [entryName_notText_iff, Path.fileName?_eq_some_iff, and_assoc]
  · intro name
    rw [entryName_eq_ok_iff, Path.fileName?_eq_some_iff]
  · intro name hname
    obtain ⟨hsegment, hdown⟩ := Path.ofSegment_of_fileName? (entryName_eq_ok_iff.1 hname)
    have hslash := (Path.segment_subset hsegment).1
    have hcomponents : (Path.ofString name).components = [.normal (encode name)] :=
      Path.components_of_ofSegment hslash hdown
    have hself : entryName (.ofString name) = .ok name := by
      rw [entryName_eq_ok_iff, Path.fileName?, hcomponents]
      rfl
    refine ⟨?_, ?_, hself, fun dir => ?_, ?_, hcomponents⟩
    · rintro rfl
      cases hdown
    · intro hmem
      exact hslash (List.mem_flatMap.2 ⟨'/', hmem, Path.slash_mem_encodeChar.2 rfl⟩)
    · by_cases hdir : dir.bytes = []
      · rwa [Path.join_of_empty hdir]
      · exact entryName_eq_ok_iff.2 (Path.fileName?_join hdir hslash hdown)
    · have hstray : (Path.ofString name).stray? = none := Path.stray?_of_ofSegment hslash hdown
      rw [checkPath, hstray]

/-- The file `../é/./b//` is packed as `b`, which in the directory `/` is packed as `b` again. -/
theorem entryName_of_path_spelling :
    entryName (.ofString "../é/./b//") = .ok "b"
      ∧ entryName (Path.join (.ofString "/") (.ofString "b")) = .ok "b"
      ∧ checkPath "b" = .ok (.ofString "b") := by
  obtain ⟨-, -, hname, hkept⟩ := entryName_of_path (.ofString "../é/./b//")
  have hok : entryName (.ofString "../é/./b//") = .ok "b" := (hname "b").2 (by decide)
  obtain ⟨-, -, -, hjoin, hcheck, -⟩ := hkept "b" hok
  exact ⟨hok, hjoin _, hcheck⟩

end FlatArchive
