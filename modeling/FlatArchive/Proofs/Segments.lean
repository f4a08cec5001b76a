-- SUMMARY: The segments of texts and of joined paths, and the names that may be unpacked below a directory.
import FlatArchive.Proofs.Names
import FlatArchive.Proofs.Unpacking

/-!
# Segments

A slash is the encoding of one character and part of no other, so the segments of a text are the
texts between its slashes, encoded. Joining puts the segments of one path behind those of the other.

From this follows which names may be unpacked below a directory, and that they lead there: joined to
any directory, such a name adds its segments that count, as ordinary names.
-/

namespace FlatArchive

open Text Utf8

/-! ## Texts -/

namespace Path

theorem slash_mem_encodeChar {c : Char} : slash ∈ String.utf8EncodeChar c ↔ c = '/' := by
  rw [mem_encodeChar_of_ascii (by decide), ← Char.toNat_inj]
  rfl

/-- Splitting after a part without slashes. -/
theorem splitOn_append_of_no_slash {a : Bytes} (h : slash ∉ a) (b : Bytes) :
    (a ++ b).splitOn slash = (b.splitOn slash).modifyHead (a ++ ·) := by
  induction a with
  | nil => exact (congrFun List.modifyHead_id _).symm
  | cons x a ih =>
    rw [List.mem_cons, not_or] at h
    have hx : (x == slash) = false := by simpa using Ne.symm h.1
    rw [List.cons_append, List.splitOn_cons_eq_if_modifyHead, hx, if_neg Bool.false_ne_true, ih h.2,
      List.modifyHead_modifyHead]
    rfl

theorem splitOn_encodeList (cs : List Char) :
    (encodeList cs).splitOn slash = (cs.splitOn '/').map encodeList := by
  induction cs with
  | nil => rfl
  | cons c cs ih =>
    rw [encodeList_cons, List.splitOn_cons_eq_if_modifyHead]
    split_ifs with hc
    · have hc : c = '/' := by simpa using hc
      subst hc
      have hslash : String.utf8EncodeChar '/' = [] ++ [slash] := rfl
      rw [hslash, List.append_assoc, List.singleton_append, List.splitOn_append_cons_self, ih]
      rfl
    · have hc : slash ∉ String.utf8EncodeChar c := by simpa [slash_mem_encodeChar] using hc
      obtain ⟨first, others, hsplit⟩ := List.exists_cons_of_ne_nil (List.splitOn_ne_nil '/' cs)
      rw [splitOn_append_of_no_slash hc, ih, hsplit]
      simp

/-- The segments of a text are the texts between its slashes. -/
theorem segments_ofString (s : String) :
    (ofString s).segments = (s.toList.splitOn '/').map encodeList :=
  splitOn_encodeList s.toList

theorem isAbsolute_ofString (s : String) :
    (ofString s).isAbsolute = true ↔ s.toList.head? = some '/' := by
  rw [isAbsolute, beq_iff_eq]
  change (encodeList s.toList).head? = some slash ↔ _
  cases s.toList with
  | nil => simp
  | cons c cs =>
    obtain ⟨b, bs, -, hc, -⟩ := spelling_encodeChar c
    rw [encodeList_cons, hc, List.cons_append, List.head?_cons, List.head?_cons, Option.some.injEq,
      Option.some.injEq]
    constructor
    · rintro rfl
      exact slash_mem_encodeChar.1 (hc ▸ List.mem_cons_self)
    · rintro rfl
      exact (List.cons.inj hc).1.symm

theorem head?_segments_ofString (s : String) :
    (ofString s).segments.head? = some [dot] ↔ (s.toList.splitOn '/').head? = some ['.'] := by
  have hdot : [dot] = encodeList ['.'] := rfl
  rw [segments_ofString, List.head?_map, hdot, ← Option.map_some,
    (Option.map_injective encodeList_injective).eq_iff]

theorem dots_mem_segments_ofString (s : String) :
    [dot, dot] ∈ (ofString s).segments ↔ ['.', '.'] ∈ s.toList.splitOn '/' := by
  have hdots : [dot, dot] = encodeList ['.', '.'] := rfl
  rw [segments_ofString, hdots, List.mem_map_of_injective encodeList_injective]

theorem counted_ofString (s : String) :
    (ofString s).counted =
      ((s.toList.splitOn '/').filter fun segment => segment ≠ [] ∧ segment ≠ ['.']).map encodeList := by
  have hnil : ∀ cs, encodeList cs = [] ↔ cs = [] := fun cs => encodeList_injective.eq_iff' rfl
  have hdot : ∀ cs, encodeList cs = [dot] ↔ cs = ['.'] := fun cs => encodeList_injective.eq_iff' rfl
  rw [counted, segments_ofString, List.filter_map]
  simp only [Function.comp_def, ne_eq, hnil, hdot]

/-! ## Joining -/

variable {p q : Path}

theorem join_of_empty (hp : p.bytes = []) (q : Path) : p.join q = q := by
  simp [join, hp]

theorem leading_join (hp : p.bytes ≠ []) (hq : q.isAbsolute = false) :
    (p.join q).leading = p.leading := by
  obtain ⟨front, hsegments, hfront, hends⟩ := exists_segments_join hp hq
  have hhead : (p.join q).segments.head? = p.segments.head? := by
    obtain ⟨first, others, rfl⟩ := List.exists_cons_of_ne_nil hfront
    rcases hends with hends | hends <;> rw [hsegments, hends] <;> rfl
  rw [leading, leading, isAbsolute_join hp hq, hhead]

/-- The components of a path that nothing leads in front of come behind those of the directory. -/
theorem components_join (hq : q.leading = []) :
    (p.join q).components = p.components ++ q.components := by
  obtain ⟨hrel, -⟩ := leading_eq_nil_iff.1 hq
  by_cases hp : p.bytes = []
  · rw [join_of_empty hp]
    obtain ⟨bs⟩ := p
    cases hp
    rfl
  · obtain ⟨front, hsegments, -, hends⟩ := exists_segments_join hp hrel
    have hfront : p.segments.filterMap Component.ofSegment = front.filterMap Component.ofSegment := by
      rcases hends with hends | hends <;> rw [hends]
      rw [List.filterMap_append]
      exact List.append_nil _
    rw [components, components, components, leading_join hp hrel, hq, hsegments, List.filterMap_append,
      hfront, List.nil_append, List.append_assoc]

end Path

/-! ## Names below a directory -/

/-- A name is refused with the first of its components that is no ordinary name, and with the whole of
it: the slash it begins with, the `.` that is its first segment, or else `..`. All others are accepted,
and joined to any directory they lead down along their segments that count. -/
theorem checkPath_contained (name : String) :
    let segments := name.toList.splitOn '/'
    checkPath name =
        (if name.toList.head? = some '/' then .error (.invalidPath (.ofString name) (.ofString "/"))
        else if segments.head? = some ['.'] then .error (.invalidPath (.ofString name) (.ofString "."))
        else if ['.', '.'] ∈ segments then .error (.invalidPath (.ofString name) (.ofString ".."))
        else .ok (.ofString name))
      ∧ ∀ path, checkPath name = .ok path → ∀ dir : Path,
        (dir.join path).components = dir.components
          ++ (segments.filter fun segment => segment ≠ [] ∧ segment ≠ ['.']).map
            fun segment => .normal (encodeList segment) := by
  intro segments
  constructor
  · simp only [checkPath, Path.stray?_eq, Path.isAbsolute_ofString, Path.head?_segments_ofString,
      Path.dots_mem_segments_ofString]
    split_ifs <;> rfl
  · intro path hcheck dir
    obtain ⟨rfl, hstray⟩ := checkPath_eq_ok hcheck
    rw [Path.components_join (Path.stray?_eq_none_iff.1 hstray).1,
      Path.components_of_stray?_eq_none hstray, Path.counted_ofString, List.map_map]
    rfl

/-- The name `a//./b/` leads from the directory `./c` to `a` and `b` below it. -/
theorem checkPath_contained_spelling :
    checkPath "a//./b/" = .ok (.ofString "a//./b/")
      ∧ (Path.join (.ofString "./c") (.ofString "a//./b/")).components =
        [.current, .normal (encode "c"), .normal (encode "a"), .normal (encode "b")] := by
  have hcheck : checkPath "a//./b/" = .ok (.ofString "a//./b/") := by
    rw [(checkPath_contained "a//./b/").1]
    decide
  refine ⟨hcheck, ?_⟩
  rw [(checkPath_contained "a//./b/").2 _ hcheck]
  decide

end FlatArchive
