-- SUMMARY: The names that a path consists of, paths that end in a name, and their parents.
import FlatArchive.Proofs.Moves

/-!
# Names

A path none of whose components is stray is a list of names, and its moves go down along them. Spelled
differently, the same names may end in a slash or in `/.`, which ask for a directory. A path that does
not (`EndsInName`) has the last name as its last step, and so has its parent, as long as there are
names left.
-/

namespace FlatArchive

namespace Component

/-- The name of an ordinary component. -/
def name? : Component → Option Bytes
  | normal name => some name
  | root | current | parent => none

end Component

namespace Path

variable {p q : Path}

/-! ## Names -/

/-- The names among the components of a path. -/
def names (p : Path) : List Bytes := p.components.filterMap Component.name?

/-- Segments none of which leads up lead down along those that count. -/
theorem moves_segments {segments : List Bytes} (h : [dot, dot] ∉ segments) :
    Step.moves (segments.filterMap Step.ofSegment) =
      (segments.filter fun segment => segment ≠ [] ∧ segment ≠ [dot]).map .down := by
  induction segments with
  | nil => rfl
  | cons segment segments ih =>
    rw [List.mem_cons, not_or] at h
    obtain ⟨hdots, hrest⟩ := h
    by_cases hnil : segment = []
    · rw [List.filterMap_cons_none (by simp [Step.ofSegment, hnil]), ih hrest,
        List.filter_cons_of_neg (by simp [hnil])]
    · by_cases hdot : segment = [dot]
      · have hstep : Step.ofSegment segment = some .here := by simp [Step.ofSegment, hdot]
        rw [List.filterMap_cons_some hstep, Step.moves_here, ih hrest,
          List.filter_cons_of_neg (by simp [hdot])]
      · have hstep : Step.ofSegment segment = some (.down segment) := by
          simp [Step.ofSegment, hnil, hdot, Ne.symm hdots]
        rw [List.filterMap_cons_some hstep, Step.moves_down, ih hrest,
          List.filter_cons_of_pos (by simp [hnil, hdot]), List.map_cons]

/-- The names of a path of ordinary names are its segments that count. -/
theorem names_eq_counted (h : p.stray? = none) : p.names = p.counted := by
  rw [names, components_of_stray?_eq_none h, List.filterMap_map]
  exact List.filterMap_some

/-- The moves of a path of ordinary names go down along them. -/
theorem moves_eq_names (h : p.stray? = none) : p.moves = p.names.map .down := by
  rw [moves_eq, names_eq_counted h]
  exact moves_segments (stray?_eq_none_iff.1 h).2

theorem names_ne_nil (h : p.stray? = none) (hne : p.bytes ≠ []) : p.names ≠ [] := by
  intro hnil
  have hmoves := moves_ne_nil_of_stray?_eq_none h hne
  rw [moves_eq_names h, hnil] at hmoves
  exact hmoves rfl

/-- Joining puts the segments of a relative path behind those of the directory, less an empty one at
the end. -/
theorem exists_segments_join (hp : p.bytes ≠ []) (hq : q.isAbsolute = false) :
    ∃ front, (p.join q).segments = front ++ q.segments ∧ front ≠ []
      ∧ (p.segments = front ∨ p.segments = front ++ [[]]) := by
  unfold join
  rw [hq, if_neg Bool.false_ne_true]
  split_ifs with hend
  · have hlast : p.bytes.getLast? = some slash := by
      simpa [List.isEmpty_iff, hp] using hend
    obtain ⟨front, hfront⟩ := List.getLast?_eq_some_iff.1 hlast
    refine ⟨front.splitOn slash, ?_, List.splitOn_ne_nil slash front, .inr ?_⟩
    · rw [hfront, List.append_assoc]
      exact List.splitOn_append_cons_self ..
    · rw [segments, hfront, List.splitOn_append_cons_self, List.splitOn_nil]
  · exact ⟨p.segments, List.splitOn_append_cons_self .., List.splitOn_ne_nil slash p.bytes, .inl rfl⟩

/-- A name in a directory is the file name of its path. -/
theorem fileName?_join (hp : p.bytes ≠ []) {name : Bytes} (hslash : slash ∉ name)
    (hname : Step.ofSegment name = some (.down name)) : (p.join ⟨name⟩).fileName? = some name := by
  have hcomponent := component_of_ofSegment hname
  obtain ⟨front, hsegments, -⟩ := exists_segments_join hp (isAbsolute_of_no_slash hslash)
  rw [segments_of_no_slash hslash] at hsegments
  simp [fileName?, components, hsegments, hcomponent]

/-! ## Paths that end in a name -/

/-- The path ends neither in a slash nor in a `.` behind one. -/
def EndsInName (p : Path) : Prop := ¬[slash] <:+ p.bytes ∧ ¬[slash, dot] <:+ p.bytes

/-- A text is a last segment, with a slash before it unless it is the only one. -/
theorem exists_last_segment (bs : Bytes) :
    ∃ segment, slash ∉ segment ∧ (bs = segment ∨ ∃ front, bs = front ++ slash :: segment) := by
  induction bs with
  | nil => exact ⟨[], List.not_mem_nil, .inl rfl⟩
  | cons b bs ih =>
    obtain ⟨segment, hslash, rfl | ⟨front, rfl⟩⟩ := ih
    · by_cases hb : b = slash
      · subst hb
        exact ⟨bs, hslash, .inr ⟨[], rfl⟩⟩
      · refine ⟨b :: bs, ?_, .inl rfl⟩
        rw [List.mem_cons, not_or]
        exact ⟨Ne.symm hb, hslash⟩
    · exact ⟨segment, hslash, .inr ⟨b :: front, rfl⟩⟩

/-- The last step of a path that ends in a name is its last move. -/
theorem ofPath_of_endsInName (h : p.EndsInName) {moves : List Step} {last : Step}
    (hmoves : p.moves = moves ++ [last]) :
    ∃ front, Step.ofPath p = front ++ [last] ∧ Step.moves front = moves := by
  obtain ⟨bs⟩ := p
  obtain ⟨segment, hslash, rfl | ⟨front, rfl⟩⟩ := exists_last_segment bs
  · have hne : bs ≠ [] := by
      rintro rfl
      simp at hmoves
    have hdot : bs ≠ [dot] := by
      rintro rfl
      simp at hmoves
    obtain ⟨s, hs, hone⟩ := moves_segment hslash hne hdot
    rw [hone] at hmoves
    rcases List.append_eq_singleton_iff.1 hmoves.symm with ⟨rfl, hlast⟩ | ⟨-, hlast⟩
    · cases hlast
      exact ⟨[], ofPath_segment hslash hs, rfl⟩
    · cases hlast
  · have hne : segment ≠ [] := by
      rintro rfl
      exact h.1 (List.suffix_append front [slash])
    have hdot : segment ≠ [dot] := by
      rintro rfl
      exact h.2 (List.suffix_append front [slash, dot])
    obtain ⟨s, hs, hone⟩ := moves_segment hslash hne hdot
    rw [moves_append_slash, hone] at hmoves
    obtain ⟨hfront, hlast⟩ := List.append_inj' hmoves rfl
    cases hlast
    exact ⟨_, by rw [ofPath_append front hne, ofPath_segment hslash hs], by rw [← moves_eq, hfront]⟩

/-- The last step of a path that does not end in a name asks for a directory. -/
theorem getLast?_ofPath (h : ¬p.EndsInName) :
    (Step.ofPath p).getLast? = some .here ∨ (Step.ofPath p).getLast? = some .closing := by
  obtain ⟨bs⟩ := p
  rw [EndsInName, not_and_or, not_not, not_not] at h
  rcases h with ⟨front, rfl⟩ | ⟨front, rfl⟩
  · right
    simp [Step.ofPath]
  · left
    have hdot : slash ∉ [dot] := by decide
    rw [ofPath_append front (List.cons_ne_nil dot []), ofPath_segment hdot (s := .here) rfl,
      List.getLast?_concat]

/-! ## Joining and parents -/

/-- Joining puts a path behind another. -/
theorem suffix_join (hrel : q.isAbsolute = false) : q.bytes <:+ (p.join q).bytes := by
  unfold join
  rw [hrel, if_neg Bool.false_ne_true]
  split_ifs
  · exact List.suffix_append p.bytes q.bytes
  · exact (List.suffix_cons slash q.bytes).trans (List.suffix_append p.bytes _)

theorem endsInName_join (h : q.EndsInName) (hstray : q.stray? = none) (hne : q.bytes ≠ []) :
    (p.join q).EndsInName := by
  have hsuffix : q.bytes <:+ (p.join q).bytes := suffix_join (isAbsolute_of_stray?_eq_none hstray)
  have hshort : ∀ {end_ : Bytes}, end_ <:+ (p.join q).bytes → end_.length ≤ q.bytes.length →
      end_ <:+ q.bytes := fun hend hlen => List.suffix_of_suffix_length_le hend hsuffix hlen
  have hpos := List.length_pos_iff.2 hne
  refine ⟨fun hend => h.1 (hshort hend hpos), fun hend => ?_⟩
  by_cases hlen : 2 ≤ q.bytes.length
  · exact h.2 (hshort hend hlen)
  · -- A single byte in that place would be a dot, and the path a stray one.
    have hone : q.bytes.length = 1 := by omega
    have hdot : q.bytes <:+ [slash, dot] :=
      List.suffix_of_suffix_length_le hsuffix hend (by simp [hone])
    have heq : q.bytes = [dot] :=
      (List.suffix_iff_eq_drop.1 hdot).trans (by rw [hone]; rfl)
    have hmoves := moves_ne_nil_of_stray?_eq_none hstray hne
    obtain ⟨bs⟩ := q
    simp only at heq
    subst heq
    exact hmoves rfl

/-- What is left begins with a slash only if it is that of the root. -/
theorem trimBack_eq_slash {bs rest : Bytes} (h : trimBack bs = slash :: rest) : rest = [] := by
  fun_induction trimBack bs with
  | case1 => cases h
  | case2 a =>
    cases h
    rfl
  | case3 b rest' ih => exact ih h
  | case4 a b rest' hslash hdot ih => exact ih h
  | case5 a b rest' hslash hdot =>
    cases h
    exact absurd rfl hslash

/-- A path that leads somewhere has a parent. -/
theorem exists_parent (h : p.moves ≠ []) : ∃ q, p.parent = some q := by
  have htrimmed : p.moves = moves ⟨(trimBack p.bytes.reverse).reverse⟩ := by
    rw [moves_trimBack, List.reverse_reverse]
  unfold parent
  split
  · next htrim =>
    rw [htrim] at htrimmed
    exact absurd htrimmed h
  · next a rest htrim =>
    split_ifs with ha
    · subst ha
      rw [htrim, trimBack_eq_slash htrim] at htrimmed
      exact absurd htrimmed h
    · exact ⟨_, rfl⟩

theorem endsInName_parent (h : p.parent = some q) (hne : q.moves ≠ []) : q.EndsInName := by
  obtain ⟨bs, hq⟩ : ∃ bs, q.bytes = (trimBack bs).reverse := by
    unfold parent at h
    split at h
    · cases h
    · split_ifs at h
      cases h
      exact ⟨_, rfl⟩
  constructor
  · rintro ⟨front, hfront⟩
    have htrim : trimBack bs = slash :: front.reverse := by
      rw [← List.reverse_reverse (trimBack bs), ← hq, ← hfront, List.reverse_append]
      rfl
    have hroot : q = ⟨[slash]⟩ := by
      obtain ⟨qs⟩ := q
      simp only at hq
      rw [hq, htrim, trimBack_eq_slash htrim]
      rfl
    rw [hroot] at hne
    exact hne rfl
  · rintro ⟨front, hfront⟩
    refine trimBack_ne_dot_slash bs front.reverse ?_
    rw [← List.reverse_reverse (trimBack bs), ← hq, ← hfront, List.reverse_append]
    rfl

end Path

end FlatArchive
