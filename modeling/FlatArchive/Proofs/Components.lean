-- SUMMARY: The components of a path, told from its segments.
import FlatArchive.Path.Component
import Mathlib.Tactic.SplitIfs

/-!
# Components

What a path consists of can be told from its segments: a slash in front of them, a `.` that is the
first of them, and those that count, which are neither empty nor `.`. Of the components only the one in
front and those that lead up are stray. The file name is the last segment that counts, unless that
leads up.
-/

namespace FlatArchive.Path

variable {p : Path}

/-! ## Segments that count -/

/-- The segments of a path that are neither empty nor `.`. -/
def counted (p : Path) : List Bytes := p.segments.filter fun segment => segment ≠ [] ∧ segment ≠ [dot]

/-- A path consists of what leads in front of it and of the segments that count. -/
theorem components_eq (p : Path) :
    p.components = p.leading ++ p.counted.map fun segment =>
      if segment = [dot, dot] then .parent else .normal segment := by
  rw [components, counted]
  refine congrArg (p.leading ++ ·) ?_
  induction p.segments with
  | nil => rfl
  | cons segment segments ih =>
    by_cases h : segment = [] ∨ segment = [dot]
    · rw [List.filterMap_cons_none (by simp [Component.ofSegment, h]), ih,
        List.filter_cons_of_neg (by simpa [← not_or] using h)]
    · have hsome : Component.ofSegment segment =
          some (if segment = [dot, dot] then .parent else .normal segment) := by
        rw [Component.ofSegment, if_neg h]
        split_ifs <;> rfl
      rw [List.filterMap_cons_some hsome, ih, List.filter_cons_of_pos (by simpa [← not_or] using h),
        List.map_cons]

/-! ## Stray components -/

/-- Among what segments stand for, only what leads up is stray. -/
theorem find?_stray_ofSegment (segments : List Bytes) :
    (segments.filterMap Component.ofSegment).find? (fun c => !c.isNormal) =
      if [dot, dot] ∈ segments then some .parent else none := by
  induction segments with
  | nil => rfl
  | cons segment segments ih =>
    by_cases hdots : segment = [dot, dot]
    · subst hdots
      rw [if_pos List.mem_cons_self]
      rfl
    · have hmem : [dot, dot] ∈ segment :: segments ↔ [dot, dot] ∈ segments := by
        simp [Ne.symm hdots]
      simp only [hmem, ← ih]
      by_cases hnone : segment = [] ∨ segment = [dot]
      · rw [List.filterMap_cons_none (by simp [Component.ofSegment, hnone])]
      · rw [List.filterMap_cons_some (b := .normal segment)
          (by simp [Component.ofSegment, hnone, hdots])]
        rfl

/-- The first component that is stray, told from the segments. -/
theorem stray?_eq (p : Path) :
    p.stray? =
      if p.isAbsolute then some .root
      else if p.segments.head? = some [dot] then some .current
      else if [dot, dot] ∈ p.segments then some .parent
      else none := by
  rw [stray?, components, List.find?_append, find?_stray_ofSegment, leading]
  split_ifs <;> rfl

theorem leading_eq_nil_iff :
    p.leading = [] ↔ p.isAbsolute = false ∧ p.segments.head? ≠ some [dot] := by
  unfold leading
  split_ifs with habs hdot
  · simp [habs]
  · simp [hdot]
  · simp [habs, hdot]

theorem stray?_eq_none_iff : p.stray? = none ↔ p.leading = [] ∧ [dot, dot] ∉ p.segments := by
  rw [stray?_eq, leading_eq_nil_iff]
  split_ifs with habs hdot hdots
  · simp [habs]
  · simp [hdot]
  · simp [hdots]
  · simp [habs, hdot, hdots]

/-- A path without stray components consists of its segments that count, as names. -/
theorem components_of_stray?_eq_none (h : p.stray? = none) :
    p.components = p.counted.map .normal := by
  obtain ⟨hleading, hdots⟩ := stray?_eq_none_iff.1 h
  rw [components_eq, hleading, List.nil_append]
  refine List.map_congr_left fun segment hsegment => if_neg ?_
  rintro rfl
  exact hdots (List.mem_filter.1 hsegment).1

/-! ## File names -/

/-- The file name of a path is the last of its segments that count, unless that leads up. -/
theorem fileName?_eq (p : Path) :
    p.fileName? = p.counted.getLast?.filter (· ≠ [dot, dot]) := by
  have hleading : ∀ name, p.leading.getLast? ≠ some (.normal name) := by
    intro name
    unfold leading
    split_ifs <;> simp
  rw [fileName?, components_eq, List.getLast?_append, List.getLast?_map]
  cases p.counted.getLast? with
  | none =>
    rw [Option.map_none, Option.none_or, Option.filter_none]
    split
    · next name hlast => exact absurd hlast (hleading name)
    · rfl
  | some last =>
    by_cases hdots : last = [dot, dot]
    · simp [hdots, Option.filter]
    · simp [hdots, Option.filter]

theorem fileName?_eq_some_iff {name : Bytes} :
    p.fileName? = some name ↔ p.counted.getLast? = some name ∧ name ≠ [dot, dot] := by
  rw [fileName?_eq, Option.filter_eq_some_iff, decide_eq_true_iff]

theorem fileName?_eq_none_iff :
    p.fileName? = none ↔ p.counted = [] ∨ p.counted.getLast? = some [dot, dot] := by
  rw [fileName?_eq, ← List.getLast?_eq_none_iff]
  cases p.counted.getLast? with
  | none => simp
  | some last => simp [Option.filter]

end FlatArchive.Path
