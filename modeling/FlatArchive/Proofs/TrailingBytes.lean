-- SUMMARY: Bytes behind the last record of an image change neither what unpacking does nor what listing shows, and are counted.
import FlatArchive.Proofs.FailFast
import FlatArchive.Proofs.Listing

/-!
# Trailing bytes

An image that is unpacked holds all records that it announces (`complete_of_unpack`). More bytes
behind them are never looked at: the same entries are extracted, so the same files are written and the
same is reported of them. Only the number of trailing bytes is another one, and it is what the image
has beyond its count and its records.
-/

namespace FlatArchive

open Attempt FileSystem

variable {fs : FileSystem} {dir image : Path} {j : NodeId} {b : Bytes} {u : Unpacked}
  {s : Session FileSystem}

/-! ## What is reported -/

/-- What is reported of the bytes behind the last entry. -/
def trailingEvents (trailing : Nat) : List Event :=
  if trailing > 0 then [.trailingData trailing] else []

def Event.isTrailing : Event → Bool
  | .trailingData _ => true
  | _ => false

/-- Of entries that are extracted only two kinds of things are reported. -/
theorem forall_mem_extractEvents {P : Event → Prop}
    (hgenerated : ∀ index name, P (.generatedName index name))
    (hunpacked : ∀ index name size path, P (.unpacked index name size path))
    (dir : Path) (index : Nat) (entries : List Entry) :
    ∀ e ∈ extractEvents dir index entries, P e := by
  induction entries generalizing index with
  | nil => exact List.forall_mem_nil _
  | cons entry entries ih =>
    rw [extractEvents, List.forall_mem_append, List.forall_mem_cons]
    refine ⟨?_, hunpacked .., ih (index + 1)⟩
    unfold nameEvents
    split_ifs
    · exact List.forall_mem_singleton.2 (hgenerated ..)
    · exact List.forall_mem_nil _

/-- Preparing the directory reports nothing but that it was made. -/
theorem events_prepareDirectory {events : List Event}
    (h : (prepareDirectory dir).exec ⟨fs, events⟩ = (.ok (), s)) :
    s.events = events ∨ s.events = events ++ [.createdDir dir] := by
  rcases prepareDirectory_cases dir ⟨fs, events⟩ with ⟨d, -, -, hexec⟩ | ⟨-, made, -, hexec⟩ |
    ⟨e, s', hexec, -⟩
  · cases hexec.symm.trans h
    exact .inl rfl
  · cases hexec.symm.trans h
    exact .inr rfl
  · cases hexec.symm.trans h

theorem not_isTrailing_extractInto {entries : List Entry} {files : List Path}
    (h : (extractInto dir entries).start fs = (.ok files, s)) :
    ∀ e ∈ s.events, e.isTrailing = false := by
  rw [Task.start] at h
  obtain ⟨⟨⟩, s₁, hprepare, hlist⟩ := exec_bind_eq_ok_iff.1 h
  obtain ⟨-, hevents, -⟩ := extractList_eq_ok hlist
  rw [hevents, List.forall_mem_append]
  refine ⟨?_, forall_mem_extractEvents (fun _ _ => rfl) (fun _ _ _ _ => rfl) dir 1 entries⟩
  rcases events_prepareDirectory hprepare with hnone | hmade
  · rw [hnone]
    exact List.forall_mem_nil _
  · rw [hmade]
    exact List.forall_mem_singleton.2 rfl

/-! ## What the image holds -/

/-- The count of an image and its records take up what the listing says. -/
theorem length_records (index : Nat) (rs : List Record) :
    (rs.flatMap Record.bytes).length =
      ((Record.listing index rs).map fun l => 264 + l.size).sum := by
  induction rs generalizing index with
  | nil => rfl
  | cons r rs ih =>
    rw [List.flatMap_cons, List.length_append, ih (index + 1), Record.length_bytes,
      r.length_content, Record.listing_cons, List.map_cons, List.sum_cons]
    rfl

/-- What is unpacked is a file. -/
theorem exists_file_of_unpack (hunpack : (unpack image dir).start fs = (.ok u, s)) :
    ∃ j b, fs.find image = .ok j ∧ fs.node? j = some (.file b) := by
  cases hopen : ImageFile.ofPath fs image with
  | error e =>
    rw [start_unpack_of_ofPath_error hopen] at hunpack
    cases hunpack
  | ok opened =>
    obtain ⟨j, n, bs, himage, hfile, -, -⟩ := ImageFile.stands_of_ofPath hopen
    obtain ⟨b, hnode⟩ := isFile_iff.1 hfile
    exact ⟨j, b, himage, hnode⟩

section Run

variable (himage : fs.find image = .ok j) (hnode : fs.node? j = some (.file b))
  (hspared : Spared dir j (prepared fs dir))

include himage hnode hspared

/-- An image that is unpacked holds all records that it announces. They are extracted, and what is
said about the image is said behind that. -/
theorem complete_of_unpack (hunpack : (unpack image dir).start fs = (.ok u, s)) :
    ∃ (n : UInt8) (rs : List Record) (rest : Bytes) (files : List Path) (t : Session FileSystem),
      b = n :: (rs.flatMap Record.bytes ++ rest) ∧ rs.length = n.toNat
        ∧ (extractInto dir (rs.map Record.entry)).start fs = (.ok files, t)
        ∧ u = ⟨files, rest.length⟩
        ∧ s = ⟨t.state, t.events ++ (if (rs.map Record.entry).isEmpty then [.emptyImage] else [])
            ++ trailingEvents rest.length⟩ := by
  cases b with
  | nil =>
    have hopen := ImageFile.ofPath_of_content_nil himage (isFile_iff.2 ⟨_, hnode⟩)
      (by rw [content, hnode])
    rw [start_unpack_of_ofPath_error hopen] at hunpack
    cases hunpack
  | cons n bs =>
    rcases complete_or_stops n.toNat bs 1 with ⟨rs, rest, hcount, rfl, hnames⟩ |
      ⟨rs, bad, cause, hcount, rfl, hstops, hnames⟩
    · rw [exec_unpack_complete himage hspared hnode hcount, Task.start, exec_unpackEntries] at hunpack
      rcases hextract : (extractInto dir (rs.map Record.entry)).start fs with ⟨e | files, t⟩
      · rw [Task.start] at hextract
        rw [hextract] at hunpack
        cases hunpack
      · refine ⟨n, rs, rest, files, t, rfl, hcount, hextract, ?_⟩
        rw [Task.start] at hextract
        rw [hextract] at hunpack
        cases hunpack
        exact ⟨rfl, rfl⟩
    · rw [Nat.add_comm] at hstops
      rw [exec_unpack_stops himage hspared hnode hcount hstops, Task.start, exec_unpackUntil] at hunpack
      rcases hextract : (extractInto dir (rs.map Record.entry)).exec ⟨fs, []⟩ with ⟨e | files, t⟩
      · rw [hextract] at hunpack
        cases hunpack
      · rw [hextract] at hunpack
        cases hunpack

/-- Of an image that is unpacked, the same is unpacked with any bytes behind it. The listing is the
same, the files are, and all that is reported but the number of trailing bytes, which is what the
image has beyond its count and its records. -/
theorem unpack_append_bytes (hunpack : (unpack image dir).start fs = (.ok u, s)) (tail : Bytes) :
    ∃ entries events trailing,
      list fs image = .ok entries
        ∧ list (fs.setNode j (.file (b ++ tail))) image = .ok entries
        ∧ (unpack image dir).start (fs.setNode j (.file (b ++ tail))) =
          (.ok ⟨u.files, trailing⟩,
            ⟨s.state.setNode j (.file (b ++ tail)), events ++ trailingEvents trailing⟩)
        ∧ s.events = events ++ trailingEvents u.trailing
        ∧ (∀ e ∈ events, e.isTrailing = false)
        ∧ 1 + (entries.map fun l => 264 + l.size).sum + trailing = (b ++ tail).length := by
  have hfile := isFile_iff.2 ⟨_, hnode⟩
  obtain ⟨n, rs, rest, files, t, rfl, hcount, hextract, rfl, rfl⟩ :=
    complete_of_unpack himage hnode hspared hunpack
  have hlonger : n :: (rs.flatMap Record.bytes ++ rest) ++ tail =
      n :: (rs.flatMap Record.bytes ++ (rest ++ tail)) := by
    rw [List.cons_append, List.append_assoc]
  generalize hcontent : n :: (rs.flatMap Record.bytes ++ rest) ++ tail = longer at hlonger
  have himage' : (fs.setNode j (.file longer)).find image = .ok j := by
    rw [find_setFile hfile, himage]
  have hnode' : (fs.setNode j (.file longer)).node? j =
      some (.file (n :: (rs.flatMap Record.bytes ++ (rest ++ tail)))) := by
    rw [node?_setFile hfile, if_pos rfl, hlonger]
  have hspared' : Spared dir j (prepared (fs.setNode j (.file longer)) dir) := by
    rw [prepared_setFile j _ dir hfile]
    refine hspared.setFile _ ?_
    rw [isFile, node?_prepared hfile]
    exact hfile
  refine ⟨Record.listing 1 rs, _, (rest ++ tail).length, list_of_records himage hnode hcount,
    list_of_records himage' hnode' hcount, ?_, rfl, ?_, ?_⟩
  · rw [exec_unpack_complete himage' hspared' hnode' hcount, Task.start, exec_unpackEntries]
    have hrun := (start_extractInto_setFile hfile hspared longer (rs.map Record.entry)).1
    rw [hextract, Task.start] at hrun
    rw [hrun]
    rfl
  · rw [List.forall_mem_append]
    refine ⟨not_isTrailing_extractInto hextract, ?_⟩
    split_ifs
    · exact List.forall_mem_singleton.2 rfl
    · exact List.forall_mem_nil _
  · rw [hlonger, ← length_records 1 rs]
    simp only [List.length_cons, List.length_append]
    omega

end Run

/-- The image is outside of the plain directory, which needs no preparation. -/
theorem spared_prepared_plainTree (content : Bytes) :
    Spared (Path.ofString "d") 1 (prepared (plainTree content) (Path.ofString "d")) := by
  have hprepared : prepared (plainTree content) (Path.ofString "d") = plainTree content := by cbv
  rw [hprepared]
  exact spared_plainTree content

/-- An image outside of the plain directory, with one byte behind its only file, and two more. -/
theorem unpack_append_bytes_plain : ∃ s s',
    (unpack (Path.ofString "i") (Path.ofString "d")).start
        (plainTree (1 :: (Entry.encode ⟨"f", [8]⟩ ++ [9]))) = (.ok ⟨[Path.ofString "d/f"], 1⟩, s)
      ∧ (unpack (Path.ofString "i") (Path.ofString "d")).start
          ((plainTree (1 :: (Entry.encode ⟨"f", [8]⟩ ++ [9]))).setNode 1
            (.file (1 :: (Entry.encode ⟨"f", [8]⟩ ++ [9]) ++ [0, 1]))) =
        (.ok ⟨[Path.ofString "d/f"], 3⟩, s') := by
  let r : Record := .ofEntry ⟨"f", [8]⟩ (by decide) (by decide) (by decide)
  have himage : 1 :: (Entry.encode ⟨"f", [8]⟩ ++ [9]) = 1 :: ([r].flatMap Record.bytes ++ [9]) := by
    rw [List.flatMap_singleton]
    rfl
  have hlength : (1 :: (Entry.encode ⟨"f", [8]⟩ ++ [9]) ++ [0, 1]).length = 269 := by
    rw [List.length_append, List.length_cons, List.length_append, Entry.length_encode]
    rfl
  generalize 1 :: (Entry.encode ⟨"f", [8]⟩ ++ [9]) = content at himage hlength ⊢
  have hfind : (plainTree content).find (Path.ofString "i") = .ok 1 := by cbv
  have hnode : (plainTree content).node? 1 = some (.file content) := rfl
  have hspared := spared_prepared_plainTree content
  have hextract : (extractInto (Path.ofString "d") ([r].map Record.entry)).start (plainTree content) =
      (.ok [Path.ofString "d/f"], ⟨(plainTree content).setNode 3 (.file [8]),
        [.unpacked 1 "f" 1 (Path.ofString "d/f")]⟩) := by cbv
  have hnode' : (plainTree content).node? 1 =
      some (.file (1 :: ([r].flatMap Record.bytes ++ [9]))) := by
    rw [hnode, himage]
  have hunpack : (unpack (Path.ofString "i") (Path.ofString "d")).start (plainTree content) =
      (.ok ⟨[Path.ofString "d/f"], 1⟩, ⟨(plainTree content).setNode 3 (.file [8]),
        [.unpacked 1 "f" 1 (Path.ofString "d/f")] ++ [] ++ trailingEvents 1⟩) := by
    rw [exec_unpack_complete hfind hspared hnode' rfl, Task.start, exec_unpackEntries]
    rw [Task.start] at hextract
    rw [hextract]
    rfl
  obtain ⟨entries, events, trailing, hlist, -, hlonger, -, -, hcount⟩ :=
    unpack_append_bytes hfind hnode hspared hunpack [0, 1]
  have hentries := list_of_records hfind hnode' rfl
  cases hlist.symm.trans hentries
  obtain rfl : trailing = 3 := by
    rw [hlength] at hcount
    exact Nat.add_left_cancel (n := 266) hcount
  exact ⟨_, _, hunpack, hlonger⟩

end FlatArchive
