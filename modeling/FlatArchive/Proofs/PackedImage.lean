-- SUMMARY: What a pack that succeeds has written and reported, byte for byte, and that it changed nothing else.
import FlatArchive.Proofs.RoundTrip

/-!
# The packed image

The image is written in parts: the header, and for each input its head, whose size was asked for
separately, and its content in pieces, all of it through a buffer. What comes of it is what encoding
the header and each entry at once would give. The name of an input is the name of a file, so it fits
the field of a head and is never cut.
-/

namespace FlatArchive

open Attempt FileSystem

variable {fs after : FileSystem} {output p : Path} {inputs : List Path} {entries : List Entry}

namespace Builder

/-- The name of an input is stored as it is. -/
theorem Packs.fit_name {e : Entry} (h : Packs fs p e) : Name.fit e.name = e.name := by
  have hname := h.fileName?
  obtain ⟨i, hsource, -⟩ := h
  exact Name.fit_of_length_le (ordinaryName_of_find hsource.find hname).length_le

/-- Of entries whose names are not cut nothing is reported but that they were packed. -/
theorem reports_of_fit (index : Nat) (h : ∀ e ∈ entries, Name.fit e.name = e.name) :
    reports index entries =
      (entries.zipIdx index).map fun (e, k) => Event.packed k e.name e.size := by
  induction entries generalizing index with
  | nil => rfl
  | cons e entries ih =>
    obtain ⟨he, hrest⟩ := List.forall_mem_cons.1 h
    rw [reports, if_neg (fun hne => hne he), ih (index + 1) hrest]
    rfl

end Builder

open Builder

/-- What a pack that succeeds has done if its output is a regular file after: the output holds the
header and, in the order of the inputs, an entry for each, with the name of the input and the content
that it had. This is what was reported, and nothing but the output changed: directories got no name
but that of a new output. -/
theorem pack_success {n : Nat} {events : List Event} {o : NodeId}
    (hpack : (pack output inputs).start fs = (.ok n, ⟨after, events⟩))
    (hfind : after.find output = .ok o) (hfile : after.isFile o = true) :
    ∃ (header : Header) (entries : List Entry), Header.ofCount inputs.length = .ok header
      ∧ List.Forall₂ (Packs fs) inputs entries
      ∧ after.node? o = some (.file (header.toBytes ++ entries.flatMap Entry.encode))
      ∧ n = (header.toBytes ++ entries.flatMap Entry.encode).length
      ∧ events = ((entries.zipIdx 1).map fun (e, k) => Event.packed k e.name e.size)
          ++ [.imageWritten output inputs.length n]
      ∧ (∀ p ∈ inputs, ∃ i, i ≠ o ∧ fs.find p = .ok i ∧ after.find p = .ok i
          ∧ after.node? i = fs.node? i)
      ∧ (∀ i, i ≠ o → fs.isDirectory i = false → after.node? i = fs.node? i)
      ∧ fs.Extends after ∧ (fs.find output = .ok o ∨ fs.nodes.size ≤ o) := by
  obtain ⟨header, b, hcount, hadds, hwrite⟩ := exec_pack_eq_ok_iff.1 hpack
  obtain ⟨hlength, -⟩ := count_of_headerFor hcount
  rcases writeImageFile_cases hadds output (header_of_adds hadds hcount) with ⟨e, events, -, hfailed⟩ |
    ⟨o', created, entries, hcreated, hpacks, hne, hwritten⟩ |
    ⟨o', size, events, hdevice, hnode, hwritten⟩
  · rw [hfailed] at hwrite
    cases hwrite
  · rw [hwritten] at hwrite
    cases hwrite
    have hempty := isFile_iff.2 ⟨[], hcreated.empty⟩
    have hset := Extends.setFile hempty (header.toBytes ++ entries.flatMap Entry.encode)
    have htable := node?_setNode created (.file (header.toBytes ++ entries.flatMap Entry.encode))
      (lt_size_of_isFile hempty)
    have hgrown := hcreated.grown.trans hset
    obtain rfl : o' = o := by
      rw [hset.find hcreated.find] at hfind
      exact Except.ok.inj hfind
    have hothers : ∀ i, i ≠ o' → fs.isDirectory i = false →
        (created.setNode o' (.file (header.toBytes ++ entries.flatMap Entry.encode))).node? i =
          fs.node? i := by
      intro i hi hdir
      rw [htable, if_neg hi]
      exact hcreated.others hdir hi
    refine ⟨header, entries, headerFor_eq_ok_iff.1 hcount, hpacks, ?_, rfl, ?_, ?_, hothers, hgrown,
      hcreated.found_or_new⟩
    · rw [htable, if_pos rfl]
    · rw [hlength, List.nil_append, reports_of_fit]
      intro e he
      obtain ⟨p, -, hpacked⟩ := exists_input hpacks he
      exact hpacked.fit_name
    · intro p hp
      obtain ⟨i, hfound, hregular⟩ := find_of_adds hadds hp
      have hi : i ≠ o' := by
        rintro rfl
        exact hne p hp hfound
      exact ⟨i, hi, hfound, hgrown.find hfound,
        hothers i hi (isDirectory_eq_false_of_isFile hregular)⟩
  · rw [hwritten] at hwrite
    cases hwrite
    rw [hdevice] at hfind
    cases hfind
    obtain ⟨content, hcontent⟩ := isFile_iff.1 hfile
    rw [hnode] at hcontent
    cases hcontent

/-- Three files, two of one name, were packed in the order in which they were given. -/
theorem pack_success_threeFiles : ∃ (after : FileSystem),
    (pack (Path.ofString "i") threePaths).start threeFiles = (.ok 796, ⟨after,
        [.packed 1 "a" 1, .packed 2 "b" 1, .packed 3 "a" 1,
          .imageWritten (Path.ofString "i") 3 796]⟩)
      ∧ after.find (Path.ofString "i") = .ok 6
      ∧ after.node? 6 = some (.file (3 :: (Entry.encode ⟨"a", [7]⟩ ++ Entry.encode ⟨"b", [8]⟩
        ++ Entry.encode ⟨"a", [9]⟩))) := by
  obtain ⟨n, events, hpack⟩ := pack_threeFiles
  generalize 3 :: threeEntries.flatMap Entry.encode = image at hpack
  have hfind : (threeFilesPacked image).find (Path.ofString "i") = .ok 6 := by cbv
  obtain ⟨header, entries, hheader, hpacks, hnode, rfl, rfl, -⟩ := pack_success hpack hfind rfl
  obtain rfl : ⟨3⟩ = header := Except.ok.inj hheader
  obtain rfl := eq_threeEntries hpacks
  have hbytes : (⟨3⟩ : Header).toBytes ++ threeEntries.flatMap Entry.encode =
      3 :: (Entry.encode ⟨"a", [7]⟩ ++ Entry.encode ⟨"b", [8]⟩ ++ Entry.encode ⟨"a", [9]⟩) := by
    rw [Header.toBytes, List.singleton_append, threeEntries, List.flatMap_cons, List.flatMap_cons,
      List.flatMap_singleton, ← List.append_assoc]
  have hlength : ((⟨3⟩ : Header).toBytes ++ threeEntries.flatMap Entry.encode).length = 796 := by
    rw [hbytes, List.length_cons, List.length_append, List.length_append, Entry.length_encode,
      Entry.length_encode, Entry.length_encode]
    rfl
  rw [hbytes] at hnode
  rw [hlength] at hpack
  exact ⟨_, hpack, hfind, hnode⟩

end FlatArchive
