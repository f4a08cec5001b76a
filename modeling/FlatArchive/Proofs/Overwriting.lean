-- SUMMARY: What unpacking writes where a write may reach the image that is read, and when the image is kept.
import FlatArchive.Proofs.Extraction
import FlatArchive.Proofs.ReadAhead
import FlatArchive.Proofs.Targets

/-!
# Overwriting the image

Nothing keeps unpacking from writing over the image that it reads: the image may lie in the output
directory under the name of an entry, or a link there may lead to it. Then the image does not keep its
content. What is written is right all the same. The content that goes over the image is that of one of
its entries, which is shorter than what was read of it so far, so nothing of it is ever read; the
entries that still come were read ahead.

So every file that is written holds the content of an entry of the image as it was (`HoldsEntries`),
and the image is kept exactly if none of the reported files is the image.
-/

namespace FlatArchive

open Attempt FileSystem

variable {fs : FileSystem} {dir image : Path} {j : NodeId} {b content : Bytes}
  {s s' : Session FileSystem}

/-! ## What the files hold -/

/-- The content is that of an entry of the image. -/
def ContentOf (image content : Bytes) : Prop :=
  ∃ index r, Decodes image index r ∧ r.content = content

/-- The content of an entry is shorter than the image. -/
theorem ContentOf.length_lt (h : ContentOf b content) : content.length < b.length := by
  obtain ⟨index, r, ⟨n, before, rest, rfl, -, -⟩, rfl⟩ := h
  simp only [List.length_cons, List.length_append, Record.length_bytes]
  omega

/-- The path leads to a file that holds the content of an entry of the image, or to a device. -/
def LeadsToEntry (fs : FileSystem) (image : Bytes) (p : Path) : Prop :=
  ∃ i, fs.find p = .ok i
    ∧ ((∃ content, fs.node? i = some (.file content) ∧ ContentOf image content)
      ∨ ∃ kind, fs.node? i = some (.device kind))

/-- Since the files were `fs`, contents of entries of the image `b` were written and nothing else: a
file holds what it held or such a content, and so do those that are reported. -/
structure HoldsEntries (fs : FileSystem) (b : Bytes) (s : Session FileSystem) : Prop where
  changed : ∀ {i content}, s.state.node? i = some (.file content) →
    fs.node? i = some (.file content) ∨ ContentOf b content
  reported : ∀ p ∈ unpackedPaths s.events, LeadsToEntry s.state b p

/-- It is kept if files change to contents of entries only. -/
theorem HoldsEntries.step (h : HoldsEntries fs b s) (hgrown : s.state.Extends s'.state)
    (hfiles : ∀ {i content}, s'.state.node? i = some (.file content) →
      s.state.node? i = some (.file content) ∨ ContentOf b content)
    (hpaths : ∀ p ∈ unpackedPaths s'.events, p ∈ unpackedPaths s.events ∨ LeadsToEntry s'.state b p) :
    HoldsEntries fs b s' where
  changed hnode := (hfiles hnode).elim h.changed .inr
  reported p hp := by
    rcases hpaths p hp with hold | hnew
    · obtain ⟨i, hfind, ⟨content, hnode, hcontent⟩ | ⟨kind, hnode⟩⟩ := h.reported p hold
      · obtain ⟨content', hnode'⟩ := hgrown.file hnode
        refine ⟨i, hgrown.find hfind, .inl ⟨content', hnode', ?_⟩⟩
        rcases hfiles hnode' with hsame | hcontent'
        · rw [hnode] at hsame
          cases hsame
          exact hcontent
        · exact hcontent'
      · exact ⟨i, hgrown.find hfind, .inr ⟨kind, hgrown.device hnode⟩⟩
    · exact hnew

/-! ## The image while it is read -/

/-- The image while it is read, with `rest` still to come: it is what it was, and no reported path leads
to it; or one does, and it holds something that ends before the offset, as `rest` was read ahead. -/
inductive ImageState (j : NodeId) (b : Bytes) (opened : ImageFile) (rest lost : Bytes)
    (s : Session FileSystem) : Prop where
  | intact (node : s.state.node? j = some (.file b)) (lost_eq : lost = [])
      (unhit : ∀ p ∈ unpackedPaths s.events, s.state.find p ≠ .ok j)
  | overwritten {c : Bytes} {p : Path} (node : s.state.node? j = some (.file c))
      (shorter : c.length < b.length) (passed : c.length ≤ opened.offset)
      (ahead : rest.length ≤ opened.offset) (hit : p ∈ unpackedPaths s.events)
      (find : s.state.find p = .ok j)

/-- The image `b` is open, the records `before` were given out, and of what followed them `rest` is
still to come and `lost` was overwritten. -/
structure Reading (fs : FileSystem) (j : NodeId) (b : Bytes) (n : UInt8) (opened : ImageFile)
    (before : List Record) (rest lost : Bytes) (s : Session FileSystem) : Prop where
  stands : ImageFile.Stands s.state j opened ⟨n⟩ before.length rest
  eq : b = n :: (before.flatMap Record.bytes ++ (rest ++ lost))
  holds : HoldsEntries fs b s
  image : ImageState j b opened rest lost s

/-- What unpacking leaves: files with contents of entries, and the image as it was exactly if it is none
of the reported files. -/
structure UnpackOutcome (fs : FileSystem) (j : NodeId) (b : Bytes) (s : Session FileSystem) : Prop where
  holds : HoldsEntries fs b s
  kept_iff : s.state.node? j = some (.file b) ↔ ∀ p ∈ unpackedPaths s.events, s.state.find p ≠ .ok j

namespace Reading

variable {n : UInt8} {opened opened' : ImageFile} {before : List Record} {rest lost : Bytes}
  {r : Record}

theorem outcome (h : Reading fs j b n opened before rest lost s) : UnpackOutcome fs j b s := by
  refine ⟨h.holds, ?_⟩
  cases h.image with
  | intact node _ unhit => exact ⟨fun _ => unhit, fun _ => node⟩
  | @overwritten c p node shorter _ _ hit find =>
    constructor
    · intro hkept
      rw [node] at hkept
      cases hkept
      exact absurd shorter (Nat.lt_irrefl _)
    · intro hunhit
      exact absurd find (hunhit p hit)

theorem decodes (h : Reading fs j b n opened before (r.bytes ++ rest) lost s)
    (hmore : before.length < n.toNat) : Decodes b (before.length + 1) r :=
  ⟨n, before, rest ++ lost, by rw [← List.append_assoc (Record.bytes r)]; exact h.eq, hmore, rfl⟩

/-- A record that was read ends before the offset, and so does all that was read ahead. -/
theorem bounds (h : Reading fs j b n opened before (r.bytes ++ rest) lost s)
    (hoffset : opened.offset ≤ opened'.offset)
    (hstands : ImageFile.Stands s.state j opened' ⟨n⟩ (before.length + 1) rest) :
    r.content.length ≤ opened'.offset ∧ opened'.ahead.length ≤ opened'.offset := by
  have hrest := congrArg List.length hstands.eq_ahead_append
  rw [List.length_append, List.length_drop] at hrest
  cases h.image with
  | intact node lost_eq _ =>
    have hlen := congrArg List.length h.eq
    have hcontent : s.state.content j = b := by rw [FileSystem.content, node]
    rw [hcontent] at hrest
    simp only [List.length_cons, List.length_append, Record.length_bytes, lost_eq,
      List.length_nil] at hlen
    omega
  | overwritten _ _ _ ahead _ _ =>
    rw [List.length_append, Record.length_bytes] at ahead
    omega

theorem exists_node (h : Reading fs j b n opened before rest lost s) :
    ∃ c, s.state.node? j = some (.file c) := by
  cases h.image with
  | intact node _ _ => exact ⟨b, node⟩
  | overwritten node _ _ _ _ _ => exact ⟨_, node⟩

/-- A record was given out, and its entry was not written over the image. -/
theorem missed (h : Reading fs j b n opened before (r.bytes ++ rest) lost s)
    (hstands : ImageFile.Stands s.state j opened' ⟨n⟩ (before.length + 1) rest)
    (hoffset : opened.offset ≤ opened'.offset) (hgrown : s.state.Extends s'.state)
    (hholds : HoldsEntries fs b s')
    (hkept : ∀ c, s.state.node? j = some (.file c) → s'.state.node? j = some (.file c))
    (hsub : unpackedPaths s.events ⊆ unpackedPaths s'.events)
    (hnew : ∀ p ∈ unpackedPaths s'.events, p ∈ unpackedPaths s.events ∨ s'.state.find p ≠ .ok j) :
    Reading fs j b n opened' (before ++ [r]) rest lost s' := by
  obtain ⟨c, hnode⟩ := h.exists_node
  have hcontent : s'.state.content j = s.state.content j := by
    rw [FileSystem.content, FileSystem.content, hnode, hkept c hnode]
  refine ⟨?_, ?_, hholds, ?_⟩
  · rw [List.length_append]
    exact hstands.of_content_eq hcontent
  · rw [h.eq]
    simp
  · cases h.image with
    | intact node lost_eq unhit =>
      refine .intact (hkept b node) lost_eq fun p hp => ?_
      rcases hnew p hp with hold | hne
      · obtain ⟨i, hfind, -⟩ := h.holds.reported p hold
        rw [hgrown.find hfind, ← hfind]
        exact unhit p hold
      · exact hne
    | overwritten node shorter passed ahead hit find =>
      rw [List.length_append] at ahead
      exact .overwritten (hkept _ node) shorter (Nat.le_trans passed hoffset) (by omega) (hsub hit)
        (hgrown.find find)

/-- A record was given out, and its entry was written over the image. What was not read ahead is lost. -/
theorem hit {p : Path} (h : Reading fs j b n opened before (r.bytes ++ rest) lost s)
    (hmore : before.length < n.toNat)
    (hstands : ImageFile.Stands s.state j opened' ⟨n⟩ (before.length + 1) rest)
    (hoffset : opened.offset ≤ opened'.offset) (hholds : HoldsEntries fs b s')
    (hnode : s'.state.node? j = some (.file r.content)) (hp : p ∈ unpackedPaths s'.events)
    (hfind : s'.state.find p = .ok j) :
    ∃ rest' lost', Reading fs j b n opened' (before ++ [r]) rest' lost' s' := by
  obtain ⟨hpassed, hahead⟩ := h.bounds hoffset hstands
  have hcontent : s'.state.content j = r.content := by rw [FileSystem.content, hnode]
  refine ⟨opened'.ahead, (s.state.content j).drop opened'.offset ++ lost, ?_, ?_, hholds, ?_⟩
  · rw [List.length_append]
    exact hstands.overwritten (by rwa [hcontent])
  · rw [← List.append_assoc opened'.ahead, ← hstands.eq_ahead_append, h.eq]
    simp
  · exact .overwritten hnode (ContentOf.length_lt ⟨_, r, h.decodes hmore, rfl⟩) hpassed hahead hp hfind

/-- A record was given out, and no file changed. -/
theorem unwritten (h : Reading fs j b n opened before (r.bytes ++ rest) lost s)
    (hstands : ImageFile.Stands s.state j opened' ⟨n⟩ (before.length + 1) rest)
    (hoffset : opened.offset ≤ opened'.offset) (hgrown : s.state.Extends s'.state)
    (hsame : s.state.SameFiles s'.state)
    (hpaths : unpackedPaths s'.events = unpackedPaths s.events) :
    Reading fs j b n opened' (before ++ [r]) rest lost s' := by
  have hold : ∀ p ∈ unpackedPaths s'.events, p ∈ unpackedPaths s.events := by
    rw [hpaths]
    exact fun p hp => hp
  have hholds := h.holds.step hgrown (fun hnode => .inl ((hsame _ _).1 hnode))
    (fun p hp => .inl (hold p hp))
  refine h.missed hstands hoffset hgrown hholds (fun c => (hsame j c).2) ?_
    (fun p hp => .inl (hold p hp))
  rw [hpaths]
  exact List.Subset.refl _

/-- A record was given out, and the node that the path of its entry leads to took the content. -/
theorem taken {i : NodeId} {target : Path}
    (h : Reading fs j b n opened before (r.bytes ++ rest) lost s) (hmore : before.length < n.toNat)
    (hstands : ImageFile.Stands s.state j opened' ⟨n⟩ (before.length + 1) rest)
    (hoffset : opened.offset ≤ opened'.offset) (hgrown : s.state.Extends s'.state)
    (hfind : s'.state.find target = .ok i) (htakes : s.state.Takes i r.content s'.state)
    (hpaths : unpackedPaths s'.events = unpackedPaths s.events ++ [target]) :
    ∃ rest' lost', Reading fs j b n opened' (before ++ [r]) rest' lost' s' := by
  have hcontent : ContentOf b r.content := ⟨_, r, h.decodes hmore, rfl⟩
  have htarget : LeadsToEntry s'.state b target := by
    refine ⟨i, hfind, ?_⟩
    cases htakes with
    | file node _ => exact .inl ⟨_, node, hcontent⟩
    | device node _ => exact .inr ⟨_, node⟩
  have hcases : ∀ p ∈ unpackedPaths s'.events, p ∈ unpackedPaths s.events ∨ p = target := by
    rw [hpaths]
    simp
  have hholds : HoldsEntries fs b s' := by
    refine h.holds.step hgrown (fun hnode => ?_) (fun p hp => ?_)
    · refine (htakes.file_cases hnode).imp_right ?_
      rintro rfl
      exact hcontent
    · refine (hcases p hp).imp_right ?_
      rintro rfl
      exact htarget
  by_cases hi : i = j
  · subst hi
    cases htakes with
    | file node _ => exact h.hit hmore hstands hoffset hholds node (by rw [hpaths]; simp) hfind
    | device node files =>
      obtain ⟨c, hnode⟩ := h.exists_node
      rw [(files i c).2 hnode] at node
      cases node
  · refine ⟨rest, lost, h.missed hstands hoffset hgrown hholds ?_ ?_ ?_⟩
    · intro c hnode
      cases htakes with
      | file _ others => exact (others j (Ne.symm hi) c).2 hnode
      | device _ files => exact (files j c).2 hnode
    · rw [hpaths]
      exact List.subset_append_left _ _
    · intro p hp
      refine (hcases p hp).imp_right ?_
      rintro rfl
      rw [hfind]
      exact fun heq => hi (Except.ok.inj heq)

/-- An entry that was given out is extracted, as far as this goes, and the image can be read on. -/
theorem step (dir : Path) (h : Reading fs j b n opened before (r.bytes ++ rest) lost s)
    (hmore : before.length < n.toNat)
    (hstands : ImageFile.Stands s.state j opened' ⟨n⟩ (before.length + 1) rest)
    (hoffset : opened.offset ≤ opened'.offset) :
    ∃ rest' lost', Reading fs j b n opened' (before ++ [r]) rest' lost'
      ((extract dir (before.length + 1) r.entry).exec s).2 := by
  have hgrown := extends_of_writes (writes_extract dir (before.length + 1) r.entry s)
  rcases extract_cases dir (before.length + 1) r.entry s with ⟨cause, s', hexec, hsame, hpaths⟩ |
    ⟨target, i, s', hexec, hfind, htakes, hpaths⟩
  · rw [hexec] at hgrown ⊢
    exact ⟨rest, lost, h.unwritten hstands hoffset hgrown hsame hpaths⟩
  · rw [hexec] at hgrown ⊢
    exact h.taken hmore hstands hoffset hgrown hfind htakes hpaths

/-- Extracting what remains of the image comes to such an outcome, wherever it stops. -/
theorem outcome_extractAll (dir : Path) (m : Nat)
    (h : Reading fs j b n opened before rest lost s) :
    UnpackOutcome fs j b ((extractAll dir m opened).exec s).2 := by
  induction m generalizing opened before rest lost s with
  | zero => exact h.outcome
  | succ m ih =>
    rw [extractAll]
    by_cases hmore : before.length < n.toNat
    · rcases record_or_damage rest with ⟨r, rest, rfl⟩ | ⟨e, hdamage⟩
      · obtain ⟨opened', hnext, hstands⟩ := h.stands.next_record hmore
        obtain ⟨rest', lost', hstep⟩ := h.step dir hmore hstands (h.stands.offset_le_of_next hnext)
        rw [exec_bind_ok (exec_fromImage_ok hnext)]
        rcases hextract : (extract dir (before.length + 1) r.entry).exec s with ⟨cause | target, s'⟩
        · rw [hextract] at hstep
          rw [exec_bind_error hextract]
          exact hstep.outcome
        · rw [hextract] at hstep
          have hrest := ih hstep
          rw [exec_bind_ok hextract]
          rcases hall : (extractAll dir m opened').exec s' with ⟨cause | targets, s''⟩
          · rw [hall] at hrest
            rwa [exec_bind_error hall]
          · rw [hall] at hrest
            rwa [exec_bind_ok hall, exec_pure]
      · obtain ⟨opened', hnext⟩ := h.stands.next_damage hmore hdamage
        have hfailed : (fromImage ImageFile.next opened).exec s =
            (.error (.entry (before.length + 1) (.format e)), s) := by
          rw [fromImage, exec_ofFn, hnext]
        rw [exec_bind_error hfailed]
        exact h.outcome
    · rw [exec_bind_ok (exec_fromImage_ok (h.stands.next_none (Nat.le_of_not_lt hmore)))]
      exact h.outcome

end Reading

/-! ## Whole runs -/

theorem unpackedPaths_prepareDirectory (dir : Path) (s : Session FileSystem) :
    unpackedPaths ((prepareDirectory dir).exec s).2.events = unpackedPaths s.events := by
  rw [prepareDirectory, exec_bind_ok (exec_get s)]
  dsimp only
  cases s.state.find dir with
  | ok d =>
    dsimp only
    split <;> rfl
  | error e =>
    dsimp only
    split
    · rw [exec_bind, Task.exec_io]
      rcases (createDirAll dir).exec s.state with ⟨e' | ⟨⟩, made⟩
      · rfl
      · show unpackedPaths (s.events ++ [.createdDir dir]) = unpackedPaths s.events
        rw [unpackedPaths_append]
        exact List.append_nil _
    · rfl

/-- Before the first entry the image is as it was when it was opened. -/
theorem reading_prepared {n : UInt8} {bs : Bytes} {opened : ImageFile}
    (hnode : fs.node? j = some (.file (n :: bs))) (hstate : s.state = prepared fs dir)
    (hpaths : unpackedPaths s.events = [])
    (hstands : ImageFile.Stands (prepared fs dir) j opened ⟨n⟩ 0 bs) :
    Reading fs j (n :: bs) n opened [] bs [] s := by
  have hsame := (addsDirectories_prepared fs dir).sameFiles
  rw [← hstate] at hsame hstands
  refine ⟨hstands, by simp, ⟨fun h => .inl ((hsame _ _).1 h), ?_⟩,
    .intact ((hsame _ _).2 hnode) rfl ?_⟩
  · rw [hpaths]
    exact nofun
  · rw [hpaths]
    exact nofun

/-- The outcome does not depend on what else is reported. -/
theorem UnpackOutcome.report (h : UnpackOutcome fs j b s) {events : List Event}
    (hpaths : unpackedPaths events = []) : UnpackOutcome fs j b ⟨s.state, s.events ++ events⟩ := by
  have hsame : unpackedPaths (s.events ++ events) = unpackedPaths s.events := by
    rw [unpackedPaths_append, hpaths, List.append_nil]
  refine ⟨⟨h.holds.changed, ?_⟩, ?_⟩
  · rw [hsame]
    exact h.holds.reported
  · rw [hsame]
    exact h.kept_iff

theorem outcome_unpack (dir : Path) (himage : fs.find image = .ok j)
    (hnode : fs.node? j = some (.file b)) : UnpackOutcome fs j b ((unpack image dir).start fs).2 := by
  cases b with
  | nil =>
    have hopen := ImageFile.ofPath_of_content_nil himage (isFile_iff.2 ⟨_, hnode⟩)
      (by rw [FileSystem.content, hnode])
    rw [start_unpack_of_ofPath_error hopen]
    have hnone : ∀ p, p ∉ unpackedPaths [] := fun _ => List.not_mem_nil
    exact ⟨⟨.inl, fun p hp => absurd hp (hnone p)⟩, fun _ p hp => absurd hp (hnone p), fun _ => hnode⟩
  | cons n bs =>
    obtain ⟨opened, hstands, hunpack⟩ := exec_unpack_of_node? himage dir hnode
    have hpaths := unpackedPaths_prepareDirectory dir ⟨fs, []⟩
    rw [hunpack, Task.start, exec_bind]
    rcases hprepare : (prepareDirectory dir).exec ⟨fs, []⟩ with ⟨e | ⟨⟩, s₁⟩
    all_goals
      rw [hprepare] at hpaths
      have hstate : s₁.state = prepared fs dir := by rw [prepared, Task.start, hprepare]
    · exact (reading_prepared hnode hstate hpaths hstands).outcome
    dsimp only
    rw [Task.exec_report_if]
    have hpaths₂ : unpackedPaths (s₁.events ++ if (⟨n⟩ : Header).isEmpty then [.emptyImage] else []) =
        [] := by
      rw [unpackedPaths_append, hpaths]
      split <;> rfl
    generalize s₁.events ++ (if (⟨n⟩ : Header).isEmpty = true then [Event.emptyImage] else []) =
      events at hpaths₂ ⊢
    have hreading := reading_prepared (s := ⟨s₁.state, events⟩) hnode hstate hpaths₂ hstands
    have hall := hreading.outcome_extractAll dir n.toNat
    rw [exec_bind]
    rcases hextract : (extractAll dir n.toNat opened).exec _ with ⟨e | ⟨files, last⟩, s₂⟩
    all_goals rw [hextract] at hall
    · exact hall
    have hkept := keeps_fromImage (P := (· = s₂)) ImageFile.trailing last s₂ rfl
    dsimp only
    rw [exec_bind]
    rcases htrailing : (fromImage ImageFile.trailing last).exec s₂ with ⟨e | ⟨trailing, last'⟩, s₃⟩
    all_goals
      rw [htrailing] at hkept
      cases hkept
    · exact hall
    dsimp only
    rw [Task.exec_report_if, exec_pure]
    refine hall.report ?_
    split <;> rfl

/-- What unpacking writes, for all files, also if a write reaches the image. If the image is a regular
file with content `b`, every file that was changed holds the content of an entry of `b`, and so does
every file that is reported, or it is a device. The image itself is as it was if and only if no
reported path leads to it. If the image is no regular file, nothing changes. -/
theorem unpack_writes_entries (fs : FileSystem) (image dir : Path) :
    (∀ j b, fs.find image = .ok j → fs.node? j = some (.file b) →
        (∀ i content, ((unpack image dir).start fs).2.state.node? i = some (.file content) →
          fs.node? i = some (.file content) ∨ ContentOf b content)
        ∧ (∀ p ∈ unpackedPaths ((unpack image dir).start fs).2.events,
            LeadsToEntry ((unpack image dir).start fs).2.state b p)
        ∧ (((unpack image dir).start fs).2.state.node? j = some (.file b) ↔
            ∀ p ∈ unpackedPaths ((unpack image dir).start fs).2.events,
              ((unpack image dir).start fs).2.state.find p ≠ .ok j))
      ∧ ((∀ j b, fs.find image = .ok j → fs.node? j ≠ some (.file b)) →
          ((unpack image dir).start fs).2.state = fs) := by
  refine ⟨fun j b himage hnode => ?_, fun hnot => ?_⟩
  · have houtcome := outcome_unpack dir himage hnode
    exact ⟨fun _ _ => houtcome.holds.changed, houtcome.holds.reported, houtcome.kept_iff⟩
  · cases hopen : ImageFile.ofPath fs image with
    | error e => rw [start_unpack_of_ofPath_error hopen]
    | ok opened =>
      obtain ⟨j, n, bs, himage, hfile, -, -⟩ := ImageFile.stands_of_ofPath hopen
      obtain ⟨content, hnode⟩ := isFile_iff.1 hfile
      exact absurd hnode (hnot j content himage)

/-! ## An image in the output directory -/

open Text.Utf8 (encode)

/-- A directory `d` with an image `i` in it. -/
def imageWithin (image : Bytes) : FileSystem where
  nodes := #[.directory 0 [(encode "d", 1)], .directory 0 [(encode "i", 2)], .file image]
  root := 0
  cwd := 0
  pathLimit := none

theorem find_within (image : Bytes) : (imageWithin image).find (Path.ofString "d/i") = .ok 2 := by
  cbv

/-- The image in `d` holds an entry of its own name and is unpacked into `d`. -/
theorem start_unpack_within :
    (unpack (Path.ofString "d/i") (Path.ofString "d")).start
        (imageWithin (1 :: Entry.encode ⟨"i", [8]⟩)) =
      (.ok ⟨[Path.ofString "d/i"], 0⟩,
        ⟨imageWithin [8], [.unpacked 1 "i" 1 (Path.ofString "d/i")]⟩) := by
  let r := Record.ofEntry ⟨"i", [8]⟩ (by decide) (by decide) (by decide)
  have hbytes : 1 :: Entry.encode ⟨"i", [8]⟩ = 1 :: (r.bytes ++ []) := by
    rw [List.append_nil]
    rfl
  have hlen : 1 ≤ (1 :: Entry.encode ⟨"i", [8]⟩).length := Nat.le_add_left _ _
  generalize 1 :: Entry.encode ⟨"i", [8]⟩ = image at hbytes hlen ⊢
  have hprepare : (prepareDirectory (Path.ofString "d")).exec ⟨imageWithin image, []⟩ =
      (.ok (), ⟨imageWithin image, []⟩) := by cbv
  have hextract : (extract (Path.ofString "d") 1 r.entry).exec ⟨imageWithin image, []⟩ =
      (.ok (Path.ofString "d/i"),
        ⟨imageWithin [8], [.unpacked 1 "i" 1 (Path.ofString "d/i")]⟩) := by
    show (extract (Path.ofString "d") 1 ⟨"i", [8]⟩).exec ⟨imageWithin image, []⟩ = _
    cbv
  obtain ⟨opened, hopen, -, hstands⟩ := ImageFile.ofPath_of_content_cons (find_within image) rfl hbytes
  obtain ⟨opened₁, hnext, hstands₁⟩ := hstands.next_record (by decide)
  -- All of the image was read, so nothing of what is written over it will be.
  have hend := hstands₁.eq_ahead_append
  rw [eq_comm, List.append_eq_nil_iff, List.drop_eq_nil_iff] at hend
  have hle : ((imageWithin [8]).content 2).length ≤ opened₁.offset := Nat.le_trans hlen hend.2
  have hstands₂ := hstands₁.overwritten hle
  rw [hend.1] at hstands₂
  obtain ⟨opened₂, htrailing⟩ := hstands₂.trailing
  have hheader : opened.reader.header.isEmpty = false := by
    rw [hstands.header]
    rfl
  have hremaining : opened.reader.remaining = 0 + 1 := by
    rw [hstands.remaining]
    rfl
  refine exec_unpack hopen hprepare hheader ?_ htrailing
  rw [hremaining]
  exact exec_extractAll_succ hnext hextract rfl

/-- What goes over the image is the content of its entry, and the image is not kept. -/
theorem unpack_writes_entries_within :
    let image := 1 :: Entry.encode ⟨"i", [8]⟩
    let after := ((unpack (Path.ofString "d/i") (Path.ofString "d")).start (imageWithin image)).2
    unpackedPaths after.events = [Path.ofString "d/i"]
      ∧ LeadsToEntry after.state image (Path.ofString "d/i")
      ∧ after.state.node? 2 ≠ some (.file image) := by
  intro image after
  obtain ⟨hregular, -⟩ :=
    unpack_writes_entries (imageWithin image) (Path.ofString "d/i") (Path.ofString "d")
  obtain ⟨-, hreported, hkept⟩ := hregular 2 image (find_within image) rfl
  have hafter : after = ⟨imageWithin [8], [.unpacked 1 "i" 1 (Path.ofString "d/i")]⟩ :=
    congrArg Prod.snd start_unpack_within
  have hpaths : unpackedPaths after.events = [Path.ofString "d/i"] := by
    rw [hafter]
    rfl
  have hmem : Path.ofString "d/i" ∈ unpackedPaths after.events := by
    rw [hpaths]
    exact List.mem_cons_self
  refine ⟨hpaths, hreported _ hmem, fun h => ?_⟩
  refine hkept.1 h _ hmem ?_
  show after.state.find _ = _
  rw [hafter]
  exact find_within [8]

/-- Unpacking does not always keep the image that it reads. -/
theorem unpack_overwrites_image : ¬∀ (fs : FileSystem) (image dir : Path) (j : NodeId) (b : Bytes),
    fs.find image = .ok j → fs.node? j = some (.file b) →
    ((unpack image dir).start fs).2.state.node? j = some (.file b) := by
  intro hkept
  have hnode := hkept _ _ (Path.ofString "d") 2 _ (find_within (1 :: Entry.encode ⟨"i", [8]⟩)) rfl
  rw [start_unpack_within] at hnode
  generalize Entry.encode ⟨"i", [8]⟩ = bytes at hnode
  have hfirst : [8] = 1 :: bytes := Node.file.inj (Option.some.inj hnode)
  exact absurd (List.head_eq_of_cons_eq hfirst) (by decide)

end FlatArchive
