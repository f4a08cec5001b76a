-- SUMMARY: Unpacking an image a second time does the same again and leaves all files as they are.
import FlatArchive.Proofs.Targets
import FlatArchive.Proofs.TrailingBytes

/-!
# Unpacking again

What unpacking made is there when it is done again: the output directory, the directories of the
files, and the files, new ones and those behind links that led to nothing. So the second time only
contents change (`OnlyContents`): each entry is written to the node that took it the first time.
Where several entries share a node, the last one of them decides what it holds, the second time as
the first, and no node holds anything else in the end than it did at the start.
-/

namespace FlatArchive

open Attempt

/-! ## Contents -/

namespace FileSystem

variable {fs fs' fs'' : FileSystem} {p : Path} {i k d : NodeId} {content : Bytes}

/-- The content is written to a node: a file holds it then, and a device takes it. -/
def refill (fs : FileSystem) (i : NodeId) (content : Bytes) : FileSystem :=
  if fs.isFile i then fs.setNode i (.file content) else fs

theorem node?_refill (fs : FileSystem) (i : NodeId) (content : Bytes) (k : NodeId) :
    (fs.refill i content).node? k =
      if k = i ∧ fs.isFile i = true then some (.file content) else fs.node? k := by
  unfold refill
  by_cases hfile : fs.isFile i = true
  · rw [if_pos hfile, node?_setNode fs _ (lt_size_of_isFile hfile)]
    simp only [hfile, and_true]
  · rw [if_neg hfile, if_neg fun h => hfile h.2]

theorem Extends.refill (fs : FileSystem) (i : NodeId) (content : Bytes) :
    fs.Extends (fs.refill i content) := by
  unfold FileSystem.refill
  split_ifs with hfile
  · exact .setFile hfile content
  · exact .refl fs

/-- From `fs` to `fs'` nothing changed but what some of the files hold. -/
structure OnlyContents (fs fs' : FileSystem) : Prop where
  root : fs'.root = fs.root
  cwd : fs'.cwd = fs.cwd
  pathLimit : fs'.pathLimit = fs.pathLimit
  directorySize : fs'.directorySize = fs.directorySize
  size : fs'.nodes.size = fs.nodes.size
  others : ∀ {i}, fs.isFile i = false → fs'.node? i = fs.node? i

namespace OnlyContents

theorem refl (fs : FileSystem) : fs.OnlyContents fs := ⟨rfl, rfl, rfl, rfl, rfl, fun _ => rfl⟩

theorem trans (h : fs.OnlyContents fs') (h' : fs'.OnlyContents fs'') : fs.OnlyContents fs'' where
  root := h'.root.trans h.root
  cwd := h'.cwd.trans h.cwd
  pathLimit := h'.pathLimit.trans h.pathLimit
  directorySize := h'.directorySize.trans h.directorySize
  size := h'.size.trans h.size
  others {i} hnot := by
    have hkept := h.others hnot
    rw [← hkept]
    exact h'.others (by rw [isFile, hkept, ← isFile, hnot])

theorem refill (fs : FileSystem) (i : NodeId) (content : Bytes) :
    fs.OnlyContents (fs.refill i content) := by
  unfold FileSystem.refill
  split_ifs with hfile
  · refine ⟨rfl, rfl, rfl, rfl, size_setNode .., fun {k} hnot => ?_⟩
    have hne : k ≠ i := by
      rintro rfl
      rw [hnot] at hfile
      cases hfile
    rw [node?_setNode fs _ (lt_size_of_isFile hfile), if_neg hne]
  · exact .refl fs

/-- If the files hold what they held, nothing changed. -/
theorem eq (h : fs.OnlyContents fs')
    (hfiles : ∀ i content, fs.node? i = some (.file content) → fs'.node? i = some (.file content)) :
    fs' = fs := by
  have hnodes : fs'.nodes = fs.nodes := by
    refine Array.ext_getElem? fun i => ?_
    change fs'.node? i = fs.node? i
    cases hfile : fs.isFile i with
    | false => exact h.others hfile
    | true =>
      obtain ⟨content, hnode⟩ := isFile_iff.1 hfile
      rw [hnode, hfiles i content hnode]
  obtain ⟨hroot, hcwd, hlimit, hsize, -, -⟩ := h
  cases fs
  cases fs'
  cases hnodes
  cases hroot
  cases hcwd
  cases hlimit
  cases hsize
  rfl

end OnlyContents

/-! ## Files and entries again -/

theorem exec_writeFile_of_file (hfind : fs.find p = .ok i) (hfile : fs.isFile i = true)
    (content : Bytes) : (writeFile p content).exec fs = (.ok (), fs.setNode i (.file content)) := by
  have hempty : (fs.setNode i (.file [])).node? i = some (.file []) := by
    rw [node?_setNode fs _ (lt_size_of_isFile hfile), if_pos rfl]
  rw [writeFile, exec_bind_ok (exec_create_of_file hfind hfile), writeAt, exec_ofFn, hempty]
  dsimp only
  rw [overwrite_nil, setNode_setNode]

theorem exec_writeFile_of_device {kind : Device} (hfind : fs.find p = .ok i)
    (hnode : fs.node? i = some (.device kind)) (content : Bytes) :
    (writeFile p content).exec fs = (writeAt i 0 content).exec fs := by
  rw [writeFile, exec_bind_ok (exec_create_of_device hfind hnode)]

/-- A device that took content takes it wherever it is. -/
theorem exec_writeAt_device {kind : Device} {base : FileSystem}
    (h : (writeFile p content).exec fs = (.ok (), fs')) (hfind : fs'.find p = .ok i)
    (hnode : fs'.node? i = some (.device kind)) (hbase : base.node? i = some (.device kind)) :
    (writeAt i 0 content).exec base = (.ok (), base) := by
  rw [writeFile] at h
  obtain ⟨k, fs₁, hcreate, hwrite⟩ := exec_bind_eq_ok_iff.1 h
  have hgrown := extends_writeAt fs₁ k 0 content
  rw [hwrite] at hgrown
  rcases created_or_device hcreate with hcreated | ⟨kind', hfind', hdevice, rfl⟩
  · -- The path leads to a file that was made, and not to a device.
    obtain ⟨content', hfile⟩ := hgrown.file hcreated.empty
    cases hfind.symm.trans (hgrown.find hcreated.find)
    cases hnode.symm.trans hfile
  · cases hfind.symm.trans (hgrown.find hfind')
    cases hnode.symm.trans (hgrown.device hdevice)
    rw [writeAt, exec_ofFn, hdevice] at hwrite
    rw [writeAt, exec_ofFn, hbase]
    cases kind with
    | null => rfl
    | full =>
      dsimp only at hwrite ⊢
      split_ifs at hwrite with hempty
      · rw [if_pos hempty]
      · cases hwrite

/-- What was written can be written again when the files have grown, and to the same node. -/
theorem writeFile_again (h : (writeFile p content).exec fs = (.ok (), fs')) :
    ∃ i, fs.Takes i content fs' ∧ ∀ {base}, fs'.Extends base →
      (writeFile p content).exec base = (.ok (), base.refill i content) := by
  rcases writeFile_cases fs p content with ⟨e, hfailed⟩ | ⟨i, fs₁, hwrite, hfind, htakes⟩
  · cases h.symm.trans hfailed
  cases h.symm.trans hwrite
  refine ⟨i, htakes, fun {base} hgrown => ?_⟩
  cases htakes with
  | file node others =>
    have hfile := hgrown.isFile (isFile_iff.2 ⟨content, node⟩)
    rw [exec_writeFile_of_file (hgrown.find hfind) hfile, refill, if_pos hfile]
  | @device kind node files =>
    have hnode := hgrown.device node
    have hnot : ¬base.isFile i = true := by
      rw [isFile, hnode]
      exact Bool.false_ne_true
    rw [exec_writeFile_of_device (hgrown.find hfind) hnode, refill, if_neg hnot]
    exact exec_writeAt_device h hfind node hnode

/-- Where the directories of a file were made there is nothing to make. -/
theorem exec_makeParents_again (h : (Change.makeParents p).exec fs = (.ok (), fs')) {base : FileSystem}
    (hgrown : fs'.Extends base) : (Change.makeParents p).exec base = (.ok (), base) := by
  unfold Change.makeParents at h ⊢
  cases hparent : p.parent with
  | none => rfl
  | some parent =>
    rw [hparent] at h
    dsimp only at h ⊢
    rw [createDirAll, exec_ofFn] at h ⊢
    by_cases hne : parent.bytes = []
    · rw [makeDirs, if_pos hne]
    · obtain ⟨d, hfind, hdir⟩ := isDirectoryAt_iff.1 (isDirectoryAt_of_makeDirs hne h)
      exact makeDirs_of_find (hgrown.find hfind) (hgrown.isDirectory hdir)

end FileSystem

open FileSystem

variable {fs : FileSystem} {dir image : Path} {entries : List Entry} {files : List Path} {u : Unpacked}
  {s s' t : Session FileSystem}

theorem writeBelow_again {relative target : Path} {content : Bytes}
    (h : (writeBelow dir relative content).exec s = (.ok target, s')) :
    ∃ i, s.state.Takes i content s'.state ∧ ∀ {t : Session FileSystem}, s'.state.Extends t.state →
      (writeBelow dir relative content).exec t = (.ok target, ⟨t.state.refill i content, t.events⟩) := by
  have hmade := addsDirectories_makeParents s.state (dir.join relative)
  simp only [exec_writeBelow_eq] at h ⊢
  rcases hparents : (Change.makeParents (dir.join relative)).exec s.state with ⟨cause | ⟨⟩, fs₁⟩
  · rw [hparents] at h
    cases h
  rw [hparents] at h hmade
  dsimp only at h
  have hwritten := extends_writeFile fs₁ (dir.join relative) content
  rcases hwrite : (FileSystem.writeFile (dir.join relative) content).exec fs₁ with ⟨cause | ⟨⟩, fs₂⟩
  · rw [hwrite] at h
    cases h
  rw [hwrite] at h hwritten
  cases h
  obtain ⟨i, htakes, hagain⟩ := writeFile_again hwrite
  refine ⟨i, htakes.of_sameFiles hmade.sameFiles, fun {t} hgrown => ?_⟩
  rw [exec_makeParents_again hparents (hwritten.trans hgrown)]
  dsimp only
  rw [hagain hgrown]

/-- An entry that was extracted can be extracted again when the files have grown. It is written to the
node that took its content. -/
theorem extract_again {index : Nat} {e : Entry} {target : Path}
    (h : (extract dir index e).exec s = (.ok target, s')) :
    ∃ i, s.state.Takes i e.content s'.state ∧ ∀ {t : Session FileSystem},
      s'.state.Extends t.state → ∃ t', (extract dir index e).exec t = (.ok target, t')
        ∧ t'.state = t.state.refill i e.content := by
  obtain ⟨hcheck, -⟩ := extract_eq_ok h
  simp only [exec_extract_accepted dir hcheck] at h ⊢
  rcases hwrite : (writeBelow dir (Path.ofString (unpackedName index e.name)) e.content).start
      s.state with ⟨cause | target', s₁⟩
  · rw [hwrite] at h
    cases h
  rw [hwrite] at h
  cases h
  obtain ⟨i, htakes, hagain⟩ := writeBelow_again hwrite
  refine ⟨i, htakes, fun {t} hgrown => ?_⟩
  rw [Task.start, hagain (t := ⟨t.state, []⟩) hgrown]
  exact ⟨_, rfl, rfl⟩

/-! ## All entries again -/

/-- Entries that were extracted can be extracted again when the files have grown. Of the nodes that are
files after the first time, each holds the same then, or it was not written, neither then nor the
first time. -/
theorem extractList_again {index : Nat} {es : List Entry}
    (h : (extractList dir index es).exec s = (.ok files, s')) {t : Session FileSystem}
    (hgrown : s'.state.Extends t.state) :
    ∃ t', (extractList dir index es).exec t = (.ok files, t') ∧ t.state.OnlyContents t'.state
      ∧ ∀ k c, s'.state.node? k = some (.file c) → t'.state.node? k = some (.file c)
          ∨ t'.state.node? k = t.state.node? k ∧ s.state.node? k = some (.file c) := by
  induction es generalizing index s files t with
  | nil =>
    cases h
    exact ⟨t, rfl, .refl _, fun k c hnode => .inr ⟨rfl, hnode⟩⟩
  | cons e es ih =>
    rw [extractList] at h
    obtain ⟨target, s₁, hextract, h⟩ := exec_bind_eq_ok_iff.1 h
    obtain ⟨targets, s₂, hlist, h⟩ := exec_bind_eq_ok_iff.1 h
    cases h
    have hwrites := extends_of_writes (writes_extractList dir (index + 1) es s₁)
    rw [hlist] at hwrites
    obtain ⟨i, htakes, hagain⟩ := extract_again hextract
    obtain ⟨t₁, hextract', hfilled⟩ := hagain (hwrites.trans hgrown)
    have hgrown₁ : s'.state.Extends t₁.state := hfilled ▸ hgrown.trans (.refill t.state i e.content)
    obtain ⟨t₂, hlist', honly, hfiles⟩ := ih hlist hgrown₁
    rw [hfilled] at honly
    refine ⟨t₂, ?_, (OnlyContents.refill t.state i e.content).trans honly, ?_⟩
    · rw [extractList, exec_bind_ok hextract', exec_bind_ok hlist', exec_pure]
    · intro k c hnode
      rcases hfiles k c hnode with hheld | ⟨hkept, hbefore⟩
      · exact .inl hheld
      rw [hkept, hfilled, node?_refill]
      -- No later entry wrote node `k`, so it holds what this entry left.
      cases htakes with
      | file node others =>
        by_cases hk : k = i
        · subst hk
          cases node.symm.trans hbefore
          have hfile := (hwrites.trans hgrown).isFile (isFile_iff.2 ⟨_, node⟩)
          rw [if_pos ⟨rfl, hfile⟩]
          exact .inl rfl
        · rw [if_neg fun h => hk h.1]
          exact .inr ⟨rfl, (others k hk c).1 hbefore⟩
      | @device kind node files =>
        have hdevice := (hwrites.trans hgrown).device node
        rw [if_neg]
        · exact .inr ⟨rfl, (files k c).1 hbefore⟩
        · rintro ⟨-, hfile⟩
          rw [isFile, hdevice] at hfile
          cases hfile

/-- Extracting entries once more changes nothing. -/
theorem exec_extractList_settled {index : Nat} {es : List Entry}
    (h : (extractList dir index es).exec s = (.ok files, s')) (events : List Event) :
    (extractList dir index es).exec ⟨s'.state, events⟩ =
      (.ok files, ⟨s'.state, events ++ extractEvents dir index es⟩) := by
  obtain ⟨t, hagain, honly, hfiles⟩ := extractList_again (t := ⟨s'.state, events⟩) h (.refl _)
  obtain ⟨-, hevents, -⟩ := extractList_eq_ok hagain
  have hstate : t.state = s'.state := honly.eq fun k c hnode => by
    rcases hfiles k c hnode with hheld | ⟨hkept, -⟩
    · exact hheld
    · exact hkept.trans hnode
  rw [hagain, ← hstate, ← hevents]

/-! ## The image again -/

def Event.isCreatedDir : Event → Bool
  | .createdDir _ => true
  | _ => false

/-- Where the output directory is there, it is not made. -/
theorem exec_prepareDirectory_of_find {d : NodeId} (hfind : s.state.find dir = .ok d)
    (hdir : s.state.isDirectory d = true) : (prepareDirectory dir).exec s = (.ok (), s) := by
  unfold prepareDirectory
  rw [exec_bind_ok (exec_get s)]
  dsimp only
  rw [hfind]
  dsimp only
  rw [if_pos hdir]
  rfl

/-- Once it is prepared, the output directory is there, and it was made or was there before. -/
theorem find_of_prepareDirectory (hne : dir.bytes ≠ [])
    (h : (prepareDirectory dir).start fs = (.ok (), s)) :
    (∃ d, s.state.find dir = .ok d ∧ s.state.isDirectory d = true)
      ∧ s.events.filter (fun e => !e.isCreatedDir) = [] := by
  rw [Task.start] at h
  rcases prepareDirectory_cases dir ⟨fs, []⟩ with ⟨d, hfind, hdir, hexec⟩ | ⟨-, made, hmake, hexec⟩ |
    ⟨e, s', hexec, -⟩
  · cases hexec.symm.trans h
    exact ⟨⟨d, hfind, hdir⟩, rfl⟩
  · cases hexec.symm.trans h
    exact ⟨isDirectoryAt_iff.1 (isDirectoryAt_of_makeDirs hne hmake), rfl⟩
  · cases hexec.symm.trans h

/-- Preparing the directory and extracting entries once more changes nothing, and the directory is not
made again. -/
theorem extractInto_settled (hne : dir.bytes ≠ [])
    (h : (extractInto dir entries).start fs = (.ok files, s)) :
    Relation.ReflTransGen (WritesBelow dir) (prepared fs dir) s.state
      ∧ prepared s.state dir = s.state
      ∧ (extractInto dir entries).start s.state =
        (.ok files, ⟨s.state, s.events.filter fun e => !e.isCreatedDir⟩) := by
  rw [Task.start] at h
  obtain ⟨⟨⟩, s₁, hprepare, hlist⟩ := exec_bind_eq_ok_iff.1 h
  obtain ⟨⟨d, hfind, hdir⟩, hmade⟩ := find_of_prepareDirectory hne hprepare
  obtain ⟨-, hevents, -⟩ := extractList_eq_ok hlist
  have hwrites := writes_extractList dir 1 entries s₁
  rw [hlist] at hwrites
  have hgrown := extends_of_writes hwrites
  have hagain : (prepareDirectory dir).exec ⟨s.state, []⟩ = (.ok (), ⟨s.state, []⟩) :=
    exec_prepareDirectory_of_find (hgrown.find hfind) (hgrown.isDirectory hdir)
  refine ⟨?_, ?_, ?_⟩
  · rw [prepared, Task.start, hprepare]
    exact hwrites
  · rw [prepared, Task.start, hagain]
  · have hkept : (extractEvents dir 1 entries).filter (fun e => !e.isCreatedDir) =
        extractEvents dir 1 entries :=
      List.filter_eq_self.2
        (forall_mem_extractEvents (fun _ _ => rfl) (fun _ _ _ _ => rfl) dir 1 entries)
    rw [Task.start, extractInto, exec_bind_ok hagain, exec_extractList_settled hlist, hevents,
      List.filter_append, hmade, hkept]

/-- An image that was unpacked is unpacked again with the same result, and everything is left as it
is. The same is reported, but that the directory was made. -/
theorem unpack_again (hne : dir.bytes ≠ [])
    (hspared : ∀ j, fs.find image = .ok j → fs.isFile j = true → Spared dir j (prepared fs dir))
    (hunpack : (unpack image dir).start fs = (.ok u, s)) :
    (unpack image dir).start s.state =
      (.ok u, ⟨s.state, s.events.filter fun e => !e.isCreatedDir⟩) := by
  obtain ⟨j, b, himage, hnode⟩ := exists_file_of_unpack hunpack
  have hfile := isFile_iff.2 ⟨_, hnode⟩
  have hspared := hspared j himage hfile
  obtain ⟨n, rs, rest, files, t, rfl, hcount, hextract, rfl, rfl⟩ :=
    complete_of_unpack himage hnode hspared hunpack
  obtain ⟨hwrites, hprepared, hagain⟩ := extractInto_settled hne hextract
  have hgrown := (addsDirectories_prepared fs dir).toExtends.trans (extends_of_writes hwrites)
  have hnode' : t.state.node? j = some (.file (n :: (rs.flatMap Record.bytes ++ rest))) := by
    rw [hspared _ hwrites, node?_prepared hfile, hnode]
  have hspared' : Spared dir j (prepared t.state dir) := by
    rw [hprepared]
    exact hspared.of_writes hwrites
  rw [Task.start] at hagain
  rw [exec_unpack_complete (hgrown.find himage) hspared' hnode' hcount, Task.start,
    exec_unpackEntries, hagain]
  simp only [List.filter_append]
  congr 3
  · split_ifs <;> rfl
  · unfold trailingEvents
    split_ifs <;> rfl

/-- Two entries of one name: each time the first is written and then overwritten. -/
theorem unpack_again_plain : ∃ s,
    (unpack (Path.ofString "i") (Path.ofString "d")).start
        (plainTree (2 :: (Entry.encode ⟨"f", [8]⟩ ++ Entry.encode ⟨"f", [9]⟩))) =
      (.ok ⟨[Path.ofString "d/f", Path.ofString "d/f"], 0⟩, s)
      ∧ s.state.node? 3 = some (.file [9])
      ∧ (unpack (Path.ofString "i") (Path.ofString "d")).start s.state =
        (.ok ⟨[Path.ofString "d/f", Path.ofString "d/f"], 0⟩,
          ⟨s.state, s.events.filter fun e => !e.isCreatedDir⟩) := by
  have hlen : (Text.Utf8.encode "f").length ≤ Name.maxLength := by decide
  have hzero : 0 ∉ Text.Utf8.encode "f" := by decide
  let rs : List Record := [.ofEntry ⟨"f", [8]⟩ hlen hzero (by decide),
    .ofEntry ⟨"f", [9]⟩ hlen hzero (by decide)]
  have himage : 2 :: (Entry.encode ⟨"f", [8]⟩ ++ Entry.encode ⟨"f", [9]⟩) =
      2 :: (rs.flatMap Record.bytes ++ []) := by
    rw [List.append_nil, List.flatMap_cons, List.flatMap_singleton]
    rfl
  generalize 2 :: (Entry.encode ⟨"f", [8]⟩ ++ Entry.encode ⟨"f", [9]⟩) = content at himage ⊢
  have hfind : (plainTree content).find (Path.ofString "i") = .ok 1 := by cbv
  have hnode : (plainTree content).node? 1 = some (.file (2 :: (rs.flatMap Record.bytes ++ []))) := by
    rw [← himage]
    rfl
  have hspared := spared_prepared_plainTree content
  have hextract : (extractInto (Path.ofString "d") [⟨"f", [8]⟩, ⟨"f", [9]⟩]).start
      (plainTree content) = (.ok [Path.ofString "d/f", Path.ofString "d/f"],
        ⟨(plainTree content).setNode 3 (.file [9]), [.unpacked 1 "f" 1 (Path.ofString "d/f"),
          .unpacked 2 "f" 1 (Path.ofString "d/f")]⟩) := by cbv
  have hunpack : (unpack (Path.ofString "i") (Path.ofString "d")).start (plainTree content) =
      (.ok ⟨[Path.ofString "d/f", Path.ofString "d/f"], 0⟩,
        ⟨(plainTree content).setNode 3 (.file [9]), [.unpacked 1 "f" 1 (Path.ofString "d/f"),
          .unpacked 2 "f" 1 (Path.ofString "d/f")]⟩) := by
    have hentries : rs.map Record.entry = [⟨"f", [8]⟩, ⟨"f", [9]⟩] := rfl
    rw [exec_unpack_complete hfind hspared hnode rfl, hentries, Task.start, exec_unpackEntries]
    rw [Task.start] at hextract
    rw [hextract]
    rfl
  have hspared' : ∀ j, (plainTree content).find (Path.ofString "i") = .ok j →
      (plainTree content).isFile j = true →
      Spared (Path.ofString "d") j (prepared (plainTree content) (Path.ofString "d")) := by
    intro j hj _
    cases hfind.symm.trans hj
    exact hspared
  exact ⟨_, hunpack, rfl, unpack_again (by decide) hspared' hunpack⟩

end FlatArchive
