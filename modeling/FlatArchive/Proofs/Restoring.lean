-- SUMMARY: Unpacking plain names into an empty directory stores the last content of each name.
import FlatArchive.Proofs.Unpacking

/-!
# Restoring

A name in a directory is a path whose parent is that directory, so nothing but the file itself is
written when an entry with such a name is unpacked: a new file if the name was free, and the file of
that name if there was one. In a directory that was empty all files are new and none has two names,
so after some entries it holds the last content of each of their names (`Restored`).
-/

namespace FlatArchive

open Attempt Text

namespace FileSystem

variable {base fs : FileSystem} {dir : Path} {d i : NodeId} {name : Bytes}

/-! ## Names in a directory -/

section Join

variable (hne : dir.bytes ≠ []) (hname : OrdinaryName name) (hfind : fs.find dir = .ok d)
  (hdir : fs.isDirectory d = true) (haccepts : fs.Accepts (dir.join ⟨name⟩))

include hne hname hfind hdir haccepts in
/-- To create a file under a name in a directory, that name is looked up there. -/
theorem resolve_create_join :
    (fs.child? d name = none → fs.resolve .create (dir.join ⟨name⟩) = .ok (.slot d name))
      ∧ ∀ {i}, fs.child? d name = some i → fs.isFile i = true →
          fs.resolve .create (dir.join ⟨name⟩) = .ok (.node i) := by
  obtain ⟨-, left, hwalks⟩ := find_eq_ok_iff.1 hfind
  obtain ⟨front, hsteps, hfront⟩ := Path.ofPath_join hne hname.slash_notMem hname.ofSegment
  have hstart : fs.start fs.cwd (dir.join ⟨name⟩) = fs.start fs.cwd dir := by
    rw [start, start, Path.isAbsolute_join hne (Path.isAbsolute_of_no_slash hname.slash_notMem)]
  have hwalk : fs.walk .create maxLinks (fs.start fs.cwd (dir.join ⟨name⟩))
      (Step.ofPath (dir.join ⟨name⟩)) = fs.walk .create left d [.down name] := by
    rw [hstart, hsteps]
    exact (hwalks.of_moves_eq hdir hfront).walk_append (.inr rfl)
  rw [haccepts.resolve, hwalk]
  constructor
  · intro hchild
    rw [walk_last_free hdir hname.length_le hchild]
    rfl
  · intro i hchild hfile
    obtain ⟨content, hnode⟩ := isFile_iff.1 hfile
    have hcreate : Purpose.create ≠ .place := by decide
    rw [walk_last_node hdir hname.length_le hcreate hchild (by simp [hnode])]
    rfl

include hne hname hfind hdir haccepts in
/-- The parent of a name in a directory is the directory, which need not be made. -/
theorem makeDirs_parent_join {parent : Path} (hparent : (dir.join ⟨name⟩).parent = some parent) :
    makeDirs parent fs = (.ok (), fs) := by
  by_cases hempty : parent.bytes = []
  · rw [makeDirs, if_pos hempty]
  · have hstray := Path.stray?_of_ofSegment hname.slash_notMem hname.ofSegment
    have hdot : name ≠ [Path.dot] := by
      rintro rfl
      cases hname.ofSegment
    have hnil : name ≠ [] := by
      rintro rfl
      cases hname.ofSegment
    obtain ⟨m, -, hmoves⟩ := Path.moves_segment hname.slash_notMem hnil hdot
    have hunder := Under.join hne hstray
    rw [hmoves] at hunder
    have hparent_under : Under dir parent [] := hunder.parent (by simp) hparent hempty
    exact makeDirs_of_find (hparent_under.find hfind hdir
      (haccepts.of_prefix (Path.parent_front hparent) hempty)) hdir

end Join

/-! ## Storing a file -/

/-- Let the file of that name in a directory hold `content`, a new one if the name is free. -/
def store (fs : FileSystem) (d : NodeId) (name content : Bytes) : FileSystem :=
  match fs.child? d name with
  | some i => fs.setNode i (.file content)
  | none => (fs.addNode d name (.file [])).2.setNode fs.nodes.size (.file content)

/-- A content was stored in file `i`, which had the name in the directory, or is a new one if the name
was free. All other nodes but the directory are what they were. -/
structure Stores (fs : FileSystem) (d : NodeId) (name content : Bytes) (i : NodeId)
    (fs' : FileSystem) : Prop where
  grown : fs.Extends fs'
  node : fs'.node? i = some (.file content)
  others : ∀ {j}, j ≠ d → j ≠ i → fs'.node? j = fs.node? j
  bound : fs.child? d name = some i ∧ fs'.entries d = fs.entries d
    ∨ fs.child? d name = none ∧ i = fs.nodes.size ∧ fs'.entries d = fs.entries d ++ [(name, i)]

theorem stores_store (name content : Bytes) (hdir : fs.isDirectory d = true)
    (hfile : ∀ {i}, fs.child? d name = some i → fs.isFile i = true) :
    ∃ i, fs.Stores d name content i (fs.store d name content) := by
  obtain ⟨parent, entries, hnode⟩ := isDirectory_iff.1 hdir
  cases hchild : fs.child? d name with
  | some i =>
    have hi := hfile hchild
    have htable := node?_setNode fs (.file content) (lt_size_of_isFile hi)
    have hstore : fs.store d name content = fs.setNode i (.file content) := by rw [store, hchild]
    rw [hstore]
    refine ⟨i, .setFile hi content, by rw [htable, if_pos rfl], ?_, .inl ⟨hchild, ?_⟩⟩
    · intro j _ hj
      rw [htable, if_neg hj]
    · rw [FileSystem.entries, FileSystem.entries, htable,
        if_neg (ne_of_isFile_of_isDirectory hi hdir).symm]
  | none =>
    have hadded := node?_addNode hnode name (.file [])
    have hnew : (fs.addNode d name (.file [])).2.isFile fs.nodes.size = true :=
      isFile_iff.2 ⟨[], node?_addNode_new hdir name _⟩
    have htable := node?_setNode _ (.file content) (lt_size_of_isFile hnew)
    have hgrown : fs.Extends (fs.addNode d name (.file [])).2 :=
      .addNode hdir hchild (fun t h => by cases h) (fun p es h => by cases h)
    have hfree : entries.filter (fun e => e.1 != name) = entries := by
      refine List.filter_eq_self.2 fun e hmem => ?_
      have hother := List.lookup_eq_none_iff.1 hchild e
      rw [FileSystem.entries, hnode] at hother
      rw [bne_comm]
      exact hother hmem
    have hstore : fs.store d name content =
        (fs.addNode d name (.file [])).2.setNode fs.nodes.size (.file content) := by
      rw [store, hchild]
    rw [hstore]
    refine ⟨fs.nodes.size, hgrown.trans (.setFile hnew content), by rw [htable, if_pos rfl], ?_,
      .inr ⟨hchild, rfl, ?_⟩⟩
    · intro j hjd hj
      rw [htable, if_neg hj, hadded, if_neg hjd, if_neg hj]
    · rw [FileSystem.entries, FileSystem.entries, htable,
        if_neg (Nat.ne_of_lt (lt_size_of_node? hnode)), hadded, if_pos rfl, hnode, hfree]

/-- A file is written where creating it is looked up in a directory. -/
theorem exec_writeFile_of_resolve {p : Path} (hdir : fs.isDirectory d = true)
    (hnew : fs.child? d name = none → fs.resolve .create p = .ok (.slot d name))
    (hold : ∀ {i}, fs.child? d name = some i →
      fs.isFile i = true ∧ fs.resolve .create p = .ok (.node i)) (content : Bytes) :
    (writeFile p content).exec fs = (.ok (), fs.store d name content) := by
  have hwrite : ∀ {fs' : FileSystem} {i : NodeId}, fs'.node? i = some (.file []) →
      (writeAt i 0 content).exec fs' = (.ok (), fs'.setNode i (.file content)) := by
    intro fs' i hnode
    rw [writeAt, exec_ofFn, hnode]
    simp only [overwrite_nil]
  cases hchild : fs.child? d name with
  | none =>
    have hcreate : (create p).exec fs = (.ok fs.nodes.size, (fs.addNode d name (.file [])).2) := by
      rw [create, exec_ofFn, hnew hchild]
      rfl
    rw [writeFile, exec_bind_ok hcreate, hwrite (node?_addNode_new hdir name _), store, hchild]
  | some i =>
    obtain ⟨hfile, hresolve⟩ := hold hchild
    obtain ⟨content', hnode⟩ := isFile_iff.1 hfile
    have hcreate : (create p).exec fs = (.ok i, fs.setNode i (.file [])) := by
      rw [create, exec_ofFn, hresolve]
      simp only [hnode]
    have hempty : (fs.setNode i (.file [])).node? i = some (.file []) := by
      rw [node?_setNode _ _ (lt_size_of_node? hnode), if_pos rfl]
    rw [writeFile, exec_bind_ok hcreate, hwrite hempty, setNode_setNode, store, hchild]

theorem exec_writeFile_join (hne : dir.bytes ≠ []) (hname : OrdinaryName name)
    (hfind : fs.find dir = .ok d) (hdir : fs.isDirectory d = true)
    (haccepts : fs.Accepts (dir.join ⟨name⟩))
    (hfile : ∀ {i}, fs.child? d name = some i → fs.isFile i = true) (content : Bytes) :
    (writeFile (dir.join ⟨name⟩) content).exec fs = (.ok (), fs.store d name content) := by
  obtain ⟨hnew, hold⟩ := resolve_create_join hne hname hfind hdir haccepts
  exact exec_writeFile_of_resolve hdir hnew
    (fun hchild => ⟨hfile hchild, hold hchild (hfile hchild)⟩) content

/-! ## What a directory holds -/

/-- The directory holds one file for each name that `files` gives a content, with that content, and
it holds nothing else. -/
structure Contains (fs : FileSystem) (d : NodeId) (files : Bytes → Option Bytes) : Prop where
  nodup_names : ((fs.entries d).map (·.1)).Nodup
  nodup_nodes : ((fs.entries d).map (·.2)).Nodup
  stored : ∀ {name i}, (name, i) ∈ fs.entries d →
    ∃ content, fs.node? i = some (.file content) ∧ files name = some content
  complete : ∀ {name content}, files name = some content → ∃ i, (name, i) ∈ fs.entries d

/-- The content of the last entry of that name. -/
def lastEntry (entries : List Entry) (name : Bytes) : Option Bytes :=
  (entries.reverse.find? fun e => Utf8.encode e.name == name).map Entry.content

theorem lastEntry_concat (entries : List Entry) (e : Entry) (name : Bytes) :
    lastEntry (entries ++ [e]) name =
      if Utf8.encode e.name = name then some e.content else lastEntry entries name := by
  rw [lastEntry, List.reverse_append, List.reverse_singleton, List.singleton_append, List.find?_cons]
  by_cases hname : Utf8.encode e.name = name
  · simp [hname]
  · have hneq : (Utf8.encode e.name == name) = false := by simp [hname]
    rw [hneq, if_neg hname]
    rfl

/-- After the entries `done` were unpacked into the empty directory `d` of `base`. -/
structure Restored (base : FileSystem) (d : NodeId) (done : List Entry) (fs : FileSystem) : Prop where
  extends_base : base.Extends fs
  others : ∀ {i}, i < base.nodes.size → i ≠ d → fs.node? i = base.node? i
  contains : fs.Contains d (lastEntry done)
  new : ∀ {name i}, (name, i) ∈ fs.entries d → base.nodes.size ≤ i

namespace Restored

theorem refl (hempty : base.entries d = []) : Restored base d [] base where
  extends_base := .refl base
  others _ _ := rfl
  contains := ⟨by simp [hempty], by simp [hempty], by simp [hempty], nofun⟩
  new hmem := by simp [hempty] at hmem

variable {done : List Entry}

theorem isFile_of_child? (h : Restored base d done fs) (hchild : fs.child? d name = some i) :
    fs.isFile i = true := by
  obtain ⟨content, hnode, -⟩ := h.contains.stored (mem_entries_of_child? hchild)
  exact isFile_iff.2 ⟨content, hnode⟩

/-- Two names of the directory that stand for one file are the same. -/
theorem name_eq (h : Restored base d done fs) {name' : Bytes} (hmem : (name, i) ∈ fs.entries d)
    (hmem' : (name', i) ∈ fs.entries d) : name = name' :=
  congrArg Prod.fst (List.inj_on_of_nodup_map h.contains.nodup_nodes hmem hmem' rfl)

/-- A name of the directory stands for one file. -/
theorem node_eq (h : Restored base d done fs) {j : NodeId} (hmem : (name, i) ∈ fs.entries d)
    (hmem' : (name, j) ∈ fs.entries d) : i = j :=
  congrArg Prod.snd (List.inj_on_of_nodup_map h.contains.nodup_names hmem hmem' rfl)

section Store

variable {content : Bytes} {fs' : FileSystem}

/-- The name stands for the file that was stored, and the other names for what they did. -/
theorem mem_entries (h : Restored base d done fs) (hs : fs.Stores d name content i fs')
    {name' : Bytes} {j : NodeId} : (name', j) ∈ fs'.entries d ↔
      name' = name ∧ j = i ∨ name' ≠ name ∧ (name', j) ∈ fs.entries d := by
  rcases hs.bound with ⟨hchild, hentries⟩ | ⟨hchild, -, hentries⟩
  · have hold := mem_entries_of_child? hchild
    rw [hentries]
    by_cases hname : name' = name
    · subst hname
      simpa using ⟨fun hmem => h.node_eq hmem hold, fun hj => hj ▸ hold⟩
    · simp [hname]
  · have hfree := child?_eq_none_iff.1 hchild
    rw [hentries, List.mem_append, List.mem_singleton, Prod.mk.injEq]
    by_cases hname : name' = name
    · subst hname
      simp [hfree j]
    · simp [hname]

/-- There is still one file for each name, and one name for each file. -/
theorem nodup_entries (h : Restored base d done fs) (hs : fs.Stores d name content i fs') :
    ((fs'.entries d).map (·.1)).Nodup ∧ ((fs'.entries d).map (·.2)).Nodup := by
  rcases hs.bound with ⟨-, hentries⟩ | ⟨hchild, hi, hentries⟩
  · rw [hentries]
    exact ⟨h.contains.nodup_names, h.contains.nodup_nodes⟩
  · rw [hentries, List.map_append, List.map_append]
    constructor
    · refine h.contains.nodup_names.append (List.nodup_singleton _) (List.disjoint_singleton.2 ?_)
      intro hkey
      obtain ⟨⟨name', j⟩, hold, rfl⟩ := List.mem_map.1 hkey
      exact child?_eq_none_iff.1 hchild j hold
    · refine h.contains.nodup_nodes.append (List.nodup_singleton _) (List.disjoint_singleton.2 ?_)
      intro hkey
      obtain ⟨⟨name', j⟩, hold, hj⟩ := List.mem_map.1 hkey
      obtain ⟨content', hnode, -⟩ := h.contains.stored hold
      exact Nat.ne_of_lt (lt_size_of_node? hnode) (hj.trans hi)

/-- The file of another name is neither the directory nor the file that was stored. -/
theorem ne_of_mem_entries (h : Restored base d done fs) (hdir : fs.isDirectory d = true)
    (hs : fs.Stores d name content i fs') {name' : Bytes} {j : NodeId} (hname : name' ≠ name)
    (hmem : (name', j) ∈ fs.entries d) : j ≠ d ∧ j ≠ i := by
  obtain ⟨content', hnode, -⟩ := h.contains.stored hmem
  refine ⟨ne_of_isFile_of_isDirectory (isFile_iff.2 ⟨content', hnode⟩) hdir, ?_⟩
  rintro rfl
  rcases hs.bound with ⟨hchild, -⟩ | ⟨-, hj, -⟩
  · exact hname (h.name_eq hmem (mem_entries_of_child? hchild))
  · exact Nat.ne_of_lt (lt_size_of_node? hnode) hj

/-- Storing the content of one more entry under its name. -/
theorem store (h : Restored base d done fs) (hdir : base.isDirectory d = true) (e : Entry) :
    Restored base d (done ++ [e]) (fs.store d (Utf8.encode e.name) e.content) := by
  have hgrown_dir := h.extends_base.isDirectory hdir
  obtain ⟨i, hs⟩ := stores_store (Utf8.encode e.name) e.content hgrown_dir
    fun hchild => h.isFile_of_child? hchild
  -- All files of the directory are new, so a file of an outside name is never overwritten.
  have hi : base.nodes.size ≤ i := by
    rcases hs.bound with ⟨hchild, -⟩ | ⟨-, rfl, -⟩
    · exact h.new (mem_entries_of_child? hchild)
    · exact h.extends_base.size_le
  obtain ⟨hnames, hnodes⟩ := h.nodup_entries hs
  refine ⟨h.extends_base.trans hs.grown, ?_, ⟨hnames, hnodes, ?_, ?_⟩, ?_⟩
  · intro j hlt hjd
    rw [hs.others hjd (Nat.ne_of_lt (Nat.lt_of_lt_of_le hlt hi)), h.others hlt hjd]
  · intro name j hj
    rcases (h.mem_entries hs).1 hj with ⟨rfl, rfl⟩ | ⟨hname, hold⟩
    · exact ⟨e.content, hs.node, by rw [lastEntry_concat, if_pos rfl]⟩
    · obtain ⟨content, hcontent, hlast⟩ := h.contains.stored hold
      obtain ⟨hjd, hji⟩ := h.ne_of_mem_entries hgrown_dir hs hname hold
      refine ⟨content, by rw [hs.others hjd hji, hcontent], ?_⟩
      rw [lastEntry_concat, if_neg (Ne.symm hname), hlast]
  · intro name content hlast
    rw [lastEntry_concat] at hlast
    split_ifs at hlast with hname
    · exact ⟨i, (h.mem_entries hs).2 (.inl ⟨hname.symm, rfl⟩)⟩
    · obtain ⟨j, hj⟩ := h.contains.complete hlast
      exact ⟨j, (h.mem_entries hs).2 (.inr ⟨Ne.symm hname, hj⟩)⟩
  · intro name j hj
    rcases (h.mem_entries hs).1 hj with ⟨-, rfl⟩ | ⟨-, hold⟩
    · exact hi
    · exact h.new hold

end Store

end Restored

end FileSystem

/-! ## Extracting -/

open FileSystem

variable {base : FileSystem} {dir : Path} {d j : NodeId} {done : List Entry} {e : Entry}
  {s : Session FileSystem}

/-- Where the file of an entry is written. -/
def entryPath (dir : Path) (e : Entry) : Path := dir.join (Path.ofString e.name)

/-- The entry has a name that a directory can hold, also under the path of the directory, and a length
of 64 bits. -/
structure Extractable (fs : FileSystem) (dir : Path) (e : Entry) : Prop where
  name : OrdinaryName (Utf8.encode e.name)
  accepts : fs.Accepts (entryPath dir e)
  size : e.content.length < 2 ^ 64

section Extract

variable (hne : dir.bytes ≠ []) (hfind : base.find dir = .ok d) (hdir : base.isDirectory d = true)

include hne hfind hdir in
theorem exec_writeBelow (he : Extractable base dir e) (hs : Restored base d done s.state) :
    (writeBelow dir (Path.ofString e.name) e.content).exec s =
      (.ok (entryPath dir e), ⟨s.state.store d (Utf8.encode e.name) e.content, s.events⟩) := by
  have hfind' := hs.extends_base.find hfind
  have hdir' := hs.extends_base.isDirectory hdir
  have haccepts := hs.extends_base.accepts he.accepts
  have hwrite : (Task.io (.io "Write file" (some (entryPath dir e)))
      (writeFile (entryPath dir e) e.content)).exec s =
        (.ok (), ⟨s.state.store d (Utf8.encode e.name) e.content, s.events⟩) :=
    Task.exec_io_ok _ (exec_writeFile_join hne he.name hfind' hdir' haccepts
      (fun hchild => hs.isFile_of_child? hchild) e.content)
  unfold writeBelow
  cases hparent : (dir.join (Path.ofString e.name)).parent with
  | none =>
    simp only [hparent]
    exact exec_bind_ok hwrite
  | some parent =>
    have hmade : (Task.io (.io "Create directory" (some parent)) (createDirAll parent)).exec s =
        (.ok (), s) :=
      Task.exec_io_ok _ (makeDirs_parent_join hne he.name hfind' hdir' haccepts hparent)
    simp only [hparent]
    rw [exec_bind_ok hmade]
    exact exec_bind_ok hwrite

include hne hfind hdir in
theorem exec_extract (he : Extractable base dir e) (hs : Restored base d done s.state)
    (index : Nat) :
    (extract dir index e).exec s =
      (.ok (entryPath dir e), ⟨s.state.store d (Utf8.encode e.name) e.content,
        s.events ++ [.unpacked index e.name e.size (entryPath dir e)]⟩) := by
  have hstray : (Path.ofString e.name).stray? = none :=
    Path.stray?_of_ofSegment he.name.slash_notMem he.name.ofSegment
  have hname : (fileName index e.name).exec s = (.ok e.name, s) := by
    have hnonempty : e.name.isEmpty = false := by
      rw [← Bool.not_eq_true, String.isEmpty_iff]
      intro hempty
      have hsegment := he.name.ofSegment
      rw [hempty] at hsegment
      cases hsegment
    rw [fileName, hnonempty]
    rfl
  have hcheck : checkPath e.name = .ok (Path.ofString e.name) := by
    rw [checkPath, hstray]
  rw [extract, exec_bind_ok hname, exec_bind_ok (Task.exec_atEntry_ok
    ((exec_bind_ok (exec_liftM_eq_ok_iff.2 ⟨hcheck, rfl⟩)).trans
      (exec_writeBelow hne hfind hdir he hs))), exec_bind_ok (Task.exec_report _ _)]
  rfl

include hne hfind hdir in
/-- Extracting the entries that are left of an image that has nothing behind them. -/
theorem exec_extractAll {header : Header} (hold : j < base.nodes.size) (hjd : j ≠ d)
    (rest : List Entry) (hrest : ∀ e ∈ rest, Extractable base dir e)
    (hcount : header.count = done.length + rest.length) {image : ImageFile}
    (hstands : ImageFile.Stands s.state j image header done.length (rest.flatMap Entry.encode))
    (hs : Restored base d done s.state) :
    ∃ image' s', (extractAll dir rest.length image).exec s =
        (.ok (rest.map (entryPath dir), image'), s')
      ∧ Restored base d (done ++ rest) s'.state
      ∧ ImageFile.Stands s'.state j image' header (done.length + rest.length) []
      ∧ ∀ event ∈ s'.events, event ∈ s.events ∨
          ∃ index e, event = .unpacked index e.name e.size (entryPath dir e) := by
  induction rest generalizing done image s with
  | nil =>
    refine ⟨image, s, rfl, ?_, hstands, fun event hmem => .inl hmem⟩
    rwa [List.append_nil]
  | cons e rest ih =>
    have he := hrest e List.mem_cons_self
    have hlen : (Utf8.encode e.name).length ≤ Name.maxLength := he.name.length_le
    rw [List.flatMap_cons, ← Record.bytes_ofEntry hlen he.name.zero_notMem he.size] at hstands
    rw [List.length_cons] at hcount
    obtain ⟨image₁, hnext, hstands₁⟩ := hstands.next_record (by omega)
    have hextract := exec_extract hne hfind hdir he hs (done.length + 1)
    have hstored := hs.store hdir e
    -- The image was there and is not the directory, so storing the entry leaves it as it is.
    have hcontent : (s.state.store d (Utf8.encode e.name) e.content).content j = s.state.content j := by
      rw [content_of_node?_eq (hstored.others hold hjd), content_of_node?_eq (hs.others hold hjd)]
    have hstands' : ImageFile.Stands (s.state.store d (Utf8.encode e.name) e.content) j image₁ header
        (done ++ [e]).length (rest.flatMap Entry.encode) := by
      rw [List.length_append, List.length_singleton]
      exact hstands₁.of_content_eq hcontent
    have hcount' : header.count = (done ++ [e]).length + rest.length := by
      rw [List.length_append, List.length_singleton]
      omega
    obtain ⟨image₂, s₂, hall, hrestored, hstands₂, hevents⟩ :=
      ih (s := ⟨s.state.store d (Utf8.encode e.name) e.content,
          s.events ++ [.unpacked (done.length + 1) e.name e.size (entryPath dir e)]⟩)
        (fun e hmem => hrest e (List.mem_cons_of_mem _ hmem)) hcount' hstands' hstored
    refine ⟨image₂, s₂, exec_extractAll_succ hnext hextract hall, ?_, ?_, ?_⟩
    · simpa using hrestored
    · simpa [Nat.add_assoc, Nat.add_comm 1] using hstands₂
    · intro event hmem
      rcases hevents event hmem with hold | hnew
      · rcases List.mem_append.1 hold with hbefore | hunpacked
        · exact .inl hbefore
        · exact .inr ⟨done.length + 1, e, List.mem_singleton.1 hunpacked⟩
      · exact .inr hnew

end Extract

end FlatArchive
