-- SUMMARY: File systems that grow: nothing is removed, and what a path leads to stays.
import FlatArchive.Proofs.Walks

/-!
# Growth

Packing and unpacking change the table of nodes in two ways: a file gets another content, and a new
file or an empty directory gets a name that was free. Under both the file system only grows
(`Extends`): every node stays what it is, and every name keeps its node. So a path that leads to a
node still leads to it, and one that led to a free place leads to what was put there.
-/

namespace FlatArchive.FileSystem

variable {fs fs' fs'' : FileSystem} {i j dir : NodeId} {name : Bytes} {n : Node}

/-! ## The table -/

theorem isDirectory_iff :
    fs.isDirectory i = true ↔ ∃ parent entries, fs.node? i = some (.directory parent entries) := by
  unfold isDirectory
  cases fs.node? i with
  | none => simp
  | some n => cases n <;> simp

theorem isFile_iff : fs.isFile i = true ↔ ∃ content, fs.node? i = some (.file content) := by
  unfold isFile
  cases fs.node? i with
  | none => simp
  | some n => cases n <;> simp

/-- Only a file has content. -/
theorem isFile_of_length_content (h : (fs.content i).length ≠ 0) : fs.isFile i = true := by
  unfold content at h
  split at h
  · next bs hnode => exact isFile_iff.2 ⟨bs, hnode⟩
  · exact absurd rfl h

theorem isDirectory_eq_false_of_isFile (h : fs.isFile i = true) : fs.isDirectory i = false := by
  obtain ⟨content, hnode⟩ := isFile_iff.1 h
  rw [isDirectory, hnode]

theorem ne_of_isFile_of_isDirectory (hfile : fs.isFile i = true) (hdir : fs.isDirectory j = true) :
    i ≠ j := by
  rintro rfl
  rw [isDirectory_eq_false_of_isFile hfile] at hdir
  cases hdir

theorem lt_size_of_node? (h : fs.node? i = some n) : i < fs.nodes.size :=
  (Array.getElem?_eq_some_iff.1 h).1

theorem lt_size_of_isDirectory (h : fs.isDirectory i = true) : i < fs.nodes.size := by
  obtain ⟨parent, entries, hnode⟩ := isDirectory_iff.1 h
  exact lt_size_of_node? hnode

theorem lt_size_of_isFile (h : fs.isFile i = true) : i < fs.nodes.size := by
  obtain ⟨content, hnode⟩ := isFile_iff.1 h
  exact lt_size_of_node? hnode

theorem node?_of_size_le (h : fs.nodes.size ≤ i) : fs.node? i = none :=
  Array.getElem?_eq_none h

theorem isDirectory_of_child? (h : fs.child? i name = some j) : fs.isDirectory i = true := by
  unfold child? entries at h
  split at h
  · next parent entries hnode => exact isDirectory_iff.2 ⟨parent, entries, hnode⟩
  · cases h

theorem child?_eq_none_iff : fs.child? dir name = none ↔ ∀ i, (name, i) ∉ fs.entries dir := by
  rw [child?, List.lookup_eq_none_iff]
  constructor
  · intro h i hmem
    simpa using h _ hmem
  · rintro h ⟨key, i⟩ hmem
    rw [bne_iff_ne]
    rintro rfl
    exact h i hmem

theorem mem_entries_of_child? (h : fs.child? dir name = some i) : (name, i) ∈ fs.entries dir := by
  rw [child?, List.lookup_eq_some_iff] at h
  obtain ⟨before, after, heq, -⟩ := h
  rw [heq]
  exact List.mem_append_right _ List.mem_cons_self

/-- What a node can be found out to be depends on its entry in the table only. -/
theorem child?_of_node?_eq (h : fs'.node? i = fs.node? i) (name : Bytes) :
    fs'.child? i name = fs.child? i name := by
  rw [child?, child?, entries, entries, h]

theorem isDirectory_of_node?_eq (h : fs'.node? i = fs.node? i) :
    fs'.isDirectory i = fs.isDirectory i := by
  rw [isDirectory, isDirectory, h]

theorem content_of_node?_eq (h : fs'.node? i = fs.node? i) : fs'.content i = fs.content i := by
  rw [content, content, h]

theorem node?_setNode (fs : FileSystem) (n : Node) (h : i < fs.nodes.size) (j : NodeId) :
    (fs.setNode i n).node? j = if j = i then some n else fs.node? j := by
  rw [node?, setNode, Array.getElem?_setIfInBounds]
  by_cases heq : i = j
  · rw [if_pos heq, if_pos h, if_pos heq.symm]
  · rw [if_neg heq, if_neg fun h => heq h.symm]
    rfl

theorem size_setNode (fs : FileSystem) (i : NodeId) (n : Node) :
    (fs.setNode i n).nodes.size = fs.nodes.size := Array.size_setIfInBounds

theorem setNode_setNode (fs : FileSystem) (i : NodeId) (m n : Node) :
    (fs.setNode i m).setNode i n = fs.setNode i n := by
  simp only [setNode, Array.setIfInBounds_setIfInBounds]

/-- Setting a node to what it is changes nothing. -/
theorem setNode_self (h : fs.node? i = some n) : fs.setNode i n = fs := by
  obtain ⟨hlt, hget⟩ := Array.getElem?_eq_some_iff.1 h
  subst hget
  simp only [setNode, Array.setIfInBounds, hlt, dite_true, Array.set_getElem_self]

theorem lookup_filter_ne (entries : List (Bytes × NodeId)) (name name' : Bytes) :
    (entries.filter (·.1 != name)).lookup name' =
      if name' = name then none else entries.lookup name' := by
  induction entries with
  | nil => simp
  | cons e entries ih =>
    obtain ⟨key, k⟩ := e
    by_cases hkey : key = name
    · rw [List.filter_cons_of_neg (by simp [hkey]), ih]
      by_cases hname : name' = name
      · rw [if_pos hname, if_pos hname]
      · have hne : (name' == key) = false := by simp [hkey, hname]
        rw [if_neg hname, if_neg hname, List.lookup_cons, hne]
    · rw [List.filter_cons_of_pos (by simp [hkey]), List.lookup_cons, List.lookup_cons, ih]
      by_cases hname : name' = name
      · have hne : (name' == key) = false := by simp [hname, Ne.symm hkey]
        rw [hne, if_pos hname]
      · rw [if_neg hname, if_neg hname]

/-- The names of a directory in which one was bound anew. -/
theorem lookup_bind (entries : List (Bytes × NodeId)) (name name' : Bytes) (i : NodeId) :
    (entries.filter (·.1 != name) ++ [(name, i)]).lookup name' =
      if name' = name then some i else entries.lookup name' := by
  rw [List.lookup_append, lookup_filter_ne]
  by_cases hname : name' = name
  · simp [hname]
  · have hne : (name' == name) = false := by simp [hname]
    rw [if_neg hname, if_neg hname, List.lookup_cons, hne]
    simp

/-- The names stay different: the new one takes the place of the same name. -/
theorem nodup_bind {entries : List (Bytes × NodeId)} (hnodup : (entries.map (·.1)).Nodup)
    (name : Bytes) (i : NodeId) :
    ((entries.filter (·.1 != name) ++ [(name, i)]).map (·.1)).Nodup := by
  rw [List.map_append]
  refine (hnodup.sublist (List.Sublist.map _ List.filter_sublist)).append
    (List.nodup_singleton _) (List.disjoint_singleton.2 ?_)
  intro hmem
  obtain ⟨entry, hentry, heq⟩ := List.mem_map.1 hmem
  simp [heq] at hentry

theorem node?_alloc (fs : FileSystem) (n : Node) (j : NodeId) :
    (fs.alloc n).2.node? j = if j = fs.nodes.size then some n else fs.node? j :=
  Array.getElem?_push

theorem addNode_eq {parent : NodeId} {entries : List (Bytes × NodeId)}
    (hdir : fs.node? dir = some (.directory parent entries)) (name : Bytes) (n : Node) :
    fs.addNode dir name n = (fs.nodes.size, (fs.alloc n).2.setNode dir
      (.directory parent (entries.filter (fun e => e.1 != name) ++ [(name, fs.nodes.size)]))) := by
  have hne : dir ≠ fs.nodes.size := Nat.ne_of_lt (lt_size_of_node? hdir)
  have halloc : (fs.alloc n).2.node? dir = some (.directory parent entries) := by
    rw [node?_alloc, if_neg hne, hdir]
  simp only [addNode, bindName]
  rw [halloc]
  rfl

/-- The table after a node was added under a name. -/
theorem node?_addNode {parent : NodeId} {entries : List (Bytes × NodeId)}
    (hdir : fs.node? dir = some (.directory parent entries)) (name : Bytes) (n : Node) (j : NodeId) :
    (fs.addNode dir name n).2.node? j =
      if j = dir then some (.directory parent
        (entries.filter (fun e => e.1 != name) ++ [(name, fs.nodes.size)]))
      else if j = fs.nodes.size then some n else fs.node? j := by
  have hsize : (fs.alloc n).2.nodes.size = fs.nodes.size + 1 := Array.size_push _
  have hlt : dir < (fs.alloc n).2.nodes.size :=
    hsize ▸ Nat.lt_succ_of_lt (lt_size_of_node? hdir)
  rw [addNode_eq hdir]
  dsimp only
  rw [node?_setNode _ _ hlt, node?_alloc]

/-- What was added is the first new node. -/
theorem node?_addNode_new (hdir : fs.isDirectory dir = true) (name : Bytes) (n : Node) :
    (fs.addNode dir name n).2.node? fs.nodes.size = some n := by
  obtain ⟨parent, entries, hnode⟩ := isDirectory_iff.1 hdir
  rw [node?_addNode hnode, if_neg (Nat.ne_of_lt (lt_size_of_node? hnode)).symm, if_pos rfl]

theorem size_addNode (hdir : fs.isDirectory dir = true) (name : Bytes) (n : Node) :
    (fs.addNode dir name n).2.nodes.size = fs.nodes.size + 1 := by
  obtain ⟨parent, entries, hnode⟩ := isDirectory_iff.1 hdir
  rw [addNode_eq hnode, size_setNode]
  exact Array.size_push _

/-- The names after an empty node was added under a name. -/
theorem child?_addNode (hdir : fs.isDirectory dir = true) (name : Bytes)
    (hn : ∀ parent entries, n = .directory parent entries → entries = []) (j : NodeId)
    (name' : Bytes) :
    (fs.addNode dir name n).2.child? j name' =
      if j = dir ∧ name' = name then some fs.nodes.size else fs.child? j name' := by
  obtain ⟨parent, entries, hnode⟩ := isDirectory_iff.1 hdir
  have htable := node?_addNode hnode name n j
  by_cases hj : j = dir
  · subst hj
    rw [if_pos rfl] at htable
    simp only [child?, FileSystem.entries, htable, hnode, lookup_bind, true_and]
  · rw [if_neg hj] at htable
    rw [if_neg fun h => hj h.1]
    by_cases hnew : j = fs.nodes.size
    · rw [if_pos hnew] at htable
      have hnone : fs.node? j = none := node?_of_size_le (Nat.le_of_eq hnew.symm)
      simp only [child?, FileSystem.entries, htable, hnone]
      cases n with
      | directory p es => rw [hn p es rfl]
      | file c => rfl
      | link t => rfl
      | device k => rfl
    · rw [if_neg hnew] at htable
      exact child?_of_node?_eq htable name'

/-- What a file holds does not matter to the names. -/
theorem child?_setFile (hfile : fs.isFile i = true) (content : Bytes) (j : NodeId) (name : Bytes) :
    (fs.setNode i (.file content)).child? j name = fs.child? j name := by
  obtain ⟨content₀, hnode⟩ := isFile_iff.1 hfile
  have htable := node?_setNode fs (.file content) (lt_size_of_isFile hfile)
  by_cases hj : j = i
  · subst hj
    simp [child?, entries, hnode, htable]
  · exact child?_of_node?_eq (by rw [htable, if_neg hj]) name

/-! ## Growth -/

/-- From `fs` to `fs'` nothing was removed: every node is what it was, a file perhaps with another
content and a directory perhaps with more names. No link was made, and only new nodes got names. -/
structure Extends (fs fs' : FileSystem) : Prop where
  root : fs'.root = fs.root
  cwd : fs'.cwd = fs.cwd
  pathLimit : fs'.pathLimit = fs.pathLimit
  size_le : fs.nodes.size ≤ fs'.nodes.size
  file : ∀ {i content}, fs.node? i = some (.file content) →
    ∃ content', fs'.node? i = some (.file content')
  directory : ∀ {i parent entries}, fs.node? i = some (.directory parent entries) →
    ∃ entries', fs'.node? i = some (.directory parent entries')
  child : ∀ {i name j}, fs.child? i name = some j → fs'.child? i name = some j
  child_or_new : ∀ {i name j}, fs'.child? i name = some j →
    fs.child? i name = some j ∨ fs.child? i name = none ∧ fs.nodes.size ≤ j
  link : ∀ {i target}, fs'.node? i = some (.link target) ↔ fs.node? i = some (.link target)
  device : ∀ {i kind}, fs.node? i = some (.device kind) → fs'.node? i = some (.device kind)

namespace Extends

theorem refl (fs : FileSystem) : fs.Extends fs :=
  ⟨rfl, rfl, rfl, Nat.le_refl _, fun h => ⟨_, h⟩, fun h => ⟨_, h⟩, id, .inl, Iff.rfl, id⟩

theorem trans (h : fs.Extends fs') (h' : fs'.Extends fs'') : fs.Extends fs'' where
  root := h'.root.trans h.root
  cwd := h'.cwd.trans h.cwd
  pathLimit := h'.pathLimit.trans h.pathLimit
  size_le := Nat.le_trans h.size_le h'.size_le
  file hfile := by
    obtain ⟨content, hfile'⟩ := h.file hfile
    exact h'.file hfile'
  directory hdir := by
    obtain ⟨entries, hdir'⟩ := h.directory hdir
    exact h'.directory hdir'
  child hchild := h'.child (h.child hchild)
  child_or_new {i name j} hchild := by
    rcases h'.child_or_new hchild with hold | ⟨hnone, hnew⟩
    · exact h.child_or_new hold
    · refine .inr ⟨?_, Nat.le_trans h.size_le hnew⟩
      cases hbefore : fs.child? i name with
      | none => rfl
      | some k =>
        rw [h.child hbefore] at hnone
        cases hnone
  link := h'.link.trans h.link
  device hdevice := h'.device (h.device hdevice)

theorem isDirectory (h : fs.Extends fs') (hdir : fs.isDirectory i = true) :
    fs'.isDirectory i = true := by
  obtain ⟨parent, entries, hnode⟩ := isDirectory_iff.1 hdir
  obtain ⟨entries', hnode'⟩ := h.directory hnode
  exact isDirectory_iff.2 ⟨parent, entries', hnode'⟩

theorem isFile (h : fs.Extends fs') (hfile : fs.isFile i = true) : fs'.isFile i = true := by
  obtain ⟨content, hnode⟩ := isFile_iff.1 hfile
  exact isFile_iff.2 (h.file hnode)

theorem parentOf (h : fs.Extends fs') (hdir : fs.isDirectory i = true) :
    fs'.parentOf i = fs.parentOf i := by
  obtain ⟨parent, entries, hnode⟩ := isDirectory_iff.1 hdir
  obtain ⟨entries', hnode'⟩ := h.directory hnode
  rw [FileSystem.parentOf, FileSystem.parentOf, hnode, hnode']

theorem start (h : fs.Extends fs') (a : NodeId) (p : Path) : fs'.start a p = fs.start a p := by
  rw [FileSystem.start, FileSystem.start, h.root]

theorem accepts (h : fs.Extends fs') {p : Path} (haccepts : fs.Accepts p) : fs'.Accepts p :=
  haccepts.of_pathLimit_eq h.pathLimit.symm

/-- A node of before is a file or a directory only if it was one. -/
theorem isFile_of_lt (h : fs.Extends fs') (hlt : i < fs.nodes.size) (hfile : fs'.isFile i = true) :
    fs.isFile i = true := by
  obtain ⟨content, hnode'⟩ := isFile_iff.1 hfile
  obtain ⟨n, hnode⟩ : ∃ n, fs.node? i = some n := ⟨_, Array.getElem?_eq_getElem hlt⟩
  cases n with
  | file c => exact isFile_iff.2 ⟨c, hnode⟩
  | directory parent entries =>
    obtain ⟨entries', hdir⟩ := h.directory hnode
    rw [hdir] at hnode'
    cases hnode'
  | link target =>
    rw [h.link.2 hnode] at hnode'
    cases hnode'
  | device kind =>
    rw [h.device hnode] at hnode'
    cases hnode'

theorem isDirectory_of_lt (h : fs.Extends fs') (hlt : i < fs.nodes.size)
    (hdir : fs'.isDirectory i = true) : fs.isDirectory i = true := by
  obtain ⟨parent, entries, hnode'⟩ := isDirectory_iff.1 hdir
  obtain ⟨n, hnode⟩ : ∃ n, fs.node? i = some n := ⟨_, Array.getElem?_eq_getElem hlt⟩
  cases n with
  | file c =>
    obtain ⟨c', hfile⟩ := h.file hnode
    rw [hfile] at hnode'
    cases hnode'
  | directory parent entries => exact isDirectory_iff.2 ⟨parent, entries, hnode⟩
  | link target =>
    rw [h.link.2 hnode] at hnode'
    cases hnode'
  | device kind =>
    rw [h.device hnode] at hnode'
    cases hnode'

/-- A walk still goes where it went. -/
theorem walks (h : fs.Extends fs') {links left : Nat} {a d : NodeId} {steps rest : List Step}
    (hwalks : fs.Walks rest links a steps d left) : fs'.Walks rest links a steps d left := by
  induction hwalks with
  | stay => exact .stay
  | here hdir _ ih => exact .here (h.isDirectory hdir) ih
  | closing hdir _ ih => exact .closing (h.isDirectory hdir) ih
  | up hdir _ ih =>
    rw [← h.parentOf hdir] at ih
    exact .up (h.isDirectory hdir) ih
  | enter hdir hlen hchild hlink _ ih =>
    exact .enter (h.isDirectory hdir) hlen (h.child hchild) (fun t ht => hlink t (h.link.1 ht)) ih
  | follow hdir hlen hchild hlink htarget _ ih =>
    rw [← h.start] at ih
    exact .follow (h.isDirectory hdir) hlen (h.child hchild) (h.link.2 hlink) htarget ih

/-- A walk to a place arrives at what was put there. -/
theorem walks_of_slot (h : fs.Extends fs') {purpose : Purpose} {links : Nat} {a d : NodeId}
    {steps : List Step} (hslot : fs.walk purpose links a steps = .ok (.slot d name))
    (hlen : name.length ≤ maxNameLength) (hchild : fs'.child? d name = some j)
    (hlink : ∀ target, fs'.node? j ≠ some (.link target))
    (hj : purpose = .create ∨ fs'.isDirectory j = true) :
    ∃ left, fs'.Walks [] links a steps j left := by
  obtain ⟨hd, -, rest, left, hwalks, hrest⟩ := walks_of_walk_slot hslot
  have hrest_walks : fs'.Walks [] left j rest j left := by
    rcases hrest with rfl | ⟨rfl, hpurpose⟩
    · exact .stay
    · exact .closing (hj.resolve_left hpurpose) .stay
  exact ⟨left, (h.walks hwalks).trans (.enter (h.isDirectory hd) hlen hchild hlink hrest_walks)⟩

/-- A path that leads to a node still does. -/
theorem find (h : fs.Extends fs') {p : Path} (hfind : fs.find p = .ok i) : fs'.find p = .ok i := by
  obtain ⟨haccepts, left, hwalks⟩ := find_eq_ok_iff.1 hfind
  refine find_eq_ok_iff.2 ⟨h.accepts haccepts, left, ?_⟩
  rw [h.cwd, h.start]
  exact h.walks hwalks

/-- A file gets another content. -/
theorem setFile (hfile : fs.isFile i = true) (content : Bytes) :
    fs.Extends (fs.setNode i (.file content)) := by
  have htable := node?_setNode fs (.file content) (lt_size_of_isFile hfile)
  obtain ⟨content₀, hnode⟩ := isFile_iff.1 hfile
  have hchild := child?_setFile hfile content
  refine ⟨rfl, rfl, rfl, Nat.le_of_eq (size_setNode ..).symm, ?_, ?_, ?_, ?_, ?_, ?_⟩
  · intro j c hj
    rw [htable]
    split_ifs
    · exact ⟨content, rfl⟩
    · exact ⟨c, hj⟩
  · intro j parent entries hj
    rw [htable, if_neg (by rintro rfl; simp [hnode] at hj)]
    exact ⟨entries, hj⟩
  · intro j name k hj
    rw [hchild, hj]
  · intro j name k hj
    rw [hchild] at hj
    exact .inl hj
  · intro j target
    rw [htable]
    split_ifs with hj
    · rw [hj, hnode]
      simp
    · exact Iff.rfl
  · intro j kind hj
    rw [htable, if_neg (by rintro rfl; simp [hnode] at hj)]
    exact hj

/-- A new node without names of its own gets a name that was free. -/
theorem addNode (hdir : fs.isDirectory dir = true) (hfree : fs.child? dir name = none)
    (hlink : ∀ target, n ≠ .link target)
    (hn : ∀ parent entries, n = .directory parent entries → entries = []) :
    fs.Extends (fs.addNode dir name n).2 := by
  obtain ⟨parent, entries, hnode⟩ := isDirectory_iff.1 hdir
  have htable := node?_addNode hnode name n
  have hold : ∀ {j m}, fs.node? j = some m → j ≠ dir → (fs.addNode dir name n).2.node? j = some m := by
    intro j m hj hne
    rw [htable, if_neg hne, if_neg (Nat.ne_of_lt (lt_size_of_node? hj)), hj]
  have hne_dir : ∀ {j m}, fs.node? j = some m → m ≠ .directory parent entries → j ≠ dir := by
    rintro j m hj hm rfl
    rw [hnode] at hj
    exact hm (Option.some.inj hj).symm
  have hroot : (fs.addNode dir name n).2.root = fs.root := by rw [addNode_eq hnode]; rfl
  have hcwd : (fs.addNode dir name n).2.cwd = fs.cwd := by rw [addNode_eq hnode]; rfl
  have hlimit : (fs.addNode dir name n).2.pathLimit = fs.pathLimit := by rw [addNode_eq hnode]; rfl
  refine ⟨hroot, hcwd, hlimit, ?_, ?_, ?_, ?_, ?_, ?_, ?_⟩
  · rw [size_addNode hdir]
    exact Nat.le_succ _
  · intro j c hj
    exact ⟨c, hold hj (hne_dir hj nofun)⟩
  · intro j parent' entries' hj
    by_cases hjd : j = dir
    · subst hjd
      rw [hnode] at hj
      cases hj
      rw [htable, if_pos rfl]
      exact ⟨_, rfl⟩
    · exact ⟨entries', hold hj hjd⟩
  · intro j name' k hj
    rw [child?_addNode hdir name hn, if_neg]
    · exact hj
    · rintro ⟨rfl, rfl⟩
      rw [hfree] at hj
      cases hj
  · intro j name' k hj
    rw [child?_addNode hdir name hn] at hj
    split_ifs at hj with hbound
    · cases hj
      obtain ⟨rfl, rfl⟩ := hbound
      exact .inr ⟨hfree, Nat.le_refl _⟩
    · exact .inl hj
  · intro j target
    constructor
    · intro hj
      rw [htable] at hj
      split_ifs at hj with hjd hjn
      · cases hj
      · exact absurd (Option.some.inj hj) (hlink target)
      · exact hj
    · intro hj
      exact hold hj (hne_dir hj nofun)
  · intro j kind hj
    exact hold hj (hne_dir hj nofun)

end Extends

/-- Where a path led to a free place, it leads to the node that was added there. -/
theorem find_addNode {purpose : Purpose} {p : Path}
    (hresolve : fs.resolve purpose p = .ok (.slot dir name)) (hlen : name.length ≤ maxNameLength)
    (hfree : fs.child? dir name = none) (hlink : ∀ target, n ≠ .link target)
    (hn : ∀ parent entries, n = .directory parent entries → entries = [])
    (hpurpose : purpose = .create ∨ ∃ parent entries, n = .directory parent entries) :
    (fs.addNode dir name n).2.find p = .ok fs.nodes.size := by
  have hwalk := walk_of_resolve_ok hresolve
  have hdir := (walks_of_walk_slot hwalk).1
  have hgrown : fs.Extends (fs.addNode dir name n).2 := .addNode hdir hfree hlink hn
  have hnew := node?_addNode_new hdir name n
  have hchild : (fs.addNode dir name n).2.child? dir name = some fs.nodes.size := by
    rw [child?_addNode hdir name hn, if_pos ⟨rfl, rfl⟩]
  have hdirectory : purpose = .create ∨ (fs.addNode dir name n).2.isDirectory fs.nodes.size = true := by
    refine hpurpose.imp_right ?_
    rintro ⟨parent, entries, rfl⟩
    exact isDirectory_iff.2 ⟨parent, entries, hnew⟩
  obtain ⟨left, hwalks⟩ := hgrown.walks_of_slot hwalk hlen hchild
    (fun target hnode => hlink target (Option.some.inj (hnew.symm.trans hnode))) hdirectory
  refine find_eq_ok_iff.2 ⟨hgrown.accepts (accepts_of_resolve_ok hresolve), left, ?_⟩
  rw [hgrown.cwd, hgrown.start]
  exact hwalks

/-! ## Paths under a directory -/

/-- The path starts where `dir` does and has its moves, and then `names`, which do not go up. -/
structure Under (dir p : Path) (names : List Step) : Prop where
  isAbsolute : p.isAbsolute = dir.isAbsolute
  moves : p.moves = dir.moves ++ names
  up_notMem : .up ∉ names

namespace Under

variable {dir p q : Path} {names : List Step} {d : NodeId}

theorem join (hne : dir.bytes ≠ []) (hstray : q.stray? = none) : Under dir (dir.join q) q.moves where
  isAbsolute := Path.isAbsolute_join hne (Path.isAbsolute_of_stray?_eq_none hstray)
  moves := Path.moves_join hne (Path.isAbsolute_of_stray?_eq_none hstray)
  up_notMem := Path.up_notMem_of_stray?_eq_none hstray

theorem parent (h : Under dir p names) (hne : names ≠ []) (hparent : p.parent = some q)
    (hq : q.bytes ≠ []) : Under dir q names.dropLast where
  isAbsolute := (Path.isAbsolute_parent hparent hq).trans h.isAbsolute
  moves := by rw [Path.moves_parent hparent, h.moves, List.dropLast_append_of_ne_nil hne]
  up_notMem hup := h.up_notMem (List.dropLast_subset _ hup)

/-- A path with no names leads to the directory itself. -/
theorem find (h : Under dir p []) (hfind : fs.find dir = .ok d) (hdir : fs.isDirectory d = true)
    (haccepts : fs.Accepts p) : fs.find p = .ok d := by
  obtain ⟨-, left, hwalks⟩ := find_eq_ok_iff.1 hfind
  have hmoves : Step.moves (Step.ofPath p) = Step.moves (Step.ofPath dir) := by
    rw [← Path.moves, h.moves, List.append_nil]
    rfl
  have hstart : fs.start fs.cwd p = fs.start fs.cwd dir := by
    rw [start, start, h.isAbsolute]
  refine find_eq_ok_iff.2 ⟨haccepts, left, ?_⟩
  rw [hstart]
  exact hwalks.of_moves_eq hdir hmoves

/-- A path with names passes through the directory, with the steps of its names still to come, and
it does so when the files have grown. -/
theorem walks (h : Under dir p names) (hne : names ≠ []) (hfind : fs.find dir = .ok d)
    (hdir : fs.isDirectory d = true) :
    ∃ front back left, Step.ofPath p = front ++ back ∧ Step.moves back = names
      ∧ back.head? = names.head? ∧ .up ∉ back
      ∧ ∀ {fs'}, fs.Extends fs' →
        fs'.Walks back maxLinks (fs'.start fs'.cwd p) (Step.ofPath p) d left
          ∧ ∀ purpose, fs'.walk purpose maxLinks (fs'.start fs'.cwd p) (Step.ofPath p) =
              fs'.walk purpose left d back := by
  obtain ⟨-, left, hwalks⟩ := find_eq_ok_iff.1 hfind
  obtain ⟨front, back, hsteps, hfront, hback, hhead⟩ := Step.exists_of_moves_eq_append h.moves hne
  have hstart : fs.start fs.cwd p = fs.start fs.cwd dir := by
    rw [start, start, h.isAbsolute]
  have hfront_walks : fs.Walks [] maxLinks (fs.start fs.cwd p) front d left := by
    rw [hstart]
    exact hwalks.of_moves_eq hdir hfront
  have hup : .up ∉ back := by
    intro hmem
    refine h.up_notMem ?_
    rw [← hback]
    exact List.mem_filter.2 ⟨hmem, rfl⟩
  have hmore : Step.noMore back = false := by
    obtain ⟨n, ns, rfl⟩ := List.exists_cons_of_ne_nil hne
    rw [← Bool.not_eq_true, Step.noMore_iff]
    rintro (rfl | rfl)
    · cases hback
    · cases hback
  refine ⟨front, back, left, hsteps, hback, hhead, hup, fun {fs'} hext => ?_⟩
  have hgrown : fs'.Walks [] maxLinks (fs'.start fs'.cwd p) front d left := by
    rw [hext.cwd, hext.start]
    exact hext.walks hfront_walks
  rw [hsteps]
  exact ⟨by simpa using hgrown.append back, fun purpose => hgrown.walk_append (.inr hmore)⟩

end Under

end FlatArchive.FileSystem
