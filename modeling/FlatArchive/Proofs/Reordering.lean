-- SUMMARY: Nothing that packing does depends on the order in which a directory lists its names.
import FlatArchive.Pack
import FlatArchive.Proofs.AlikeSinks
import FlatArchive.Proofs.Growth

/-!
# Reordered directories

A directory lists its names in some order. What is looked up by name is the same in every order, and
so are the sorted names of its files. So on file systems that differ in the order of the names alone
(`Reordered`) packing comes to the same result, with the same events, and leaves file systems that
again differ in nothing else.
-/

namespace FlatArchive

open Attempt

/-- The nodes are the same, or directories that have the same names, all distinct, in another order. -/
inductive Node.Reordered : Node → Node → Prop where
  | refl (n : Node) : Node.Reordered n n
  | directory (parent : NodeId) {entries entries' : List (Bytes × NodeId)}
      (perm : entries.Perm entries') (nodup : (entries.map (·.1)).Nodup) :
      Node.Reordered (.directory parent entries) (.directory parent entries')

namespace FileSystem

variable {fs fs' : FileSystem} {d i : NodeId} {name : Bytes}

/-! ## Names in a directory -/

/-- Where the names are distinct, each is bound to what it is found to be. -/
theorem lookup_eq_some_iff_of_nodup {entries : List (Bytes × NodeId)}
    (hnodup : (entries.map (·.1)).Nodup) : entries.lookup name = some i ↔ (name, i) ∈ entries := by
  rw [List.lookup_eq_some_iff]
  constructor
  · rintro ⟨before, after, rfl, -⟩
    exact List.mem_append_right _ List.mem_cons_self
  · intro hmem
    obtain ⟨before, after, rfl⟩ := List.append_of_mem hmem
    rw [List.map_append, List.map_cons, List.nodup_append] at hnodup
    refine ⟨before, after, rfl, fun e he => ?_⟩
    have hne := hnodup.2.2 e.1 (List.mem_map_of_mem he) name List.mem_cons_self
    simpa using Ne.symm hne

theorem lookup_eq_of_perm {entries entries' : List (Bytes × NodeId)} (hperm : entries.Perm entries')
    (hnodup : (entries.map (·.1)).Nodup) (name : Bytes) :
    entries'.lookup name = entries.lookup name := by
  have hnodup' := (hperm.map (·.1)).nodup_iff.1 hnodup
  refine Option.ext fun i => ?_
  rw [lookup_eq_some_iff_of_nodup hnodup, lookup_eq_some_iff_of_nodup hnodup', hperm.mem_iff]

/-- The names of the files in a directory, as it lists them. -/
def listedFiles (fs : FileSystem) (d : NodeId) : List Bytes :=
  ((fs.entries d).filter fun e => fs.isFile e.2).map (·.1)

theorem mem_listedFiles : name ∈ fs.listedFiles d ↔
    ∃ i, (name, i) ∈ fs.entries d ∧ fs.isFile i = true := by
  simp [listedFiles]

theorem fileNames_perm (fs : FileSystem) (d : NodeId) : (fs.fileNames d).Perm (fs.listedFiles d) :=
  List.mergeSort_perm _ _

theorem fileNames_sorted (fs : FileSystem) (d : NodeId) : (fs.fileNames d).Pairwise (· ≤ ·) := by
  have htrans : ∀ a b c : Bytes, decide (a ≤ b) = true → decide (b ≤ c) = true →
      decide (a ≤ c) = true := by
    simp only [decide_eq_true_eq]
    exact fun a b c => List.le_trans
  have htotal : ∀ a b : Bytes, (decide (a ≤ b) || decide (b ≤ a)) = true := by
    simp only [Bool.or_eq_true, decide_eq_true_eq]
    exact List.le_total
  exact (List.pairwise_mergeSort htrans htotal _).imp of_decide_eq_true

/-- Of the lists of the files in a directory only one is sorted. -/
theorem fileNames_eq {names : List Bytes} (hperm : names.Perm (fs.listedFiles d))
    (hsorted : names.Pairwise (· ≤ ·)) : fs.fileNames d = names :=
  ((fileNames_perm fs d).trans hperm.symm).eq_of_pairwise (fun _ _ _ _ => List.le_antisymm)
    (fileNames_sorted fs d) hsorted

/-! ## File systems -/

/-- The file systems are the same, but for the order in which directories list their names. -/
structure Reordered (fs fs' : FileSystem) : Prop where
  root : fs'.root = fs.root
  cwd : fs'.cwd = fs.cwd
  pathLimit : fs'.pathLimit = fs.pathLimit
  directorySize : fs'.directorySize = fs.directorySize
  size : fs'.nodes.size = fs.nodes.size
  node : ∀ {i n}, fs.node? i = some n → ∃ n', fs'.node? i = some n' ∧ n.Reordered n'

namespace Reordered

/-! ### What looks the same -/

theorem node_none (h : fs.Reordered fs') (hnone : fs.node? i = none) : fs'.node? i = none :=
  node?_of_size_le (h.size ▸ Array.getElem?_eq_none_iff.1 hnone)

/-- A node is what it was, or a directory with the same parent. -/
theorem node_cases (h : fs.Reordered fs') (i : NodeId) : fs'.node? i = fs.node? i
    ∨ ∃ parent entries entries', fs.node? i = some (.directory parent entries)
      ∧ fs'.node? i = some (.directory parent entries') := by
  cases hnode : fs.node? i with
  | none => exact .inl (h.node_none hnode)
  | some n =>
    obtain ⟨n', hnode', hn⟩ := h.node hnode
    cases hn with
    | refl => exact .inl hnode'
    | directory parent => exact .inr ⟨parent, _, _, rfl, hnode'⟩

theorem isDirectory (h : fs.Reordered fs') (i : NodeId) : fs'.isDirectory i = fs.isDirectory i := by
  rw [FileSystem.isDirectory, FileSystem.isDirectory]
  rcases h.node_cases i with heq | ⟨parent, entries, entries', hnode, hnode'⟩
  · rw [heq]
  · rw [hnode, hnode']

theorem isFile (h : fs.Reordered fs') (i : NodeId) : fs'.isFile i = fs.isFile i := by
  rw [FileSystem.isFile, FileSystem.isFile]
  rcases h.node_cases i with heq | ⟨parent, entries, entries', hnode, hnode'⟩
  · rw [heq]
  · rw [hnode, hnode']

theorem content (h : fs.Reordered fs') (i : NodeId) : fs'.content i = fs.content i := by
  rw [FileSystem.content, FileSystem.content]
  rcases h.node_cases i with heq | ⟨parent, entries, entries', hnode, hnode'⟩
  · rw [heq]
  · rw [hnode, hnode']

theorem parentOf (h : fs.Reordered fs') (i : NodeId) : fs'.parentOf i = fs.parentOf i := by
  rw [FileSystem.parentOf, FileSystem.parentOf]
  rcases h.node_cases i with heq | ⟨parent, entries, entries', hnode, hnode'⟩
  · rw [heq]
  · rw [hnode, hnode']

theorem link (h : fs.Reordered fs') (i : NodeId) (target : Bytes) :
    fs'.node? i = some (.link target) ↔ fs.node? i = some (.link target) := by
  rcases h.node_cases i with heq | ⟨parent, entries, entries', hnode, hnode'⟩
  · rw [heq]
  · simp [hnode, hnode']

theorem entries (h : fs.Reordered fs') (i : NodeId) : (fs'.entries i).Perm (fs.entries i) := by
  cases hnode : fs.node? i with
  | none => rw [FileSystem.entries, FileSystem.entries, hnode, h.node_none hnode]
  | some n =>
    obtain ⟨n', hnode', hn⟩ := h.node hnode
    rw [FileSystem.entries, FileSystem.entries, hnode, hnode']
    cases hn with
    | refl => exact .refl _
    | directory parent hperm => exact hperm.symm

theorem child? (h : fs.Reordered fs') (i : NodeId) (name : Bytes) :
    fs'.child? i name = fs.child? i name := by
  cases hnode : fs.node? i with
  | none =>
    rw [FileSystem.child?, FileSystem.child?, FileSystem.entries, FileSystem.entries, hnode,
      h.node_none hnode]
  | some n =>
    obtain ⟨n', hnode', hn⟩ := h.node hnode
    rw [FileSystem.child?, FileSystem.child?, FileSystem.entries, FileSystem.entries, hnode, hnode']
    cases hn with
    | refl => rfl
    | directory parent hperm hnodup => exact lookup_eq_of_perm hperm hnodup name

theorem resolve (h : fs.Reordered fs') (purpose : Purpose) (p : Path) :
    fs'.resolve purpose p = fs.resolve purpose p := by
  have hwalk := walk_congr h.root h.isDirectory h.parentOf h.child? h.link purpose
  have hstart : fs'.start fs'.cwd p = fs.start fs.cwd p := by
    rw [start, start, h.root, h.cwd]
  rw [FileSystem.resolve, FileSystem.resolve, hwalk, hstart, h.pathLimit]

theorem find (h : fs.Reordered fs') (p : Path) : fs'.find p = fs.find p := by
  rw [FileSystem.find, FileSystem.find, h.resolve]

theorem looksAlike (h : fs.Reordered fs') : fs.LooksAlike fs' where
  find p := (h.find p).symm
  isDirectory i := (h.isDirectory i).symm
  content i := (h.content i).symm
  directorySize := h.directorySize.symm

theorem listedFiles (h : fs.Reordered fs') (i : NodeId) :
    (fs'.listedFiles i).Perm (fs.listedFiles i) := by
  have hfile : (fun e : Bytes × NodeId => fs'.isFile e.2) = fun e => fs.isFile e.2 :=
    funext fun e => h.isFile e.2
  rw [FileSystem.listedFiles, FileSystem.listedFiles, hfile]
  exact ((h.entries i).filter _).map _

theorem fileNames (h : fs.Reordered fs') (i : NodeId) : fs'.fileNames i = fs.fileNames i :=
  fileNames_eq ((fileNames_perm fs i).trans (h.listedFiles i).symm) (fileNames_sorted fs i)

/-! ### What keeps them so -/

theorem setNode (h : fs.Reordered fs') {n n' : Node} (hlt : i < fs.nodes.size)
    (hn : n.Reordered n') : (fs.setNode i n).Reordered (fs'.setNode i n') where
  root := h.root
  cwd := h.cwd
  pathLimit := h.pathLimit
  directorySize := h.directorySize
  size := by rw [size_setNode, size_setNode, h.size]
  node {j m} hm := by
    rw [node?_setNode _ _ hlt] at hm
    rw [node?_setNode _ _ (h.size ▸ hlt)]
    split_ifs at hm ⊢
    · cases hm
      exact ⟨n', rfl, hn⟩
    · exact h.node hm

theorem bindName (h : fs.Reordered fs') (d : NodeId) (name : Bytes) (i : NodeId) :
    (fs.bindName d name i).Reordered (fs'.bindName d name i) := by
  cases hnode : fs.node? d with
  | none =>
    rw [FileSystem.bindName, FileSystem.bindName, hnode, h.node_none hnode]
    exact h
  | some n =>
    obtain ⟨n', hnode', hn⟩ := h.node hnode
    rw [FileSystem.bindName, FileSystem.bindName, hnode, hnode']
    cases hn with
    | refl =>
      cases n with
      | directory => exact h.setNode (lt_size_of_node? hnode) (.refl _)
      | file | link | device => exact h
    | directory parent hperm hnodup =>
      have hbound := Node.Reordered.directory parent ((hperm.filter _).append_right _)
        (nodup_bind hnodup name i)
      exact h.setNode (lt_size_of_node? hnode) hbound

theorem addNode (h : fs.Reordered fs') (d : NodeId) (name : Bytes) (n : Node) :
    (fs'.addNode d name n).1 = (fs.addNode d name n).1
      ∧ (fs.addNode d name n).2.Reordered (fs'.addNode d name n).2 := by
  have halloc : (fs.alloc n).2.Reordered (fs'.alloc n).2 :=
    { root := h.root
      cwd := h.cwd
      pathLimit := h.pathLimit
      directorySize := h.directorySize
      size := by simp only [alloc, Array.size_push, h.size]
      node := by
        intro j m hm
        rw [node?_alloc] at hm
        rw [node?_alloc, h.size]
        split_ifs at hm ⊢
        · exact ⟨m, hm, .refl m⟩
        · exact h.node hm }
  have hnumber : (fs'.alloc n).1 = (fs.alloc n).1 := h.size
  rw [FileSystem.addNode, FileSystem.addNode]
  dsimp only
  rw [hnumber]
  exact ⟨rfl, halloc.bindName d name _⟩

/-! ### Operations -/

theorem follows_create (p : Path) :
    Follows Reordered id (FileSystem.create p) (FileSystem.create p) := by
  refine follows_id fun {fs fs'} h => ?_
  rw [FileSystem.create, exec_ofFn, exec_ofFn, h.resolve]
  cases fs.resolve .create p with
  | error e => exact ⟨_, _, _, rfl, rfl, h⟩
  | ok spot =>
    cases spot with
    | slot dir name =>
      obtain ⟨hnumber, hadded⟩ := h.addNode dir name (.file [])
      dsimp only
      rw [hnumber]
      exact ⟨_, _, _, rfl, rfl, hadded⟩
    | node i =>
      dsimp only
      cases hnode : fs.node? i with
      | none =>
        rw [h.node_none hnode]
        exact ⟨_, _, _, rfl, rfl, h⟩
      | some n =>
        obtain ⟨n', hnode', hn⟩ := h.node hnode
        rw [hnode']
        cases hn with
        | directory => exact ⟨_, _, _, rfl, rfl, h⟩
        | refl =>
          cases n with
          | file =>
            have hemptied := h.setNode (lt_size_of_node? hnode) (.refl (.file []))
            exact ⟨_, _, _, rfl, rfl, hemptied⟩
          | directory | link | device => exact ⟨_, _, _, rfl, rfl, h⟩

theorem follows_writeAt (i : NodeId) (offset : Nat) (bs : Bytes) :
    Follows Reordered id (FileSystem.writeAt i offset bs) (FileSystem.writeAt i offset bs) := by
  refine follows_id fun {fs fs'} h => ?_
  rw [FileSystem.writeAt, exec_ofFn, exec_ofFn]
  cases hnode : fs.node? i with
  | none =>
    rw [h.node_none hnode]
    exact ⟨_, _, _, rfl, rfl, h⟩
  | some n =>
    obtain ⟨n', hnode', hn⟩ := h.node hnode
    rw [hnode']
    cases hn with
    | directory => exact ⟨_, _, _, rfl, rfl, h⟩
    | refl =>
      cases n with
      | file content =>
        have hwritten := h.setNode (lt_size_of_node? hnode) (.refl (.file (overwrite content offset bs)))
        exact ⟨_, _, _, rfl, rfl, hwritten⟩
      | device kind =>
        cases kind with
        | null => exact ⟨_, _, _, rfl, rfl, h⟩
        | full =>
          dsimp only
          split_ifs <;> exact ⟨_, _, _, rfl, rfl, h⟩
      | directory | link => exact ⟨_, _, _, rfl, rfl, h⟩

end Reordered

end FileSystem

/-! ## Writing -/

namespace FileWriter

/-- The writers are at the same point of the same file. -/
inductive Reordered (w : FileWriter) : FileWriter → Prop where
  | mk {files' : FileSystem} (files : w.files.Reordered files') :
      Reordered w { w with files := files' }

theorem follows_writeOut (bs : Bytes) :
    Follows Reordered id (ofFn fun w => writeOut w bs) (ofFn fun w => writeOut w bs) := by
  refine follows_id fun {w w'} h => ?_
  obtain ⟨h⟩ := h
  rcases hwrite : (FileSystem.writeAt w.node w.offset bs).exec w.files with ⟨r, files⟩
  obtain ⟨files', hwrite', h'⟩ := (FileSystem.Reordered.follows_writeAt _ _ _).exec_eq h hwrite
  rw [exec_ofFn, exec_ofFn, writeOut, writeOut]
  dsimp only
  rw [hwrite, hwrite']
  cases r <;> exact ⟨_, _, _, rfl, rfl, .mk h'⟩

theorem follows_flush : Follows Reordered id (ofFn flush) (ofFn flush) := by
  refine follows_id fun {w w'} h => ?_
  obtain ⟨h⟩ := h
  rw [exec_ofFn, exec_ofFn, flush, flush]
  dsimp only
  split_ifs
  · exact ⟨_, _, _, rfl, rfl, .mk h⟩
  · rcases hwrite : w.writeOut w.buffer with ⟨r, u⟩
    obtain ⟨u', hwrite', h'⟩ := (follows_writeOut w.buffer).exec_eq (.mk h) hwrite
    rw [exec_ofFn] at hwrite'
    rw [hwrite']
    obtain ⟨h'⟩ := h'
    cases r <;> exact ⟨_, _, _, rfl, rfl, .mk h'⟩

theorem follows_writePast (bs : Bytes) :
    Follows Reordered id (ofFn fun w => writePast w bs) (ofFn fun w => writePast w bs) := by
  refine follows_id fun {w w'} h => ?_
  have hbuffer : w'.buffer = w.buffer := by
    obtain ⟨h⟩ := h
    rfl
  have hroom : ∃ r u u', (if capacity - w.buffer.length < bs.length then w.flush else (.ok (), w)) = (r, u)
      ∧ (if capacity - w.buffer.length < bs.length then w'.flush else (.ok (), w')) = (r, u')
      ∧ u.Reordered u' := by
    split_ifs
    · rcases hflush : w.flush with ⟨r, u⟩
      obtain ⟨u', hflush', h'⟩ := follows_flush.exec_eq h hflush
      exact ⟨r, u, u', rfl, hflush', h'⟩
    · exact ⟨_, _, _, rfl, rfl, h⟩
  obtain ⟨r, u, u', hroom, hroom', h'⟩ := hroom
  rw [exec_ofFn, exec_ofFn, writePast, writePast, hbuffer, hroom, hroom']
  cases r with
  | error e => exact ⟨_, _, _, rfl, rfl, h'⟩
  | ok =>
    dsimp only
    split_ifs
    · rcases hwrite : u.writeOut bs with ⟨r, v⟩
      obtain ⟨v', hwrite', h''⟩ := (follows_writeOut bs).exec_eq h' hwrite
      exact ⟨r, v, v', rfl, hwrite', h''⟩
    · obtain ⟨h'⟩ := h'
      exact ⟨_, _, _, rfl, rfl, .mk h'⟩

theorem follows_sink : sink.Follows Reordered sink := by
  intro w w' bs h
  have hbuffer : w'.buffer = w.buffer := by
    obtain ⟨h⟩ := h
    rfl
  simp only [sink, write, hbuffer]
  split_ifs
  · obtain ⟨h⟩ := h
    exact ⟨rfl, .mk h⟩
  · rcases hpast : w.writePast bs with ⟨r, u⟩
    obtain ⟨u', hpast', h'⟩ := (follows_writePast bs).exec_eq h hpast
    rw [exec_ofFn] at hpast'
    rw [hpast']
    cases r <;> exact ⟨rfl, h'⟩

end FileWriter

namespace Builder

variable {fs fs' : FileSystem}

theorem follows_writeToFile (b : Builder) (output : Path) (i : NodeId) :
    Follows (Session.Related FileSystem.Reordered) id (b.writeToFile output i)
      (b.writeToFile output i) := by
  refine follows_id fun {s s'} h => ?_
  have hwriter : Session.Related FileWriter.Reordered ⟨FileWriter.ofNode s.state i, s.events⟩
      ⟨FileWriter.ofNode s'.state i, s'.events⟩ := ⟨.mk h.1, h.2⟩
  have hfiles : ∀ {w w' : FileWriter}, w.Reordered w' → w.files.LooksAlike w'.files := by
    rintro w w' ⟨h⟩
    exact h.looksAlike
  rcases hwrite : (b.write FileWriter.sink FileWriter.files).exec
    ⟨FileWriter.ofNode s.state i, s.events⟩ with ⟨r, u⟩
  obtain ⟨u', hwrite', hw, hevents⟩ :=
    (follows_write FileWriter.follows_sink hfiles b).exec_eq hwriter hwrite
  rcases hflush : u.state.flush with ⟨flushed, v⟩
  obtain ⟨v', hflush', ⟨h'⟩⟩ := FileWriter.follows_flush.exec_eq hw hflush
  rw [exec_ofFn] at hflush'
  rw [writeToFile, exec_ofFn, exec_ofFn]
  dsimp only
  rw [hwrite, hwrite']
  cases r with
  | error e =>
    dsimp only
    rw [hflush, hflush']
    exact ⟨_, _, _, rfl, rfl, h', hevents⟩
  | ok size =>
    dsimp only
    rw [hflush, hflush']
    cases flushed <;> exact ⟨_, _, _, rfl, rfl, h', hevents⟩

theorem checkOutput_eq (h : fs.Reordered fs') (b : Builder) (output : Path) :
    checkOutput fs' b output = checkOutput fs b output := by
  have hfirst : ∀ i ps, firstSame fs' i ps = firstSame fs i ps := by
    intro i ps
    induction ps with
    | nil => rfl
    | cons p ps ih => rw [firstSame, firstSame, h.find, ih]
  rw [checkOutput, checkOutput, h.find]
  simp only [hfirst]

theorem follows_writeImageFile (b : Builder) (output : Path) :
    Follows (Session.Related FileSystem.Reordered) id (b.writeImageFile output)
      (b.writeImageFile output) := by
  refine (Task.follows_liftM _).bind fun header => ?_
  intro s s' h
  rw [exec_bind_ok (exec_get s), exec_bind_ok (exec_get s'), checkOutput_eq h.1]
  refine (Task.follows_liftM _).bind (fun _ => ?_) s s' h
  refine (Task.follows_io (FileSystem.Reordered.follows_create output) _).bind fun i => ?_
  refine (follows_writeToFile b output i).bind fun size => ?_
  exact (Task.follows_report _).bind fun _ => .pure size

theorem addFiles_eq (h : fs.Reordered fs') (inputs : List Path) :
    addFiles fs' inputs = addFiles fs inputs := by
  have hcheck : ∀ p, checkSource fs' p = checkSource fs p := by
    intro p
    simp only [checkSource, openSource, h.find, h.isFile]
  induction inputs with
  | nil => rfl
  | cons p inputs ih => rw [addFiles, addFiles, addFile, addFile, hcheck, ih]

theorem addDirectory_eq (h : fs.Reordered fs') (dir : Path) :
    addDirectory fs' dir = addDirectory fs dir := by
  simp only [addDirectory, openDirectory, h.find, h.isDirectory, h.fileNames, addFiles_eq h]

end Builder

/-- Packing a directory does the same in whatever order the directories list their names. -/
theorem follows_packDirectory (output dir : Path) :
    Follows (Session.Related FileSystem.Reordered) id (packDirectory output dir)
      (packDirectory output dir) := by
  intro s s' h
  rw [packDirectory, exec_bind_ok (exec_get s), exec_bind_ok (exec_get s'),
    Builder.addDirectory_eq h.1]
  exact (Task.follows_liftM _).bind (fun b => Builder.follows_writeImageFile b output) s s' h

end FlatArchive
