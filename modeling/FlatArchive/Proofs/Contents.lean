-- SUMMARY: What a file holds does not matter to operations that do not reach it.
import FlatArchive.Proofs.Extraction

/-!
# Contents

No operation on files looks at what a file holds. So it makes no difference to an operation that does
not reach a file whether another content is put into the file before or after, and whether it fails or
not. This holds of each operation that unpacking uses, and is kept by sequencing (`Commutes`). A file
that is spared is not reached by the writes of any entry.
-/

namespace FlatArchive

namespace Attempt

variable {σ ε ε' α β : Type} {P : σ → Prop} {f : σ → σ}

/-- From states that `P` holds of, the attempt comes to the same whether `f` is done before or after it,
and it keeps `P`. -/
def Commutes (P : σ → Prop) (f : σ → σ) (x : Attempt σ ε α) : Prop :=
  ∀ s, P s → x.exec (f s) = ((x.exec s).1, f (x.exec s).2) ∧ P (x.exec s).2

namespace Commutes

theorem pure (a : α) : Commutes P f (Pure.pure a : Attempt σ ε α) := fun _ hs => ⟨rfl, hs⟩

theorem throw (e : ε) : Commutes P f (throw e : Attempt σ ε α) := fun _ hs => ⟨rfl, hs⟩

theorem bind {x : Attempt σ ε α} {g : α → Attempt σ ε β} (hx : Commutes P f x)
    (hg : ∀ a, Commutes P f (g a)) : Commutes P f (x >>= g) := by
  intro s hs
  obtain ⟨hexec, hkept⟩ := hx s hs
  rw [exec_bind, exec_bind, hexec]
  rcases hxs : x.exec s with ⟨e | a, s'⟩
  · rw [hxs] at hkept
    exact ⟨rfl, hkept⟩
  · rw [hxs] at hkept
    exact hg a s' hkept

theorem mapError {x : Attempt σ ε α} (hx : Commutes P f x) (g : ε → ε') :
    Commutes P f (x.mapError g) := by
  intro s hs
  obtain ⟨hexec, hkept⟩ := hx s hs
  rw [exec_mapError, exec_mapError, hexec]
  exact ⟨rfl, hkept⟩

end Commutes

end Attempt

open Attempt

namespace Task

variable {τ α : Type} {P : τ → Prop} {f : τ → τ}

theorem commutes_io {x : Attempt τ IoError α} (wrap : IoError → Error) (hx : Commutes P f x) :
    Commutes (fun s => P s.state) (fun s => ⟨f s.state, s.events⟩) (Task.io wrap x) := by
  intro s hs
  obtain ⟨hexec, hkept⟩ := hx s.state hs
  rw [exec_io, exec_io, hexec]
  exact ⟨rfl, hkept⟩

theorem commutes_report (e : Event) :
    Commutes (fun s => P s.state) (fun s => ⟨f s.state, s.events⟩) (report e) :=
  fun _ hs => ⟨rfl, hs⟩

end Task

namespace FileSystem

variable {fs fs' : FileSystem} {i j d : NodeId} {p : Path}

/-! ## The table -/

section Table

variable (hfile : fs.isFile j = true) (content : Bytes)

include hfile in
theorem node?_setFile (k : NodeId) :
    (fs.setNode j (.file content)).node? k = if k = j then some (.file content) else fs.node? k :=
  node?_setNode fs _ (lt_size_of_isFile hfile) k

include hfile in
theorem isDirectory_setFile (k : NodeId) :
    (fs.setNode j (.file content)).isDirectory k = fs.isDirectory k := by
  rw [isDirectory, node?_setFile hfile]
  split_ifs with hk
  · rw [hk, isDirectory_eq_false_of_isFile hfile]
  · rfl

include hfile in
theorem parentOf_setFile (k : NodeId) :
    (fs.setNode j (.file content)).parentOf k = fs.parentOf k := by
  obtain ⟨content₀, hnode⟩ := isFile_iff.1 hfile
  rw [parentOf, parentOf, node?_setFile hfile]
  split_ifs with hk
  · rw [hk, hnode]
  · rfl

include hfile in
theorem link_setFile (k : NodeId) (target : Bytes) :
    (fs.setNode j (.file content)).node? k = some (.link target) ↔
      fs.node? k = some (.link target) := by
  obtain ⟨content₀, hnode⟩ := isFile_iff.1 hfile
  rw [node?_setFile hfile]
  split_ifs with hk
  · simp [hk, hnode]
  · exact Iff.rfl

theorem setNode_comm (hne : i ≠ j) (m n : Node) :
    (fs.setNode i m).setNode j n = (fs.setNode j n).setNode i m := by
  simp only [setNode, Array.setIfInBounds_comm _ _ hne]

include hfile in
theorem alloc_setFile (n : Node) :
    ((fs.setNode j (.file content)).alloc n).2 = (fs.alloc n).2.setNode j (.file content) := by
  have hlt := lt_size_of_isFile hfile
  have hnodes : (fs.nodes.setIfInBounds j (.file content)).push n =
      (fs.nodes.push n).setIfInBounds j (.file content) := by
    apply Array.ext_getElem?
    intro k
    simp only [Array.getElem?_push, Array.getElem?_setIfInBounds, Array.size_setIfInBounds,
      Array.size_push]
    by_cases hk : k = fs.nodes.size
    · rw [if_pos hk, if_neg (by rintro rfl; exact Nat.ne_of_lt hlt hk), if_pos hk]
    · rw [if_neg hk, if_neg hk, if_pos hlt, if_pos (Nat.lt_succ_of_lt hlt)]
  rw [alloc, alloc, setNode, setNode]
  dsimp only
  rw [hnodes]

include hfile in
/-- A new node is added the same way whatever the file holds. -/
theorem addNode_setFile (hdir : fs.isDirectory d = true) (name : Bytes) (n : Node) :
    (fs.setNode j (.file content)).addNode d name n =
      ((fs.addNode d name n).1, (fs.addNode d name n).2.setNode j (.file content)) := by
  obtain ⟨parent, entries, hnode⟩ := isDirectory_iff.1 hdir
  have hne : d ≠ j := (ne_of_isFile_of_isDirectory hfile hdir).symm
  have hnode' : (fs.setNode j (.file content)).node? d = some (.directory parent entries) := by
    rw [node?_setFile hfile, if_neg hne, hnode]
  rw [addNode_eq hnode, addNode_eq hnode', alloc_setFile hfile, size_setNode]
  dsimp only
  rw [setNode_comm hne.symm]

/-! ## Walks -/

include hfile in
theorem resolve_setFile (purpose : Purpose) (p : Path) :
    (fs.setNode j (.file content)).resolve purpose p = fs.resolve purpose p := by
  have hwalk : ∀ purpose links a steps,
      (fs.setNode j (.file content)).walk purpose links a steps = fs.walk purpose links a steps :=
    walk_congr rfl (isDirectory_setFile hfile content) (parentOf_setFile hfile content)
      (child?_setFile hfile content) (link_setFile hfile content)
  unfold resolve
  rw [hwalk]
  rfl

include hfile in
theorem find_setFile (p : Path) : (fs.setNode j (.file content)).find p = fs.find p := by
  rw [find, find, resolve_setFile hfile]

include hfile in
theorem isDirectoryAt_setFile (p : Path) :
    (fs.setNode j (.file content)).isDirectoryAt p = fs.isDirectoryAt p := by
  unfold isDirectoryAt
  rw [find_setFile hfile]
  cases fs.find p with
  | error e => rfl
  | ok i => exact isDirectory_setFile hfile content i

end Table

/-! ## Operations -/

section Operations

variable (j) (content : Bytes) (p : Path)

theorem commutes_makeDir : Commutes (fun fs => fs.isFile j = true)
    (fun fs => fs.setNode j (.file content)) (makeDir p) := by
  intro fs hfile
  refine ⟨?_, (AddsDirectories.makeDir fs p).isFile hfile⟩
  rw [makeDir, exec_ofFn, exec_ofFn, resolve_setFile hfile]
  cases hresolve : fs.resolve .place p with
  | error e => rfl
  | ok spot =>
    cases spot with
    | node i => rfl
    | slot d name =>
      have hdir := (walks_of_walk_slot (walk_of_resolve_ok hresolve)).1
      dsimp only
      rw [child?_setFile hfile, addNode_setFile hfile content hdir]
      split_ifs
      · rfl
      · rfl
      · rfl

theorem commutes_createDirAll : Commutes (fun fs => fs.isFile j = true)
    (fun fs => fs.setNode j (.file content)) (createDirAll p) := by
  intro fs hfile
  refine ⟨?_, (AddsDirectories.makeDirs p fs).isFile hfile⟩
  have hmake : ∀ {q fs r fs'}, fs.isFile j = true → (makeDir q).exec fs = (r, fs') →
      (makeDir q).exec (fs.setNode j (.file content)) = (r, fs'.setNode j (.file content))
        ∧ fs'.isFile j = true := by
    intro q fs r fs' hfile hexec
    obtain ⟨heq, hkept⟩ := commutes_makeDir j content q fs hfile
    rw [hexec] at heq hkept
    exact ⟨heq, hkept⟩
  rw [createDirAll, exec_ofFn, exec_ofFn]
  fun_induction makeDirs p fs
  case case1 hnil => rw [makeDirs, if_pos hnil]
  case case2 hne fs₁ hexec => rw [makeDirs_of_ok hne (hmake hfile hexec).1]
  case case3 hne fs₁ hexec hparent => rw [makeDirs_of_no_parent hne (hmake hfile hexec).1 hparent]
  case case4 hne fs₁ hexec q hparent e fs₂ hmakeDirs ih =>
    obtain ⟨hexec', hfile'⟩ := hmake hfile hexec
    rw [makeDirs_of_parent hne hexec' hparent, ih hfile', hmakeDirs]
  case case5 hne fs₁ hexec q hparent fs₂ hmakeDirs fs₃ hexec₂ ih =>
    obtain ⟨hexec', hfile'⟩ := hmake hfile hexec
    have hfile₂ := (AddsDirectories.makeDirs q fs₁).isFile hfile'
    rw [hmakeDirs] at hfile₂
    rw [makeDirs_of_parent hne hexec' hparent, ih hfile', hmakeDirs]
    dsimp only
    rw [(hmake hfile₂ hexec₂).1]
  case case6 hne fs₁ hexec q hparent fs₂ hmakeDirs e fs₃ hexec₂ ih =>
    obtain ⟨hexec', hfile'⟩ := hmake hfile hexec
    have hfile₂ := (AddsDirectories.makeDirs q fs₁).isFile hfile'
    rw [hmakeDirs] at hfile₂
    obtain ⟨hexec₂', hfile₃⟩ := hmake hfile₂ hexec₂
    rw [makeDirs_of_parent hne hexec' hparent, ih hfile', hmakeDirs]
    dsimp only
    rw [hexec₂']
    dsimp only
    rw [isDirectoryAt_setFile hfile₃]
  case case7 hne e fs₁ hother hexec =>
    obtain ⟨hexec', hfile'⟩ := hmake hfile hexec
    rw [makeDirs_of_error hne hexec' hother, isDirectoryAt_setFile hfile']

theorem commutes_makeParents : Commutes (fun fs => fs.isFile j = true)
    (fun fs => fs.setNode j (.file content)) (Change.makeParents p) := by
  unfold Change.makeParents
  split
  · exact commutes_createDirAll j content _
  · exact .pure ()

/-- Creating another file. -/
theorem exec_create_setFile (hfile : fs.isFile j = true)
    (hother : ∀ fs', (create p).exec fs ≠ (.ok j, fs')) :
    (create p).exec (fs.setNode j (.file content)) =
      (((create p).exec fs).1, ((create p).exec fs).2.setNode j (.file content)) := by
  have hnode : ∀ {i}, i ≠ j → (fs.setNode j (.file content)).node? i = fs.node? i := by
    intro i hne
    rw [node?_setFile hfile, if_neg hne]
  rw [create, exec_ofFn, exec_ofFn, resolve_setFile hfile]
  rw [create, exec_ofFn] at hother
  cases hresolve : fs.resolve .create p with
  | error e => rfl
  | ok spot =>
    rw [hresolve] at hother
    cases spot with
    | slot d name =>
      have hdir := (walks_of_walk_slot (walk_of_resolve_ok hresolve)).1
      dsimp only
      rw [addNode_setFile hfile content hdir]
    | node i =>
      obtain ⟨content₀, hold⟩ := isFile_iff.1 hfile
      have hne : i ≠ j := by
        rintro rfl
        dsimp only at hother
        rw [hold] at hother
        exact hother _ rfl
      dsimp only
      rw [hnode hne]
      split
      · rw [setNode_comm hne.symm]
      · rfl
      · rfl

theorem exec_writeAt_setFile (hfile : fs.isFile j = true) (hne : i ≠ j) (offset : Nat) (bs : Bytes) :
    (writeAt i offset bs).exec (fs.setNode j (.file content)) =
      (((writeAt i offset bs).exec fs).1,
        ((writeAt i offset bs).exec fs).2.setNode j (.file content)) := by
  rw [writeAt, exec_ofFn, exec_ofFn, node?_setFile hfile, if_neg hne]
  split
  · rw [setNode_comm hne.symm]
  · rfl
  · split_ifs
    · rfl
    · rfl
  · rfl

/-- Writing another file. -/
theorem exec_writeFile_setFile (hfile : fs.isFile j = true)
    (hother : ∀ fs', (create p).exec fs ≠ (.ok j, fs')) (bs : Bytes) :
    (writeFile p bs).exec (fs.setNode j (.file content)) =
      (((writeFile p bs).exec fs).1, ((writeFile p bs).exec fs).2.setNode j (.file content)) := by
  rw [writeFile, exec_bind, exec_bind, exec_create_setFile j content p hfile hother]
  have hfile' := (extends_create fs p).isFile hfile
  rcases hcreate : (create p).exec fs with ⟨e | i, fs'⟩
  · rfl
  · have hne : i ≠ j := by
      rintro rfl
      exact hother _ hcreate
    rw [hcreate] at hfile'
    exact exec_writeAt_setFile j content hfile' hne 0 bs

end Operations

end FileSystem

/-! ## Unpacking -/

open FileSystem

/-- Put a content into a file. -/
def Session.setFile (j : NodeId) (content : Bytes) (s : Session FileSystem) : Session FileSystem :=
  ⟨s.state.setNode j (.file content), s.events⟩

section Unpacking

variable (j : NodeId) (content : Bytes) (dir : Path)

theorem commutes_prepareDirectory :
    Commutes (fun s => s.state.isFile j = true) (Session.setFile j content)
      (prepareDirectory dir) := by
  have hmake := (Task.commutes_io (.io "Create output directory" (some dir))
    (commutes_createDirAll j content dir)).bind fun _ =>
      Task.commutes_report (P := fun fs : FileSystem => fs.isFile j = true)
        (f := fun fs => fs.setNode j (.file content)) (.createdDir dir)
  intro s hfile
  unfold prepareDirectory
  rw [exec_bind_ok (exec_get s), exec_bind_ok (exec_get _), Session.setFile]
  dsimp only
  rw [find_setFile hfile]
  cases hfind : s.state.find dir with
  | ok i =>
    dsimp only
    rw [isDirectory_setFile hfile]
    split_ifs
    · exact ⟨rfl, hfile⟩
    · exact ⟨rfl, hfile⟩
  | error e =>
    dsimp only
    split_ifs
    · exact hmake s hfile
    · exact ⟨rfl, hfile⟩

/-- Preparing the directory does not look at what the file holds. -/
theorem prepared_setFile {fs : FileSystem} (hfile : fs.isFile j = true) :
    prepared (fs.setNode j (.file content)) dir = (prepared fs dir).setNode j (.file content) := by
  obtain ⟨hexec, -⟩ := commutes_prepareDirectory j content dir ⟨fs, []⟩ hfile
  rw [Session.setFile] at hexec
  rw [prepared, prepared, Task.start, Task.start, hexec]
  rfl

variable {j dir} {fs fs₁ : FileSystem} {relative : Path} {name : String}

/-- A file that is spared is not opened to write an entry. -/
theorem create_ne_of_spared (hfile : fs.isFile j = true) (hspared : Spared dir j fs)
    (hcheck : checkPath name = .ok relative) (hbytes : relative.bytes ≠ [])
    (hparents : (Change.makeParents (dir.join relative)).exec fs = (.ok (), fs₁))
    (fs₂ : FileSystem) : (create (dir.join relative)).exec fs₁ ≠ (.ok j, fs₂) := by
  intro hcreate
  have hfile₁ := (commutes_makeParents j [] (dir.join relative) fs hfile).2
  rw [hparents] at hfile₁
  have hempty : fs₂.node? j = some (.file []) := by
    rcases created_or_device hcreate with hcreated | ⟨kind, -, hdevice, -⟩
    · exact hcreated.empty
    · obtain ⟨old, hold⟩ := isFile_iff.1 hfile₁
      rw [hdevice] at hold
      cases hold
  -- The file would hold whatever is written, but it still holds what it did.
  have hholds : ∀ bs, fs.node? j = some (.file bs) := by
    intro bs
    have hkept := hspared _ (.single ⟨name, relative, bs, hcheck, hbytes, rfl⟩)
    have hwrite : (writeAt j 0 bs).exec fs₂ = (.ok (), fs₂.setNode j (.file bs)) := by
      rw [writeAt, exec_ofFn, hempty]
      simp only [overwrite_nil]
    rw [Task.start, exec_writeBelow_eq, hparents] at hkept
    dsimp only at hkept
    rw [writeFile, exec_bind_ok hcreate, hwrite] at hkept
    dsimp only at hkept
    rw [node?_setNode _ _ (lt_size_of_node? hempty), if_pos rfl] at hkept
    exact hkept.symm
  have hnil := hholds []
  rw [hholds [0]] at hnil
  cases hnil

theorem commutes_writeBelow (hcheck : checkPath name = .ok relative) (hbytes : relative.bytes ≠ [])
    (bs : Bytes) :
    Commutes (fun s => s.state.isFile j = true ∧ Spared dir j s.state) (Session.setFile j content)
      (writeBelow dir relative bs) := by
  rintro s ⟨hfile, hspared⟩
  have hwrites : WritesBelow dir s.state ((writeBelow dir relative bs).exec s).2.state := by
    refine ⟨name, relative, bs, hcheck, hbytes, ?_⟩
    rw [start_writeBelow]
  obtain ⟨hparents, hfile₁⟩ := commutes_makeParents j content (dir.join relative) s.state hfile
  refine ⟨?_, ?_, hspared.of_writes (.single hwrites)⟩
  · rw [exec_writeBelow_eq, exec_writeBelow_eq, Session.setFile]
    dsimp only
    rw [hparents]
    rcases hmade : (Change.makeParents (dir.join relative)).exec s.state with ⟨e | ⟨⟩, fs₁⟩
    · rfl
    · rw [hmade] at hfile₁
      dsimp only
      rw [exec_writeFile_setFile j content (dir.join relative) hfile₁
        (create_ne_of_spared hfile hspared hcheck hbytes hmade)]
      rcases (writeFile (dir.join relative) bs).exec fs₁ with ⟨e | ⟨⟩, fs₂⟩
      · rfl
      · rfl
  · rw [isFile, hspared _ (.single hwrites)]
    exact hfile

/-- A file that is spared stays so whatever is put into it. -/
theorem Spared.setFile (hfile : fs.isFile j = true) (hspared : Spared dir j fs) :
    Spared dir j (fs.setNode j (.file content)) := by
  have hwrites : ∀ {fs'}, Relation.ReflTransGen (WritesBelow dir) (fs.setNode j (.file content)) fs' →
      ∃ fs₀, Relation.ReflTransGen (WritesBelow dir) fs fs₀ ∧ fs' = fs₀.setNode j (.file content)
        ∧ fs₀.isFile j = true := by
    intro fs' hchain
    induction hchain with
    | refl => exact ⟨fs, .refl, rfl, hfile⟩
    | tail _ hwrite ih =>
      obtain ⟨fs₀, hchain₀, rfl, hfile₀⟩ := ih
      obtain ⟨name, relative, bs, hcheck, hbytes, rfl⟩ := hwrite
      obtain ⟨hexec, hkept, -⟩ := commutes_writeBelow content hcheck hbytes bs ⟨fs₀, []⟩
        ⟨hfile₀, hspared.of_writes hchain₀⟩
      refine ⟨_, hchain₀.tail ⟨name, relative, bs, hcheck, hbytes, rfl⟩, ?_, hkept⟩
      rw [Session.setFile] at hexec
      rw [Task.start, hexec]
      rfl
  intro fs' hchain
  obtain ⟨fs₀, -, rfl, hfile₀⟩ := hwrites hchain
  rw [node?_setFile hfile₀, if_pos rfl, node?_setFile hfile, if_pos rfl]

theorem commutes_extract (j : NodeId) (content : Bytes) (dir : Path) (index : Nat) (e : Entry) :
    Commutes (fun s => s.state.isFile j = true ∧ Spared dir j s.state) (Session.setFile j content)
      (extract dir index e) := by
  rintro s ⟨hfile, hspared⟩
  cases hcheck : checkPath (unpackedName index e.name) with
  | error cause =>
    rw [exec_extract_refused dir hcheck, exec_extract_refused dir hcheck]
    exact ⟨rfl, hfile, hspared⟩
  | ok relative =>
    have hbytes : relative.bytes ≠ [] := by
      rw [(checkPath_eq_ok hcheck).1]
      exact unpackedName_ne_nil index e.name
    obtain ⟨hexec, hkept⟩ := commutes_writeBelow content hcheck hbytes e.content ⟨s.state, []⟩
      ⟨hfile, hspared⟩
    rw [exec_extract_accepted dir hcheck, exec_extract_accepted dir hcheck, Task.start, Task.start]
    simp only [Session.setFile] at hexec ⊢
    rw [hexec]
    rcases hwrite : (writeBelow dir relative e.content).exec ⟨s.state, []⟩ with ⟨cause | target, t⟩
    · rw [hwrite] at hkept
      exact ⟨rfl, hkept⟩
    · rw [hwrite] at hkept
      exact ⟨rfl, hkept⟩

/-- Extracting entries does the same whatever is held by a file that is spared. -/
theorem commutes_extractList (j : NodeId) (content : Bytes) (dir : Path) (index : Nat)
    (es : List Entry) :
    Commutes (fun s => s.state.isFile j = true ∧ Spared dir j s.state) (Session.setFile j content)
      (extractList dir index es) := by
  induction es generalizing index with
  | nil => exact .pure []
  | cons e es ih =>
    exact (commutes_extract j content dir index e).bind fun target =>
      (ih (index + 1)).bind fun targets => .pure (target :: targets)

end Unpacking

end FlatArchive
