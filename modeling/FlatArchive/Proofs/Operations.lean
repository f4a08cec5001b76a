-- SUMMARY: What creating files and making directories can do, and that it only lets the files grow.
import FlatArchive.FileSystem.Operation
import FlatArchive.Proofs.Growth

/-!
# Operations

Each operation does one of a few things to the table of nodes, and a failure leaves it as it is.
Making a directory with its parents adds directories and nothing else, also when it fails on the
way. If it does not fail the path leads to a directory after, and it does nothing where the path
leads to one already.
-/

namespace FlatArchive.FileSystem

open Attempt

variable {fs fs' fs'' : FileSystem} {p q : Path} {i j d : NodeId} {e : IoError}

/-! ## Single operations -/

theorem isNotFound_iff {e : IoError} : e.isNotFound = true ↔ e = .os .noEntry := by
  cases e with
  | os errno => cases errno <;> simp [IoError.isNotFound]
  | zeroByteInPath => simp [IoError.isNotFound]
  | writeZero => simp [IoError.isNotFound]
  | custom kind payload => simp [IoError.isNotFound]

/-- Making a directory adds it at a free place, or fails. -/
theorem makeDir_cases (fs : FileSystem) (p : Path) :
    (∃ d name, fs.resolve .place p = .ok (.slot d name) ∧ name.length ≤ maxNameLength
        ∧ fs.child? d name = none
        ∧ (makeDir p).exec fs = (.ok (), (fs.addNode d name (.directory d [])).2))
      ∨ ∃ e, (makeDir p).exec fs = (.error e, fs)
        ∧ (e = .os .noEntry → fs.resolve .place p = .error (.os .noEntry)) := by
  rw [makeDir, exec_ofFn]
  cases hresolve : fs.resolve .place p with
  | error e => exact .inr ⟨e, rfl, fun he => by rw [he]⟩
  | ok spot =>
    cases spot with
    | node i => exact .inr ⟨.os .fileExists, rfl, nofun⟩
    | slot d name =>
      by_cases hlen : maxNameLength < name.length
      · exact .inr ⟨.os .nameTooLong, by simp only [hlen, if_true], nofun⟩
      cases hchild : fs.child? d name with
      | some i => exact .inr ⟨.os .fileExists, by simp [hlen, hchild], nofun⟩
      | none =>
        exact .inl ⟨d, name, rfl, Nat.le_of_not_lt hlen, hchild, by simp [hlen, hchild]⟩

/-- Creating a file adds an empty one at a free place, empties the one that is there, takes a device
as it is, or fails. -/
theorem create_cases (fs : FileSystem) (p : Path) :
    (∃ d name, fs.resolve .create p = .ok (.slot d name)
        ∧ (create p).exec fs = (.ok fs.nodes.size, (fs.addNode d name (.file [])).2))
      ∨ (∃ i, fs.resolve .create p = .ok (.node i) ∧ fs.isFile i = true
        ∧ (create p).exec fs = (.ok i, fs.setNode i (.file [])))
      ∨ (∃ i kind, fs.resolve .create p = .ok (.node i) ∧ fs.node? i = some (.device kind)
        ∧ (create p).exec fs = (.ok i, fs))
      ∨ ∃ e, (create p).exec fs = (.error e, fs) := by
  rw [create, exec_ofFn]
  cases hresolve : fs.resolve .create p with
  | error e => exact .inr (.inr (.inr ⟨e, rfl⟩))
  | ok spot =>
    cases spot with
    | slot d name => exact .inl ⟨d, name, rfl, rfl⟩
    | node i =>
      cases hnode : fs.node? i with
      | none => exact .inr (.inr (.inr ⟨.os .isDirectory, by simp only [hnode]⟩))
      | some n =>
        cases n with
        | file c => exact .inr (.inl ⟨i, rfl, isFile_iff.2 ⟨c, hnode⟩, by simp only [hnode]⟩)
        | device kind => exact .inr (.inr (.inl ⟨i, kind, rfl, hnode, by simp only [hnode]⟩))
        | directory parent entries =>
          exact .inr (.inr (.inr ⟨.os .isDirectory, by simp only [hnode]⟩))
        | link target => exact .inr (.inr (.inr ⟨.os .isDirectory, by simp only [hnode]⟩))

/-- File `i` was made or emptied, the path leads to it, and the other files are what they were. -/
structure Created (fs : FileSystem) (p : Path) (i : NodeId) (fs' : FileSystem) : Prop where
  grown : fs.Extends fs'
  find : fs'.find p = .ok i
  empty : fs'.node? i = some (.file [])
  found_or_new : fs.find p = .ok i ∨ fs.nodes.size ≤ i
  others : ∀ {j}, fs.isDirectory j = false → j ≠ i → fs'.node? j = fs.node? j

/-- Creating makes or empties a file, or it finds a device and leaves the files alone. -/
theorem created_or_device (h : (create p).exec fs = (.ok i, fs')) :
    Created fs p i fs' ∨
      ∃ kind, fs.find p = .ok i ∧ fs.node? i = some (.device kind) ∧ fs' = fs := by
  rcases create_cases fs p with ⟨d, name, hresolve, hexec⟩ | ⟨j, hresolve, hfile, hexec⟩ |
    ⟨j, kind, hresolve, hnode, hexec⟩ | ⟨e, hexec⟩
  · rw [hexec] at h
    cases h
    obtain ⟨hdir, hfree, -⟩ := walks_of_walk_slot (walk_of_resolve_ok hresolve)
    obtain ⟨hnone, hlen⟩ := hfree nofun
    obtain ⟨parent, entries, hnode⟩ := isDirectory_iff.1 hdir
    have hgrown : fs.Extends (fs.addNode d name (.file [])).2 := .addNode hdir hnone nofun nofun
    refine .inl ⟨hgrown, find_addNode hresolve hlen hnone nofun nofun (.inl rfl),
      node?_addNode_new hdir name _, .inr (Nat.le_refl _), ?_⟩
    intro j hj hne
    have hjd : j ≠ d := by
      rintro rfl
      rw [hdir] at hj
      cases hj
    rw [node?_addNode hnode, if_neg hjd, if_neg hne]
  · rw [hexec] at h
    cases h
    have htable := node?_setNode fs (.file []) (lt_size_of_isFile hfile)
    have hgrown : fs.Extends (fs.setNode i (.file [])) := .setFile hfile []
    have hfind := find_of_resolve_node hresolve
    refine .inl ⟨hgrown, hgrown.find hfind, by rw [htable, if_pos rfl], .inl hfind, ?_⟩
    intro j _ hne
    rw [htable, if_neg hne]
  · rw [hexec] at h
    cases h
    exact .inr ⟨kind, find_of_resolve_node hresolve, hnode, rfl⟩
  · rw [hexec] at h
    cases h

theorem exec_create_of_file (hfind : fs.find p = .ok i) (hfile : fs.isFile i = true) :
    (create p).exec fs = (.ok i, fs.setNode i (.file [])) := by
  obtain ⟨content, hnode⟩ := isFile_iff.1 hfile
  rw [create, exec_ofFn, resolve_create_of_find hfind (isDirectory_eq_false_of_isFile hfile)]
  dsimp only
  rw [hnode]

theorem exec_create_of_device {kind : Device} (hfind : fs.find p = .ok i)
    (hnode : fs.node? i = some (.device kind)) : (create p).exec fs = (.ok i, fs) := by
  have hnot : fs.isDirectory i = false := by rw [isDirectory, hnode]
  rw [create, exec_ofFn, resolve_create_of_find hfind hnot]
  dsimp only
  rw [hnode]

/-- Writing changes the content of a file, and nothing else in the table. -/
theorem writeAt_cases (fs : FileSystem) (i : NodeId) (offset : Nat) (bs : Bytes) :
    (∃ content, fs.node? i = some (.file content)
        ∧ (writeAt i offset bs).exec fs =
          (.ok (), fs.setNode i (.file (overwrite content offset bs))))
      ∨ ((writeAt i offset bs).exec fs).2 = fs := by
  rw [writeAt, exec_ofFn]
  cases fs.node? i with
  | none => exact .inr rfl
  | some n =>
    cases n with
    | file c => exact .inl ⟨c, rfl, rfl⟩
    | device kind =>
      right
      cases kind with
      | null => rfl
      | full =>
        dsimp only
        split <;> rfl
    | directory parent entries => exact .inr rfl
    | link target => exact .inr rfl

theorem extends_create (fs : FileSystem) (p : Path) : fs.Extends ((create p).exec fs).2 := by
  rcases create_cases fs p with ⟨d, name, hresolve, hexec⟩ | ⟨i, -, hfile, hexec⟩ |
    ⟨i, kind, -, -, hexec⟩ | ⟨e, hexec⟩
  · obtain ⟨hdir, hfree, -⟩ := walks_of_walk_slot (walk_of_resolve_ok hresolve)
    rw [hexec]
    exact .addNode hdir (hfree nofun).1 nofun nofun
  · rw [hexec]
    exact .setFile hfile []
  · rw [hexec]
    exact .refl fs
  · rw [hexec]
    exact .refl fs

/-- Writing leaves nodes as they are, but for the content of a file. -/
theorem extends_writeAt (fs : FileSystem) (i : NodeId) (offset : Nat) (bs : Bytes) :
    fs.Extends ((writeAt i offset bs).exec fs).2 := by
  rcases writeAt_cases fs i offset bs with ⟨old, hnode, hwrite⟩ | hwrite
  · rw [hwrite]
    exact .setFile (isFile_iff.2 ⟨old, hnode⟩) _
  · rw [hwrite]
    exact .refl fs

theorem extends_writeFile (fs : FileSystem) (p : Path) (content : Bytes) :
    fs.Extends ((writeFile p content).exec fs).2 := by
  have hcreate := extends_create fs p
  rw [writeFile, exec_bind]
  rcases hexec : (create p).exec fs with ⟨e | i, fs'⟩
  · rwa [hexec] at hcreate
  · rw [hexec] at hcreate
    exact hcreate.trans (extends_writeAt fs' i 0 content)

/-- A path under which a file was written leads to a file or a device. -/
theorem find_of_writeFile {content : Bytes} (h : (writeFile p content).exec fs = (.ok (), fs')) :
    ∃ i, fs'.find p = .ok i ∧ i < fs'.nodes.size ∧ fs'.isDirectory i = false := by
  rw [writeFile, exec_bind] at h
  rcases hcreate : (create p).exec fs with ⟨e | i, fs₁⟩
  · rw [hcreate] at h
    cases h
  · rw [hcreate] at h
    have hgrown := extends_writeAt fs₁ i 0 content
    dsimp only at h
    rw [h] at hgrown
    rcases created_or_device hcreate with hcreated | ⟨kind, hfind, hdevice, rfl⟩
    · have hfile := hgrown.isFile (isFile_iff.2 ⟨_, hcreated.empty⟩)
      exact ⟨i, hgrown.find hcreated.find, lt_size_of_isFile hfile,
        isDirectory_eq_false_of_isFile hfile⟩
    · have hnode := hgrown.device hdevice
      refine ⟨i, hgrown.find hfind, lt_size_of_node? hnode, ?_⟩
      rw [isDirectory, hnode]

/-- Writing over an empty content gives what is written. -/
theorem overwrite_nil (bs : Bytes) : overwrite [] 0 bs = bs := by
  simp [overwrite]

/-! ## Directories with their parents -/

theorem makeDirs_of_error (hne : p.bytes ≠ []) (h : (makeDir p).exec fs = (.error e, fs'))
    (he : e ≠ .os .noEntry) :
    makeDirs p fs = (if fs'.isDirectoryAt p then .ok () else .error e, fs') := by
  rw [makeDirs, if_neg hne, h]
  split
  · next heq => cases heq
  · next heq =>
    cases heq
    exact absurd rfl he
  · next heq =>
    cases heq
    rfl

theorem makeDirs_of_ok (hne : p.bytes ≠ []) (h : (makeDir p).exec fs = (.ok (), fs')) :
    makeDirs p fs = (.ok (), fs') := by
  rw [makeDirs, if_neg hne, h]

theorem makeDirs_of_no_parent (hne : p.bytes ≠ [])
    (h : (makeDir p).exec fs = (.error (.os .noEntry), fs')) (hparent : p.parent = none) :
    makeDirs p fs = (.error (.os .noEntry), fs') := by
  rw [makeDirs, if_neg hne, h]
  dsimp only
  split
  · rfl
  · next hsome =>
    rw [hparent] at hsome
    cases hsome

theorem makeDirs_of_parent (hne : p.bytes ≠ [])
    (h : (makeDir p).exec fs = (.error (.os .noEntry), fs')) (hparent : p.parent = some q) :
    makeDirs p fs =
      match makeDirs q fs' with
      | (.error e, fs) => (.error e, fs)
      | (.ok (), fs) =>
        match (makeDir p).exec fs with
        | (.ok (), fs) => (.ok (), fs)
        | (.error e, fs) => (if fs.isDirectoryAt p then .ok () else .error e, fs) := by
  rw [makeDirs, if_neg hne, h]
  dsimp only
  split
  · next hnone =>
    rw [hparent] at hnone
    cases hnone
  · next hsome =>
    rw [hparent] at hsome
    cases hsome
    rfl

/-- What holds of the files, and is kept by making a single directory at each path that `Q` holds of,
is kept by making one with its parents. A parent is only made if the path leads nowhere yet. -/
theorem makeDirs_keeps {P : FileSystem → Prop} {Q : Path → Prop}
    (hstep : ∀ q fs, Q q → P fs → P ((makeDir q).exec fs).2)
    (hparent : ∀ q parent fs, Q q → P fs → fs.resolve .place q = .error (.os .noEntry) →
      q.bytes ≠ [] → q.parent = some parent → Q parent)
    (hp : Q p) (hfs : P fs) : P (makeDirs p fs).2 := by
  have hnoEntry : ∀ {q : Path} {fs fs' : FileSystem},
      (makeDir q).exec fs = (.error (.os .noEntry), fs') →
        fs' = fs ∧ fs.resolve .place q = .error (.os .noEntry) := by
    intro q fs fs' hexec
    rcases makeDir_cases fs q with ⟨d, name, -, -, -, hmade⟩ | ⟨e, hfailed, hresolve⟩
    · rw [hmade] at hexec
      cases hexec
    · rw [hfailed] at hexec
      cases hexec
      exact ⟨rfl, hresolve rfl⟩
  have hafter : ∀ {q : Path} {fs fs' : FileSystem} {r : Except IoError Unit},
      Q q → P fs → (makeDir q).exec fs = (r, fs') → P fs' := by
    intro q fs fs' r hq hfs hexec
    have hkept := hstep q fs hq hfs
    rwa [hexec] at hkept
  fun_induction makeDirs p fs
  case case1 => exact hfs
  case case2 hexec => exact hafter hp hfs hexec
  case case3 hexec _ => exact hafter hp hfs hexec
  case case4 hne fs₁ hexec q hq e fs₂ hmakeDirs ih =>
    obtain ⟨rfl, hresolve⟩ := hnoEntry hexec
    have hmade := ih (hparent _ _ _ hp hfs hresolve hne hq) hfs
    rwa [hmakeDirs] at hmade
  case case5 hne fs₁ hexec q hq fs₂ hmakeDirs fs₃ hexec₂ ih =>
    obtain ⟨rfl, hresolve⟩ := hnoEntry hexec
    have hmade := ih (hparent _ _ _ hp hfs hresolve hne hq) hfs
    rw [hmakeDirs] at hmade
    exact hafter hp hmade hexec₂
  case case6 hne fs₁ hexec q hq fs₂ hmakeDirs e fs₃ hexec₂ ih =>
    obtain ⟨rfl, hresolve⟩ := hnoEntry hexec
    have hmade := ih (hparent _ _ _ hp hfs hresolve hne hq) hfs
    rw [hmakeDirs] at hmade
    exact hafter hp hmade hexec₂
  case case7 hexec => exact hafter hp hfs hexec

/-- Where a directory was made the path leads to it. -/
theorem isDirectoryAt_of_makeDir (h : (makeDir p).exec fs = (.ok (), fs')) :
    fs'.isDirectoryAt p = true := by
  rcases makeDir_cases fs p with ⟨d, name, hresolve, hlen, hfree, hexec⟩ | ⟨e, hexec, -⟩
  · rw [hexec] at h
    cases h
    have hdir := (walks_of_walk_slot (walk_of_resolve_ok hresolve)).1
    have hempty : ∀ p es, Node.directory d [] = .directory p es → es = [] := by
      rintro p es h
      cases h
      rfl
    refine isDirectoryAt_iff.2 ⟨fs.nodes.size,
      find_addNode hresolve hlen hfree nofun hempty (.inr ⟨d, [], rfl⟩), ?_⟩
    exact isDirectory_iff.2 ⟨d, [], node?_addNode_new hdir name _⟩
  · rw [hexec] at h
    cases h

/-- If making a directory does not fail, the path leads to a directory. -/
theorem isDirectoryAt_of_makeDirs (hne : p.bytes ≠ []) (h : makeDirs p fs = (.ok (), fs')) :
    fs'.isDirectoryAt p = true := by
  rw [makeDirs, if_neg hne] at h
  have hfailed : ∀ {e : IoError} {fs₁ : FileSystem},
      ((if fs₁.isDirectoryAt p then .ok () else .error e : Except IoError Unit), fs₁) = (.ok (), fs') →
        fs'.isDirectoryAt p = true := by
    intro e fs₁ heq
    split_ifs at heq with hdir
    · cases heq
      exact hdir
    · cases heq
  split at h
  · next hexec =>
    cases h
    exact isDirectoryAt_of_makeDir hexec
  · split at h
    · cases h
    · split at h
      · cases h
      · split at h
        · next hexec =>
          cases h
          exact isDirectoryAt_of_makeDir hexec
        · exact hfailed h
  · exact hfailed h

/-- Nothing is done where the path leads to a directory already. -/
theorem makeDirs_of_find (hfind : fs.find p = .ok i) (hdir : fs.isDirectory i = true) :
    makeDirs p fs = (.ok (), fs) := by
  obtain ⟨haccepts, left, hwalks⟩ := find_eq_ok_iff.1 hfind
  have hat : fs.isDirectoryAt p = true := by
    rw [isDirectoryAt, hfind]
    exact hdir
  have hexists : (makeDir p).exec fs = (.error (.os .fileExists), fs) := by
    rw [makeDir, exec_ofFn, haccepts.resolve]
    rcases hwalks.place with ⟨e, hplace⟩ | ⟨e, name, j, hplace, hchild, hlen⟩
    · rw [hplace]
      rfl
    · rw [hplace]
      simp [Except.mapError, Nat.not_lt.2 hlen, hchild]
  rw [makeDirs, if_neg haccepts.ne_nil, hexists]
  simp [hat]

/-! ## Adding directories -/

/-- From `fs` to `fs'` nothing happened but that new directories got names that were free. -/
structure AddsDirectories (fs fs' : FileSystem) : Prop extends Extends fs fs' where
  kept : ∀ {i}, i < fs.nodes.size → fs.isDirectory i = false → fs'.node? i = fs.node? i
  new : ∀ {i}, fs.nodes.size ≤ i → i < fs'.nodes.size → fs'.isDirectory i = true

namespace AddsDirectories

theorem refl (fs : FileSystem) : fs.AddsDirectories fs where
  toExtends := .refl fs
  kept _ _ := rfl
  new hle hlt := absurd hle (Nat.not_le.2 hlt)

theorem trans (h : fs.AddsDirectories fs') (h' : fs'.AddsDirectories fs'') :
    fs.AddsDirectories fs'' where
  toExtends := h.toExtends.trans h'.toExtends
  kept {i} hlt hdir := by
    have hkept := h.kept hlt hdir
    rw [← hkept]
    exact h'.kept (Nat.lt_of_lt_of_le hlt h.size_le) (by rw [isDirectory_of_node?_eq hkept, hdir])
  new {i} hle hlt := by
    rcases Nat.lt_or_ge i fs'.nodes.size with hold | hnew
    · exact h'.isDirectory (h.new hle hold)
    · exact h'.new hnew hlt

theorem addNode {name : Bytes} (hdir : fs.isDirectory d = true) (hfree : fs.child? d name = none) :
    fs.AddsDirectories (fs.addNode d name (.directory d [])).2 := by
  obtain ⟨parent, entries, hnode⟩ := isDirectory_iff.1 hdir
  have htable := node?_addNode hnode name (.directory d [])
  have hempty : ∀ p es, Node.directory d [] = .directory p es → es = [] := by
    rintro p es h
    cases h
    rfl
  refine ⟨.addNode hdir hfree nofun hempty, ?_, ?_⟩
  · intro i hlt hi
    have hne : i ≠ d := by
      rintro rfl
      rw [hdir] at hi
      cases hi
    rw [htable, if_neg hne, if_neg (Nat.ne_of_lt hlt)]
  · intro i hle hlt
    rw [size_addNode hdir] at hlt
    have hi : i = fs.nodes.size := Nat.le_antisymm (Nat.le_of_lt_succ hlt) hle
    have hne : i ≠ d := hi ▸ (Nat.ne_of_lt (lt_size_of_isDirectory hdir)).symm
    rw [isDirectory_iff]
    exact ⟨d, [], by rw [htable, if_neg hne, if_pos hi]⟩

theorem makeDir (fs : FileSystem) (p : Path) : fs.AddsDirectories ((makeDir p).exec fs).2 := by
  rcases makeDir_cases fs p with ⟨d, name, hresolve, -, hfree, hexec⟩ | ⟨e, hexec, -⟩
  · rw [hexec]
    exact .addNode (walks_of_walk_slot (walk_of_resolve_ok hresolve)).1 hfree
  · rw [hexec]
    exact .refl fs

/-- Making a directory with its parents only adds directories, even if it fails. -/
theorem makeDirs (p : Path) (fs : FileSystem) : fs.AddsDirectories (makeDirs p fs).2 :=
  makeDirs_keeps (Q := fun _ => True) (fun q _ _ h => h.trans (makeDir _ q))
    (fun _ _ _ _ _ _ _ _ => trivial) trivial (refl fs)

end AddsDirectories

end FlatArchive.FileSystem
