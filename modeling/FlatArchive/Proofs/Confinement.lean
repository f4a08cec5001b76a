-- SUMMARY: Unpacking stays in its directory: nothing outside of it changes, and nothing is removed.
import FlatArchive.Proofs.ImageFile
import FlatArchive.Proofs.Unpacking

/-!
# Confinement

The subtree of a directory is what lies below it, links not followed. If it holds no links, a path
of ordinary names from the directory leads to nodes of the subtree only, and to new ones. So all that
unpacking writes lies there: an entry's name has only ordinary names, and unpacking makes no links,
so the subtree stays without them.

The invariant (`Confined`) compares the files with those at the start of the extraction. It is kept
by every operation on a path under the directory, and so by each entry and by the whole run, however
it ends.
-/

namespace FlatArchive

open Attempt

namespace FileSystem

variable {base fs : FileSystem} {d i j : NodeId} {Target : NodeId → Prop}

/-! ## Subtrees -/

/-- The nodes of a subtree: the directory, and what has a name in a directory of the subtree. -/
inductive Below (fs : FileSystem) (d : NodeId) : NodeId → Prop where
  | self : Below fs d d
  | child {e i : NodeId} {name : Bytes} (parent : Below fs d e) (bound : fs.child? e name = some i) :
      Below fs d i

/-- A subtree without links, in which every file has its only name, and which does not hold the
image. -/
structure Sealed (fs : FileSystem) (image : Path) (d : NodeId) : Prop where
  no_link : ∀ {i target}, fs.Below d i → fs.node? i ≠ some (.link target)
  one_name : ∀ {i e name e' name'}, fs.Below d i → fs.isFile i = true →
    fs.child? e name = some i → fs.child? e' name' = some i → e = e' ∧ name = name'
  not_image : ∀ {i}, fs.find image = .ok i → ¬fs.Below d i

/-- The node is in the subtree, or is a new one. -/
def Inside (base : FileSystem) (d i : NodeId) : Prop := base.Below d i ∨ base.nodes.size ≤ i

/-- The children of what is inside are inside. -/
theorem Extends.inside_child (h : base.Extends fs) {name : Bytes} (hin : base.Inside d i)
    (hchild : fs.child? i name = some j) : base.Inside d j := by
  rcases h.child_or_new hchild with hold | ⟨-, hnew⟩
  · rcases hin with hbelow | hnew
    · exact .inl (.child hbelow hold)
    · have hlt := lt_size_of_isDirectory (isDirectory_of_child? hold)
      exact absurd hlt (Nat.not_lt.2 hnew)
  · exact .inr hnew

/-- The children of a new directory are new. -/
theorem Extends.new_child (h : base.Extends fs) {name : Bytes} (hnew : base.nodes.size ≤ i)
    (hchild : fs.child? i name = some j) : base.nodes.size ≤ j := by
  rcases h.child_or_new hchild with hold | ⟨-, hnew⟩
  · have hlt := lt_size_of_isDirectory (isDirectory_of_child? hold)
    exact absurd hlt (Nat.not_lt.2 hnew)
  · exact hnew

/-- Where only directories were added, a subtree is what it was, or is new. -/
theorem AddsDirectories.below (h : fs.AddsDirectories base) (hdir : base.isDirectory d = true)
    (hbelow : base.Below d i) : fs.isDirectory d = true ∧ fs.Below d i ∨ fs.nodes.size ≤ i := by
  rcases Nat.lt_or_ge d fs.nodes.size with hold | hnew
  · have hin : fs.Inside d i := by
      induction hbelow with
      | self => exact .inl .self
      | child _ hchild ih => exact h.inside_child ih hchild
    exact hin.imp_left fun hbelow => ⟨h.isDirectory_of_lt hold hdir, hbelow⟩
  · right
    induction hbelow with
    | self => exact hnew
    | child _ hchild ih => exact h.new_child ih hchild

/-- Adding directories leaves a subtree sealed. -/
theorem AddsDirectories.sealed (h : fs.AddsDirectories base) {image : Path}
    (himage : fs.find image = .ok j) (hfile : fs.isFile j = true)
    (hdir : base.isDirectory d = true) (hsealed : fs.isDirectory d = true → fs.Sealed image d) :
    base.Sealed image d where
  no_link {i target} hbelow hlink := by
    have hlink' := h.link.1 hlink
    rcases h.below hdir hbelow with ⟨hd, hbelow'⟩ | hnew
    · exact (hsealed hd).no_link hbelow' hlink'
    · rw [node?_of_size_le hnew] at hlink'
      cases hlink'
  one_name {i e name e' name'} hbelow hi hname hname' := by
    have hold : i < fs.nodes.size := by
      by_contra hnew
      exact ne_of_isFile_of_isDirectory hi (h.new (Nat.le_of_not_lt hnew) (lt_size_of_isFile hi)) rfl
    have hname_old : ∀ {e name}, base.child? e name = some i → fs.child? e name = some i :=
      fun hchild => (h.child_or_new hchild).resolve_right fun hnew => Nat.not_lt.2 hnew.2 hold
    obtain ⟨hd, hbelow'⟩ := (h.below hdir hbelow).resolve_right (Nat.not_le.2 hold)
    exact (hsealed hd).one_name hbelow' (h.isFile_of_lt hold hi) (hname_old hname) (hname_old hname')
  not_image {i} hfind hbelow := by
    rw [h.find himage] at hfind
    cases hfind
    obtain ⟨hd, hbelow'⟩ :=
      (h.below hdir hbelow).resolve_right (Nat.not_le.2 (lt_size_of_isFile hfile))
    exact (hsealed hd).not_image himage hbelow'

/-- Of the files that were there in `base`, only those in the subtree of `d` that are targets got
another content, only directories of the subtree got more names, and nothing was removed. -/
structure Confined (base : FileSystem) (d : NodeId) (Target : NodeId → Prop) (fs : FileSystem) :
    Prop where
  extends_base : base.Extends fs
  outside : ∀ {i}, i < base.nodes.size → ¬base.Below d i → fs.node? i = base.node? i
  target : ∀ {i}, base.isFile i = true → fs.node? i ≠ base.node? i → Target i

namespace Confined

theorem refl (base : FileSystem) (d : NodeId) (Target : NodeId → Prop) :
    base.Confined d Target base :=
  ⟨.refl base, fun _ _ => rfl, fun _ hne => absurd rfl hne⟩

/-- There are no links inside. -/
theorem inside_no_link (h : base.Confined d Target fs)
    (hlinks : ∀ {i target}, base.Below d i → base.node? i ≠ some (.link target))
    {target : Bytes} (hin : base.Inside d i) : fs.node? i ≠ some (.link target) := by
  intro hlink
  have hbase := h.extends_base.link.1 hlink
  rcases hin with hbelow | hnew
  · exact hlinks hbelow hbase
  · rw [node?_of_size_le hnew] at hbase
    cases hbase

/-! ## Changes inside -/

theorem setFile (h : base.Confined d Target fs) (hfile : fs.isFile i = true)
    (hin : base.Inside d i) (htarget : i < base.nodes.size → Target i) (content : Bytes) :
    base.Confined d Target (fs.setNode i (.file content)) := by
  have htable := node?_setNode fs (.file content) (lt_size_of_isFile hfile)
  refine ⟨h.extends_base.trans (.setFile hfile content), ?_, ?_⟩
  · intro j hlt hout
    rw [htable, if_neg]
    · exact h.outside hlt hout
    · rintro rfl
      exact hin.elim hout (Nat.not_le.2 hlt)
  · intro j hj hne
    rw [htable] at hne
    split_ifs at hne with heq
    · subst heq
      exact htarget (lt_size_of_isFile hj)
    · exact h.target hj hne

theorem addNode (h : base.Confined d Target fs) {e : NodeId} {name : Bytes} {n : Node}
    (hdir : fs.isDirectory e = true) (hin : base.Inside d e) (hfree : fs.child? e name = none)
    (hlink : ∀ target, n ≠ .link target)
    (hn : ∀ parent entries, n = .directory parent entries → entries = []) :
    base.Confined d Target (fs.addNode e name n).2 := by
  obtain ⟨parent, entries, hnode⟩ := isDirectory_iff.1 hdir
  have htable := node?_addNode hnode name n
  have hold : ∀ {j}, j < base.nodes.size → j ≠ e →
      (fs.addNode e name n).2.node? j = fs.node? j := by
    intro j hlt hne
    rw [htable, if_neg hne, if_neg (Nat.ne_of_lt (Nat.lt_of_lt_of_le hlt h.extends_base.size_le))]
  refine ⟨h.extends_base.trans (.addNode hdir hfree hlink hn), ?_, ?_⟩
  · intro j hlt hout
    rw [hold hlt]
    · exact h.outside hlt hout
    · rintro rfl
      exact hin.elim hout (Nat.not_le.2 hlt)
  · intro j hj hne
    have hlt := lt_size_of_isFile hj
    have hje : j ≠ e := by
      rintro rfl
      exact ne_of_isFile_of_isDirectory hj (h.extends_base.isDirectory_of_lt hlt hdir) rfl
    rw [hold hlt hje] at hne
    exact h.target hj hne

/-! ## Operations on paths under the directory -/

section Under

variable {dir p : Path} {names : List Step} (hfind : base.find dir = .ok d)
  (hdir : base.isDirectory d = true)
  (hlinks : ∀ {i target}, base.Below d i → base.node? i ≠ some (.link target))

include hlinks in
/-- A walk from the directory that never goes up stays inside. -/
theorem inside_of_walks (h : base.Confined d Target fs) {steps rest : List Step}
    {links left : Nat} (hup : .up ∉ steps) (hwalks : fs.Walks rest links d steps i left) :
    base.Inside d i :=
  hwalks.region h.extends_base.inside_child (h.inside_no_link hlinks) hup (.inl .self)

include hlinks in
/-- A walk to a node that was there starts at one that was there. -/
theorem lt_size_of_walks (h : base.Confined d Target fs) {a : NodeId} {steps rest : List Step}
    {links left : Nat} (hup : .up ∉ steps) (hwalks : fs.Walks rest links a steps i left)
    (hold : i < base.nodes.size) : a < base.nodes.size := by
  by_contra hnew
  have hi := hwalks.region h.extends_base.new_child (fun hin => h.inside_no_link hlinks (.inr hin)) hup
    (Nat.le_of_not_lt hnew)
  exact Nat.not_lt.2 hi hold

include hlinks in
/-- A walk from the subtree to a node that was there goes as it would have gone before. -/
theorem base_walks (h : base.Confined d Target fs) {a : NodeId} {steps rest : List Step}
    {links left : Nat} (hup : .up ∉ steps) (hwalks : fs.Walks rest links a steps i left)
    (ha : base.Below d a) (hold : i < base.nodes.size) : base.Walks rest links a steps i left := by
  have htail : ∀ {step : Step} {steps' : List Step}, Step.up ∉ step :: steps' → .up ∉ steps' :=
    fun hmem htail => hmem (List.mem_cons_of_mem _ htail)
  induction hwalks with
  | stay => exact .stay
  | here he hnext ih =>
    have hlt := h.lt_size_of_walks hlinks (htail hup) hnext hold
    exact .here (h.extends_base.isDirectory_of_lt hlt he) (ih (htail hup) ha hold)
  | closing he hnext ih =>
    have hlt := h.lt_size_of_walks hlinks (htail hup) hnext hold
    exact .closing (h.extends_base.isDirectory_of_lt hlt he) (ih (htail hup) ha hold)
  | up => exact absurd List.mem_cons_self hup
  | enter he hlen hchild hlink hnext ih =>
    have hlt := h.lt_size_of_walks hlinks (htail hup) hnext hold
    rcases h.extends_base.child_or_new hchild with hbase | ⟨-, hnew⟩
    · exact .enter (isDirectory_of_child? hbase) hlen hbase
        (fun t ht => hlink t (h.extends_base.link.2 ht)) (ih (htail hup) (.child ha hbase) hold)
    · exact absurd hlt (Nat.not_lt.2 hnew)
  | follow _ _ hchild htarget =>
    exact absurd htarget (h.inside_no_link hlinks (h.extends_base.inside_child (.inl ha) hchild))

include hfind hdir hlinks in
/-- Making a single directory at a path under `dir`. -/
theorem makeDir (h : base.Confined d Target fs) (hp : p.bytes = [] ∨ ∃ names, Under dir p names) :
    base.Confined d Target ((makeDir p).exec fs).2 := by
  rcases makeDir_cases fs p with ⟨e, name, hresolve, hlen, hfree, hexec⟩ | ⟨err, hexec, -⟩
  · have haccepts := accepts_of_resolve_ok hresolve
    have hwalk := walk_of_resolve_ok hresolve
    obtain ⟨names, hunder⟩ := hp.resolve_left haccepts.ne_nil
    have hfind' := h.extends_base.find hfind
    have hdir' := h.extends_base.isDirectory hdir
    -- The path of the output directory itself is no free place: it leads to the directory.
    have hin : base.Inside d e := by
      by_cases hnames : names = []
      · subst hnames
        obtain ⟨-, left, hwalks⟩ := find_eq_ok_iff.1 (hunder.find hfind' hdir' haccepts)
        rcases hwalks.place with ⟨e', hplace⟩ | ⟨e', name', j, hplace, hchild, -⟩
        · rw [hplace] at hwalk
          cases hwalk
        · rw [hplace] at hwalk
          cases hwalk
          rw [hfree] at hchild
          cases hchild
      · obtain ⟨-, back, left, -, -, -, hup, hgoes⟩ := hunder.walks hnames hfind hdir
        rw [(hgoes h.extends_base).2] at hwalk
        obtain ⟨-, -, rest, left', hwalks, -⟩ := walks_of_walk_slot hwalk
        exact h.inside_of_walks hlinks hup hwalks
    rw [hexec]
    refine h.addNode (walks_of_walk_slot hwalk).1 hin hfree nofun ?_
    rintro parent entries heq
    cases heq
    rfl
  · rwa [hexec]

include hfind hdir hlinks in
theorem makeDirs (h : base.Confined d Target fs) (hp : Under dir p names) :
    base.Confined d Target (makeDirs p fs).2 := by
  refine makeDirs_keeps (Q := fun q => q.bytes = [] ∨ ∃ names, Under dir q names)
    (fun q fs hq hfs => hfs.makeDir hfind hdir hlinks hq) ?_ (.inr ⟨names, hp⟩) h
  intro q parent fs hq hfs hresolve hne hparent
  obtain ⟨names, hunder⟩ := hq.resolve_left hne
  have hnames : names ≠ [] := by
    rintro rfl
    have haccepts := accepts_of_resolve_noEntry hresolve hne
    obtain ⟨-, left, hwalks⟩ := find_eq_ok_iff.1 (hunder.find (hfs.extends_base.find hfind)
      (hfs.extends_base.isDirectory hdir) haccepts)
    rw [haccepts.resolve] at hresolve
    rcases hwalks.place with ⟨e, hplace⟩ | ⟨e, name, j, hplace, -, -⟩
    · rw [hplace] at hresolve
      cases hresolve
    · rw [hplace] at hresolve
      cases hresolve
  by_cases hempty : parent.bytes = []
  · exact .inl hempty
  · exact .inr ⟨_, hunder.parent hnames hparent hempty⟩

include hfind hdir hlinks in
/-- The file created at a path under `dir` is inside, and was found at that path if it was there. -/
theorem create (h : base.Confined d Target fs) (hp : Under dir p names) (hne : names ≠ [])
    (htarget : ∀ {i}, base.find p = .ok i → Target i) :
    base.Confined d Target ((create p).exec fs).2
      ∧ ∀ {i fs'}, (create p).exec fs = (.ok i, fs') → fs'.isFile i = true →
        base.Inside d i ∧ (i < base.nodes.size → Target i) := by
  obtain ⟨-, back, left, -, -, -, hup, hpasses⟩ := hp.walks hne hfind hdir
  have hgoes := (hpasses h.extends_base).2
  rcases create_cases fs p with ⟨e, name, hresolve, hexec⟩ | ⟨i, hresolve, hfile, hexec⟩ |
    ⟨i, kind, -, hnode, hexec⟩ | ⟨err, hexec⟩
  · have hwalk := walk_of_resolve_ok hresolve
    rw [hgoes] at hwalk
    obtain ⟨he, hfree, rest, left', hwalks', -⟩ := walks_of_walk_slot hwalk
    have hin := h.inside_of_walks hlinks hup hwalks'
    rw [hexec]
    refine ⟨h.addNode he hin (hfree nofun).1 nofun nofun, ?_⟩
    intro i fs' heq hfile
    cases heq
    exact ⟨.inr h.extends_base.size_le, fun hlt => absurd hlt (Nat.not_lt.2 h.extends_base.size_le)⟩
  · have hwalk := walk_of_resolve_ok hresolve
    rw [hgoes] at hwalk
    obtain ⟨left', hwalks'⟩ := walks_of_walk_node hwalk
    have hin := h.inside_of_walks hlinks hup hwalks'
    -- A file that was there is reached over nodes that were there, so the path led to it before.
    have hi : i < base.nodes.size → Target i := by
      intro hlt
      have hbase := h.base_walks hlinks hup hwalks' .self hlt
      have haccepts := (accepts_of_resolve_ok hresolve).of_pathLimit_eq h.extends_base.pathLimit
      exact htarget (find_eq_ok_iff.2 ⟨haccepts, left', (hpasses (.refl base)).1.trans hbase⟩)
    rw [hexec]
    refine ⟨h.setFile hfile hin hi [], ?_⟩
    intro i' fs' heq _
    cases heq
    exact ⟨hin, hi⟩
  · rw [hexec]
    refine ⟨h, ?_⟩
    intro i' fs' heq hfile
    cases heq
    obtain ⟨c, hc⟩ := isFile_iff.1 hfile
    rw [hnode] at hc
    cases hc
  · rw [hexec]
    exact ⟨h, nofun⟩

include hfind hdir hlinks in
theorem writeFile (h : base.Confined d Target fs) (hp : Under dir p names) (hne : names ≠ [])
    (htarget : ∀ {i}, base.find p = .ok i → Target i) (content : Bytes) :
    base.Confined d Target ((writeFile p content).exec fs).2 := by
  obtain ⟨hcreated, hinside⟩ := h.create hfind hdir hlinks hp hne htarget
  rw [FileSystem.writeFile, exec_bind]
  rcases hexec : (FileSystem.create p).exec fs with ⟨e | i, fs'⟩
  · rwa [hexec] at hcreated
  · rw [hexec] at hcreated
    dsimp only
    rcases writeAt_cases fs' i 0 content with ⟨old, hnode, hwrite⟩ | hwrite
    · have hfile := isFile_iff.2 ⟨old, hnode⟩
      obtain ⟨hin, hi⟩ := hinside hexec hfile
      rw [hwrite]
      exact hcreated.setFile hfile hin hi _
    · rwa [hwrite]

end Under

/-- A file that has a name outside of a sealed subtree stays as it is. -/
theorem named (h : base.Confined d Target fs) {image : Path} (hsealed : base.Sealed image d)
    (hdir : base.isDirectory d = true) {e : NodeId} {name : Bytes} (hout : ¬base.Below d e)
    (hchild : base.child? e name = some i) (hfile : base.isFile i = true) :
    fs.node? i = base.node? i := by
  refine h.outside (lt_size_of_isFile hfile) fun hbelow => ?_
  cases hbelow with
  | self => exact ne_of_isFile_of_isDirectory hfile hdir rfl
  | child hparent hbound =>
    obtain ⟨rfl, -⟩ := hsealed.one_name (.child hparent hbound) hfile hchild hbound
    exact hout hparent

end Confined

end FileSystem

/-! ## Entries -/

section Entries

open FileSystem

variable {base : FileSystem} {d : NodeId} {Target : NodeId → Prop} {dir : Path}
  (hne : dir.bytes ≠ []) (hfind : base.find dir = .ok d) (hdir : base.isDirectory d = true)
  (hlinks : ∀ {i target}, base.Below d i → base.node? i ≠ some (.link target))

include hne hfind hdir hlinks in
theorem keeps_writeBelow {relative : Path} (hstray : relative.stray? = none)
    (hbytes : relative.bytes ≠ [])
    (htarget : ∀ {i}, base.find (dir.join relative) = .ok i → Target i) (content : Bytes) :
    Keeps (fun s => base.Confined d Target s.state) (writeBelow dir relative content) := by
  have hunder := Under.join hne hstray
  have hnames := Path.moves_ne_nil_of_stray?_eq_none hstray hbytes
  have hwrite : Keeps (fun s => base.Confined d Target s.state) (do
      Task.io (.io "Write file" (some (dir.join relative)))
        (FileSystem.writeFile (dir.join relative) content)
      return dir.join relative) :=
    (Task.keeps_io _ fun fs hfs => hfs.writeFile hfind hdir hlinks hunder hnames htarget content).bind
      fun _ => Keeps.pure _
  unfold writeBelow
  cases hparent : (dir.join relative).parent with
  | none => simpa only [hparent] using hwrite
  | some parent =>
    simp only [hparent]
    refine (Task.keeps_io _ fun fs hfs => ?_).bind fun _ => hwrite
    by_cases hempty : parent.bytes = []
    · rw [createDirAll, exec_ofFn, makeDirs, if_pos hempty]
      exact hfs
    · exact hfs.makeDirs hfind hdir hlinks (hunder.parent hnames hparent hempty)

include hne hfind hdir hlinks in
/-- Extracting an entry stays inside, and changes no file but the one at its path. -/
theorem keeps_extract (index : Nat) (entry : Entry)
    (htarget : ∀ {i}, base.find (dir.join (Path.ofString (unpackedName index entry.name))) = .ok i →
      Target i) :
    Keeps (fun s => base.Confined d Target s.state) (extract dir index entry) := by
  refine Keeps.bind_of (Q := fun name _ => name = unpackedName index entry.name) ?_ ?_ ?_
  · intro s hs
    rwa [exec_fileName]
  · intro s name s' _ hexec
    rw [exec_fileName] at hexec
    cases hexec
    rfl
  · rintro name s hs rfl
    refine Keeps.bind (P := fun s => base.Confined d Target s.state)
      (Task.keeps_atEntry index ?_) (fun target => ?_) s hs
    · refine Keeps.bind_of (Q := fun relative _ =>
        relative = Path.ofString (unpackedName index entry.name) ∧ relative.stray? = none)
        (Keeps.liftM _) ?_ ?_
      · intro s relative s' _ hexec
        rw [exec_liftM] at hexec
        exact checkPath_eq_ok (congrArg Prod.fst hexec)
      · rintro relative s hs ⟨rfl, hstray⟩
        exact keeps_writeBelow hne hfind hdir hlinks hstray (unpackedName_ne_nil _ _) htarget _ s hs
    · exact (Task.keeps_report _).bind fun _ => Keeps.pure _

/-! ## Runs -/

include hne hfind hdir hlinks in
/-- Extracting all entries that are left of an image outside stays inside. -/
theorem confined_extractAll {j : NodeId} {n : UInt8}
    (hold : j < base.nodes.size) (hout : ¬base.Below d j)
    (htarget : ∀ {index r}, Decodes (base.content j) index r → ∀ {i},
      base.find (dir.join (Path.ofString (unpackedName index r.name))) = .ok i → Target i)
    (m : Nat) (before : List Record) (rest : Bytes) (image : ImageFile) (s : Session FileSystem)
    (hbytes : base.content j = n :: (before.flatMap Record.bytes ++ rest))
    (hstands : ImageFile.Stands s.state j image ⟨n⟩ before.length rest)
    (hs : base.Confined d Target s.state) :
    base.Confined d Target ((extractAll dir m image).exec s).2.state := by
  -- The image lies outside, so it still holds the same bytes after each entry.
  induction m generalizing before rest image s with
  | zero => exact hs
  | succ m ih =>
    rw [extractAll]
    by_cases hmore : before.length < n.toNat
    · rcases record_or_damage rest with ⟨r, rest, rfl⟩ | ⟨e, hdamage⟩
      · obtain ⟨image', hnext, hstands'⟩ := hstands.next_record hmore
        rw [exec_bind_ok (exec_fromImage_ok hnext)]
        have hentry := keeps_extract hne hfind hdir hlinks (before.length + 1) r.entry
          (htarget ⟨n, before, rest, hbytes, hmore, rfl⟩) s hs
        rcases hexec : (extract dir (before.length + 1) r.entry).exec s with ⟨e | target, s'⟩
        · rw [hexec] at hentry
          rwa [exec_bind_error hexec]
        · rw [hexec] at hentry
          rw [exec_bind_ok hexec]
          have hcontent : s'.state.content j = s.state.content j := by
            rw [content_of_node?_eq (hentry.outside hold hout),
              content_of_node?_eq (hs.outside hold hout)]
          have hrest := ih (before ++ [r]) rest image' s' (by simpa using hbytes)
            (by simpa using hstands'.of_content_eq hcontent) hentry
          rcases hexec' : (extractAll dir m image').exec s' with ⟨e | targets, s''⟩
          · rw [hexec'] at hrest
            rwa [exec_bind_error hexec']
          · rw [hexec'] at hrest
            rwa [exec_bind_ok hexec', exec_pure]
      · obtain ⟨image', hnext⟩ := hstands.next_damage hmore hdamage
        have hexec : (fromImage ImageFile.next image).exec s =
            (.error (.entry (before.length + 1) (.format e)), s) := by
          rw [fromImage, exec_ofFn, hnext]
        rwa [exec_bind_error hexec]
    · rw [exec_bind_ok (exec_fromImage_ok (hstands.next_none (Nat.le_of_not_lt hmore)))]
      exact hs

end Entries

/-! ## The whole of it -/

open FileSystem

/-- The nodes that the entries of an image lead to when it is unpacked into `dir`. -/
def EntryTarget (fs base : FileSystem) (image dir : Path) (i : NodeId) : Prop :=
  ∃ j index r, fs.find image = .ok j ∧ Decodes (fs.content j) index r
    ∧ base.find (dir.join (Path.ofString (unpackedName index r.name))) = .ok i

/-- What follows the preparation of the directory stays inside. -/
theorem confined_unpack {fs base : FileSystem} {image dir : Path} {d j : NodeId} {n : UInt8}
    {bs : Bytes} {opened : ImageFile} {events events' : List Event} (hne : dir.bytes ≠ [])
    (hadds : fs.AddsDirectories base) (hfind : base.find dir = .ok d)
    (hdir : base.isDirectory d = true) (hsealed : base.Sealed image d)
    (hopen : ImageFile.ofPath fs image = .ok opened) (himage : fs.find image = .ok j)
    (hfile : fs.isFile j = true) (hcontent : fs.content j = n :: bs)
    (hstands : ImageFile.Stands fs j opened ⟨n⟩ 0 bs)
    (hprepare : (prepareDirectory dir).exec ⟨fs, events⟩ = (.ok (), ⟨base, events'⟩)) :
    base.Confined d (EntryTarget fs base image dir)
      ((unpack image dir).exec ⟨fs, events⟩).2.state := by
  have hkept : base.node? j = fs.node? j :=
    hadds.kept (lt_size_of_isFile hfile) (isDirectory_eq_false_of_isFile hfile)
  have hcontent' : base.content j = fs.content j := content_of_node?_eq hkept
  have hold : j < base.nodes.size := Nat.lt_of_lt_of_le (lt_size_of_isFile hfile) hadds.size_le
  have hout : ¬base.Below d j := hsealed.not_image (hadds.find himage)
  have hextract : ∀ (events : List Event), base.Confined d (EntryTarget fs base image dir)
      ((extractAll dir opened.reader.remaining opened).exec ⟨base, events⟩).2.state := by
    intro events
    refine confined_extractAll hne hfind hdir hsealed.no_link hold hout ?_ _ [] bs opened _
      (hcontent'.trans hcontent) (hstands.of_content_eq hcontent') (.refl base d _)
    intro index r hdecodes i hi
    rw [hcontent'] at hdecodes
    exact ⟨j, index, r, himage, hdecodes, hi⟩
  have hfinish : ∀ (files : List Path) (image' : ImageFile),
      Keeps (fun s => base.Confined d (EntryTarget fs base image dir) s.state) (do
        let r ← fromImage ImageFile.trailing image'
        if r.1 > 0 then Task.report (.trailingData r.1)
        return (⟨files, r.1⟩ : Unpacked)) := by
    intro files image'
    refine Keeps.bind (keeps_fromImage _ _) fun r => ?_
    split
    · exact (Task.keeps_report _).bind fun _ => Keeps.pure _
    · exact Keeps.pure _
  have hrun : ∀ (events : List Event), base.Confined d (EntryTarget fs base image dir)
      ((do
        let x ← extractAll dir opened.reader.remaining opened
        let r ← fromImage ImageFile.trailing x.2
        if r.1 > 0 then Task.report (.trailingData r.1)
        return (⟨x.1, r.1⟩ : Unpacked) : Task FileSystem Unpacked).exec
          ⟨base, events⟩).2.state := by
    intro events
    have hall := hextract events
    rcases hexec : (extractAll dir opened.reader.remaining opened).exec ⟨base, events⟩ with
      ⟨e | ⟨files, image'⟩, s'⟩
    · rw [hexec] at hall
      rwa [exec_bind_error hexec]
    · rw [hexec] at hall
      rw [exec_bind_ok hexec]
      exact hfinish files image' s' hall
  rw [unpack, exec_bind_ok (exec_get _), exec_bind_ok (exec_liftM_eq_ok_iff.2 ⟨hopen, rfl⟩),
    exec_bind_ok hprepare]
  dsimp only
  split
  · exact hrun _
  · exact hrun _

/-- Unpacking is confined to its directory: if no directory that was there is unpacked into, or one
whose subtree is sealed, then at most new directories are made on the way to the output directory,
and after that nothing changes but inside of it. There no file that was there changes unless an
entry leads to it, and nothing is removed. All this holds however the unpacking ends. -/
theorem unpack_confined {fs : FileSystem} {image dir : Path} (hne : dir.bytes ≠ [])
    (hsealed : ∀ d, (prepared fs dir).find dir = .ok d → fs.isDirectory d = true →
      fs.Sealed image d) :
    let base := prepared fs dir
    let after := ((unpack image dir).start fs).2.state
    fs.AddsDirectories base ∧ (fs.isDirectoryAt dir = true → base = fs)
      ∧ (after = fs ∨ after = base ∨
        ∃ d, base.find dir = .ok d ∧ base.isDirectory d = true
          ∧ base.Confined d (EntryTarget fs base image dir) after
          ∧ ∀ e name i, ¬base.Below d e → base.child? e name = some i → base.isFile i = true →
              after.node? i = base.node? i) := by
  have hcases := prepareDirectory_cases dir ⟨fs, []⟩
  rcases hprepare : (prepareDirectory dir).exec ⟨fs, []⟩ with ⟨result, base, events⟩
  have hbase : prepared fs dir = base := by
    rw [prepared, Task.start, hprepare]
  rw [hprepare] at hcases
  rw [hbase] at hsealed ⊢
  intro _ after
  have hadds : fs.AddsDirectories base ∧ (fs.isDirectoryAt dir = true → base = fs) := by
    rcases hcases with ⟨d, -, -, heq⟩ | ⟨hmissing, made, hmake, heq⟩ | ⟨e, s', heq, hadds, hkept⟩
    · cases heq
      exact ⟨.refl fs, fun _ => rfl⟩
    · cases heq
      have hmade := AddsDirectories.makeDirs dir fs
      rw [hmake] at hmade
      refine ⟨hmade, fun hat => ?_⟩
      rw [isDirectoryAt, hmissing] at hat
      cases hat
    · cases heq
      exact ⟨hadds, hkept⟩
  refine ⟨hadds.1, hadds.2, ?_⟩
  cases hopen : ImageFile.ofPath fs image with
  | error e =>
    left
    have hfailed : (liftM (ImageFile.ofPath fs image) : Task FileSystem ImageFile).exec ⟨fs, []⟩ =
        (.error e, ⟨fs, []⟩) := by
      rw [exec_liftM, hopen]
    show ((unpack image dir).exec ⟨fs, []⟩).2.state = fs
    rw [unpack, exec_bind_ok (exec_get _), exec_bind_error hfailed]
  | ok opened =>
    right
    obtain ⟨j, n, bs, himage, hfile, hcontent, hstands⟩ := ImageFile.stands_of_ofPath hopen
    have hconfined : ∀ {d}, base.find dir = .ok d → base.isDirectory d = true → result = .ok () →
        ∃ d, base.find dir = .ok d ∧ base.isDirectory d = true
          ∧ base.Confined d (EntryTarget fs base image dir) after
          ∧ ∀ e name i, ¬base.Below d e → base.child? e name = some i → base.isFile i = true →
              after.node? i = base.node? i := by
      rintro d hfind hdir rfl
      have hsealed' := hadds.1.sealed himage hfile hdir (hsealed d hfind)
      have hafter := confined_unpack hne hadds.1 hfind hdir hsealed' hopen himage hfile hcontent
        hstands hprepare
      exact ⟨d, hfind, hdir, hafter, fun e name i => hafter.named hsealed' hdir⟩
    rcases hcases with ⟨d, hfind, hdir, heq⟩ | ⟨hmissing, made, hmake, heq⟩ | ⟨e, s', heq, -, -⟩
    · cases heq
      exact .inr (hconfined hfind hdir rfl)
    · cases heq
      obtain ⟨d, hfind, hdir⟩ := isDirectoryAt_iff.1 (isDirectoryAt_of_makeDirs hne hmake)
      exact .inr (hconfined hfind hdir rfl)
    · cases heq
      left
      show ((unpack image dir).exec ⟨fs, []⟩).2.state = base
      rw [unpack, exec_bind_ok (exec_get _), exec_bind_ok (exec_liftM_eq_ok_iff.2 ⟨hopen, rfl⟩),
        exec_bind_error hprepare]

/-! ## Two trees -/

open Text.Utf8

/-- An image `i`, and a directory `d` with a file `f`. -/
def plainTree (image : Bytes) : FileSystem where
  nodes := #[.directory 0 [(encode "i", 1), (encode "d", 2)], .file image,
    .directory 0 [(encode "f", 3)], .file [7]]
  root := 0
  cwd := 0
  pathLimit := none

theorem plainTree_below {image : Bytes} {i : NodeId} (h : (plainTree image).Below 2 i) :
    i = 2 ∨ i = 3 := by
  induction h with
  | self => exact .inl rfl
  | child _ hbound ih =>
    have hmem := mem_entries_of_child? hbound
    rcases ih with rfl | rfl
    · simp [entries, node?, plainTree] at hmem
      exact .inr hmem.2
    · simp [entries, node?, plainTree] at hmem

theorem plainTree_sealed (image : Bytes) : (plainTree image).Sealed (Path.ofString "i") 2 where
  no_link hbelow := by
    rcases plainTree_below hbelow with rfl | rfl <;> simp [node?, plainTree]
  one_name {i e name e' name'} hbelow hfile hname hname' := by
    have hnames : ∀ {e name}, (plainTree image).child? e name = some 3 → e = 2 ∧ name = encode "f" := by
      intro e name hchild
      have hlt : e < 4 := lt_size_of_isDirectory (isDirectory_of_child? hchild)
      have hmem := mem_entries_of_child? hchild
      interval_cases e
      all_goals simp [entries, node?, plainTree] at hmem
      exact ⟨rfl, hmem⟩
    rcases plainTree_below hbelow with rfl | rfl
    · simp [isFile, node?, plainTree] at hfile
    · obtain ⟨rfl, rfl⟩ := hnames hname
      obtain ⟨rfl, rfl⟩ := hnames hname'
      exact ⟨rfl, rfl⟩
  not_image {i} hfind hbelow := by
    have himage : (plainTree image).find (Path.ofString "i") = .ok 1 := by cbv
    rw [himage] at hfind
    cases hfind
    rcases plainTree_below hbelow with h | h <;> cases h

/-- Unpacking into a directory without links does not touch the image. -/
theorem unpack_confined_to_plain :
    let fs := plainTree (1 :: Entry.encode ⟨"f", [8]⟩)
    ((unpack (Path.ofString "i") (Path.ofString "d")).start fs).2.state.node? 1 = fs.node? 1 := by
  generalize 1 :: Entry.encode ⟨"f", [8]⟩ = image
  intro fs
  have hprepared : prepared fs (Path.ofString "d") = fs := by cbv
  have hdir : (prepared fs (Path.ofString "d")).find (Path.ofString "d") = .ok 2 := by cbv
  have hsealed : ∀ d, (prepared fs (Path.ofString "d")).find (Path.ofString "d") = .ok d →
      fs.isDirectory d = true → fs.Sealed (Path.ofString "i") d := by
    intro d hfind _
    rw [hdir] at hfind
    cases hfind
    exact plainTree_sealed image
  have hne : (Path.ofString "d").bytes ≠ [] := by decide
  obtain ⟨-, -, hafter | hafter | ⟨d, hfind, -, hconfined, -⟩⟩ := unpack_confined hne hsealed
  · rw [hafter]
  · rw [hafter, hprepared]
  · rw [hdir] at hfind
    cases hfind
    rw [hprepared] at hconfined
    refine hconfined.outside (by cbv) fun hbelow => ?_
    rcases plainTree_below hbelow with h | h <;> cases h

/-- An image `i`, a directory `v` with a file `f`, and a directory `d` with a link `l` to `v`. -/
def linkedTree (image content : Bytes) : FileSystem where
  nodes := #[.directory 0 [(encode "i", 1), (encode "v", 2), (encode "d", 4)], .file image,
    .directory 0 [(encode "f", 3)], .file content, .directory 0 [(encode "l", 5)],
    .link (encode "../v")]
  root := 0
  cwd := 0
  pathLimit := none

/-- The tree with one more directory `d/x`. -/
def linkedTreeGrown (image content : Bytes) : FileSystem where
  nodes := #[.directory 0 [(encode "i", 1), (encode "v", 2), (encode "d", 4)], .file image,
    .directory 0 [(encode "f", 3)], .file content,
    .directory 0 [(encode "l", 5), (encode "x", 6)], .link (encode "../v"), .directory 4 []]
  root := 0
  cwd := 0
  pathLimit := none

theorem linkedTreeGrown_below {image content : Bytes} {i : NodeId}
    (h : (linkedTreeGrown image content).Below 4 i) : i = 4 ∨ i = 5 ∨ i = 6 := by
  induction h with
  | self => exact .inl rfl
  | child _ hbound ih =>
    have hmem := mem_entries_of_child? hbound
    rcases ih with rfl | rfl | rfl
    · simp [entries, node?, linkedTreeGrown] at hmem
      exact .inr (hmem.imp And.right And.right)
    · simp [entries, node?, linkedTreeGrown] at hmem
    · simp [entries, node?, linkedTreeGrown] at hmem

/-- An output directory that is missing may lead to one that was there once it is made: `d/x/..` is
`d` again. Then a link in it leads out of it, here to a file that is overwritten. -/
theorem unpack_leaves_made_directory :
    (linkedTree (1 :: Entry.encode ⟨"l/f", [8]⟩) [7]).find (Path.ofString "d/x/..") =
        .error (.os .noEntry)
      ∧ ((unpack (Path.ofString "i") (Path.ofString "d/x/..")).start
            (linkedTree (1 :: Entry.encode ⟨"l/f", [8]⟩) [7])).2.state =
          linkedTreeGrown (1 :: Entry.encode ⟨"l/f", [8]⟩) [8]
      ∧ (linkedTreeGrown (1 :: Entry.encode ⟨"l/f", [8]⟩) [8]).find (Path.ofString "d/x/..") = .ok 4
      ∧ ¬(linkedTreeGrown (1 :: Entry.encode ⟨"l/f", [8]⟩) [8]).Below 4 3
      ∧ (linkedTree (1 :: Entry.encode ⟨"l/f", [8]⟩) [7]).node? 3 = some (.file [7])
      ∧ (linkedTreeGrown (1 :: Entry.encode ⟨"l/f", [8]⟩) [8]).node? 3 = some (.file [8]) := by
  generalize himage : 1 :: Entry.encode ⟨"l/f", [8]⟩ = image
  refine ⟨by cbv, ?_, by cbv, ?_, rfl, rfl⟩
  · have hprepare : (prepareDirectory (Path.ofString "d/x/..")).exec ⟨linkedTree image [7], []⟩ =
        (.ok (), ⟨linkedTreeGrown image [7], [.createdDir (Path.ofString "d/x/..")]⟩) := by cbv
    have hextract : (extract (Path.ofString "d/x/..") 1 ⟨"l/f", [8]⟩).exec
          ⟨linkedTreeGrown image [7], [.createdDir (Path.ofString "d/x/..")]⟩ =
        (.ok (Path.ofString "d/x/../l/f"), ⟨linkedTreeGrown image [8],
          [.createdDir (Path.ofString "d/x/.."),
            .unpacked 1 "l/f" 1 (Path.ofString "d/x/../l/f")]⟩) := by cbv
    have hnode : (linkedTree image [7]).node? 1 =
        some (.file (1 :: Entry.encode ⟨"l/f", [8]⟩)) := by
      rw [himage]
      rfl
    have hfind : (linkedTree image [7]).find (Path.ofString "i") = .ok 1 := by cbv
    have hlen : (encode "l/f").length ≤ Name.maxLength := by decide
    have hzero : 0 ∉ encode "l/f" := by decide
    have hsize : [(8 : UInt8)].length < 2 ^ 64 := by decide
    have hrun := exec_unpack_single hlen hzero hsize hfind hnode hprepare rfl hextract rfl
    rw [Task.start, hrun]
  · intro hbelow
    rcases linkedTreeGrown_below hbelow with h | h | h <;> cases h

end FlatArchive
