-- SUMMARY: Writing files with their directories below a directory that was empty.
import FlatArchive.Proofs.Descent
import FlatArchive.Proofs.Restoring

/-!
# Planting

What lies below a directory that was empty is planned as a function from names to what they lead to.
`Planted` says that the files are as planned: below the directory there is what the plan says and
nothing else, no node is reached in two ways, and everything outside is as it was. It is kept by each
step that adds or changes one node, so also by making the directories that a file needs and by writing
the file. A step fails only where the plan has a file in the place of a directory, or the other way
round.
-/

namespace FlatArchive

open Attempt

/-- What a node is, apart from the names in it. -/
inductive Shape where
  | file (content : Bytes)
  | directory
  | link (target : Bytes)
  | device (kind : Device)
  deriving Repr, DecidableEq

def Node.shape : Node → Shape
  | .file content => .file content
  | .directory .. => .directory
  | .link target => .link target
  | .device kind => .device kind

namespace FileSystem

variable {base fs : FileSystem} {d e i : NodeId} {name : Bytes} {names names' : List Bytes}
  {plan : List Bytes → Option Shape} {n : Node}

/-- What names lead to from a directory. -/
def shapeAt (fs : FileSystem) (d : NodeId) (names : List Bytes) : Option Shape :=
  ((fs.descend d names).bind fs.node?).map Node.shape

theorem isDirectory_of_shape (hnode : fs.node? i = some n) (h : n.shape = .directory) :
    fs.isDirectory i = true := by
  cases n with
  | directory parent entries => exact isDirectory_iff.2 ⟨parent, entries, hnode⟩
  | file content => cases h
  | link target => cases h
  | device kind => cases h

theorem isFile_of_shape {content : Bytes} (hnode : fs.node? i = some n)
    (h : n.shape = .file content) : fs.isFile i = true := by
  cases n with
  | file content => exact isFile_iff.2 ⟨content, hnode⟩
  | directory parent entries => cases h
  | link target => cases h
  | device kind => cases h

/-! ## Single changes -/

/-- One more node is reached by the names that lead to its directory, and its own. -/
theorem descend_addNode (he : fs.isDirectory e = true)
    (hn : ∀ parent entries, n = .directory parent entries → entries = [])
    (hdesc : fs.descend d names = some e)
    (hone : ∀ {names'}, fs.descend d names' = some e → names' = names)
    (hfree : fs.child? e name = none) (names' : List Bytes) :
    (fs.addNode e name n).2.descend d names' =
      if names' = names ++ [name] then some fs.nodes.size else fs.descend d names' := by
  have hnew : ∀ {k x}, fs.nodes.size ≤ k → fs.child? k x = none := by
    intro k x hk
    rw [child?, entries, node?_of_size_le hk]
    rfl
  induction names' using List.reverseRecOn with
  | nil => rw [if_neg (by simp), descend_nil, descend_nil]
  | append_singleton xs x ih =>
    rw [descend_concat, descend_concat, ih]
    by_cases hxs : xs = names ++ [name]
    · -- The new node has no names yet, and there was nothing in its place.
      have hne : fs.nodes.size ≠ e := (Nat.ne_of_lt (lt_size_of_isDirectory he)).symm
      rw [if_pos hxs, Option.bind_some, child?_addNode he name hn, if_neg fun h => hne h.1,
        hnew (Nat.le_refl _), if_neg (by simp [hxs]), hxs, descend_concat, hdesc, Option.bind_some,
        hfree]
      rfl
    · rw [if_neg hxs]
      cases hdesc' : fs.descend d xs with
      | none =>
        have hother : xs ++ [x] ≠ names ++ [name] := by
          intro heq
          rw [(List.append_inj' heq rfl).1, hdesc] at hdesc'
          cases hdesc'
        rw [if_neg hother]
        rfl
      | some k =>
        rw [Option.bind_some, Option.bind_some, child?_addNode he name hn]
        have hiff : (k = e ∧ x = name) ↔ xs ++ [x] = names ++ [name] := by
          constructor
          · rintro ⟨rfl, rfl⟩
            rw [hone hdesc']
          · intro heq
            obtain ⟨rfl, hx⟩ := List.append_inj' heq rfl
            rw [hdesc] at hdesc'
            exact ⟨(Option.some.inj hdesc').symm, (List.cons.inj hx).1⟩
        simp only [hiff]

/-- A new node leaves the others what they were. -/
theorem shape_addNode (he : fs.isDirectory e = true) (name : Bytes) (n : Node)
    (hi : i < fs.nodes.size) :
    ((fs.addNode e name n).2.node? i).map Node.shape = (fs.node? i).map Node.shape := by
  obtain ⟨parent, entries, hnode⟩ := isDirectory_iff.1 he
  rw [node?_addNode hnode, if_neg (Nat.ne_of_lt hi)]
  split_ifs with hie
  · rw [hie, hnode]
    rfl
  · rfl

theorem entries_addNode_new (he : fs.isDirectory e = true) (name : Bytes)
    (hn : ∀ parent entries, n = .directory parent entries → entries = []) :
    (fs.addNode e name n).2.entries fs.nodes.size = [] := by
  rw [entries, node?_addNode_new he]
  cases n with
  | directory parent entries => exact hn parent entries rfl
  | file content => rfl
  | link target => rfl
  | device kind => rfl

theorem nodup_addNode (he : fs.isDirectory e = true) (name : Bytes) (n : Node)
    (hi : i < fs.nodes.size) (hnodup : ((fs.entries i).map (·.1)).Nodup) :
    (((fs.addNode e name n).2.entries i).map (·.1)).Nodup := by
  obtain ⟨parent, entries, hnode⟩ := isDirectory_iff.1 he
  rw [FileSystem.entries, node?_addNode hnode, if_neg (Nat.ne_of_lt hi)]
  split_ifs with hie
  · subst hie
    rw [FileSystem.entries, hnode] at hnodup
    exact nodup_bind hnodup name _
  · exact hnodup

/-- What a file holds does not matter to where names lead. -/
theorem descend_setFile (hfile : fs.isFile i = true) (content : Bytes) (d : NodeId)
    (names : List Bytes) :
    (fs.setNode i (.file content)).descend d names = fs.descend d names := by
  induction names generalizing d with
  | nil => rfl
  | cons name names ih =>
    rw [descend_cons, descend_cons, child?_setFile hfile]
    exact Option.bind_congr fun j _ => ih j

/-! ## Plans -/

/-- Below the directory `d`, which was empty in `base`, there is what the plan says, and nothing else
was changed. -/
structure Planted (base : FileSystem) (d : NodeId) (plan : List Bytes → Option Shape)
    (fs : FileSystem) : Prop where
  extends_base : base.Extends fs
  others : ∀ {i}, i < base.nodes.size → i ≠ d → fs.node? i = base.node? i
  shape : ∀ {names}, names ≠ [] → fs.shapeAt d names = plan names
  one_path : ∀ {names names' i}, fs.descend d names = some i → fs.descend d names' = some i →
    names = names'
  lt_size : ∀ {names i}, fs.descend d names = some i → i < fs.nodes.size
  nodup_names : ∀ {names i}, fs.descend d names = some i → ((fs.entries i).map (·.1)).Nodup

/-- The plan with directories for some names and for all that lie before them. -/
def withDirectories (plan : List Bytes → Option Shape) (names : List Bytes) :
    List Bytes → Option Shape := fun names' =>
  if names' ≠ [] ∧ names' <+: names then some .directory else plan names'

/-- The plan with one more file, and the directories that it needs. -/
def withFile (plan : List Bytes → Option Shape) (names : List Bytes) (content : Bytes) :
    List Bytes → Option Shape :=
  Function.update (withDirectories plan names.dropLast) names (some (.file content))

/-! ## Plans with directories -/

theorem withDirectories_nil (plan : List Bytes → Option Shape) : withDirectories plan [] = plan := by
  funext names
  rw [withDirectories, if_neg]
  rintro ⟨hne, hlead⟩
  exact hne (List.prefix_nil.1 hlead)

theorem withDirectories_self (plan : List Bytes → Option Shape) (hne : names ≠ []) :
    withDirectories plan names names = some .directory := by
  rw [withDirectories, if_pos ⟨hne, List.prefix_refl names⟩]

/-- Behind the directories the plan is as it was. -/
theorem withDirectories_behind (plan : List Bytes → Option Shape) (names : List Bytes)
    (name : Bytes) : withDirectories plan names (names ++ [name]) = plan (names ++ [name]) := by
  rw [withDirectories, if_neg]
  rintro ⟨-, hlead⟩
  have hle := hlead.length_le
  simp at hle

/-- The last directory comes after those before it. -/
theorem withDirectories_concat (plan : List Bytes → Option Shape) (names : List Bytes)
    (name : Bytes) :
    withDirectories plan (names ++ [name]) =
      Function.update (withDirectories plan names) (names ++ [name]) (some .directory) := by
  funext names'
  by_cases hother : names' = names ++ [name]
  · rw [hother, Function.update_self, withDirectories_self plan (by simp)]
  · have hiff : names' <+: names ++ [name] ↔ names' <+: names :=
      List.prefix_concat_iff.trans (or_iff_right hother)
    rw [Function.update_of_ne hother, withDirectories, withDirectories]
    simp only [hiff]

/-- The plan may have the directories already. -/
theorem withDirectories_of_there
    (h : ∀ {front}, front ≠ [] → front <+: names → plan front = some .directory) :
    withDirectories plan names = plan := by
  funext names'
  unfold withDirectories
  split_ifs with hlead
  · exact (h hlead.1 hlead.2).symm
  · rfl

namespace Planted

variable (hdir : base.isDirectory d = true) (hempty : base.entries d = [])

include hdir hempty in
theorem refl : Planted base d (fun _ => none) base := by
  have hdesc : ∀ {names i}, base.descend d names = some i → names = [] ∧ i = d := by
    intro names i h
    cases names with
    | nil => exact ⟨rfl, (Option.some.inj h).symm⟩
    | cons name names =>
      rw [descend_cons, child?, hempty] at h
      cases h
  refine ⟨.refl base, fun _ _ => rfl, ?_, ?_, ?_, ?_⟩
  · intro names hne
    cases h : base.descend d names with
    | none => rw [shapeAt, h]; rfl
    | some i => exact absurd (hdesc h).1 hne
  · intro names names' i h h'
    rw [(hdesc h).1, (hdesc h').1]
  · intro names i h
    rw [(hdesc h).2]
    exact lt_size_of_isDirectory hdir
  · intro names i h
    rw [(hdesc h).2, hempty]
    exact List.nodup_nil

/-- Only what is reached matters of a plan, and that is never the directory itself. -/
theorem congr {plan' : List Bytes → Option Shape} (h : Planted base d plan fs)
    (heq : ∀ names, names ≠ [] → plan names = plan' names) : Planted base d plan' fs where
  extends_base := h.extends_base
  others := h.others
  shape hne := (h.shape hne).trans (heq _ hne)
  one_path := h.one_path
  lt_size := h.lt_size
  nodup_names := h.nodup_names

/-! ## What is reached -/

theorem exists_node (h : Planted base d plan fs) (hne : names ≠ [])
    (hdesc : fs.descend d names = some i) : ∃ n, fs.node? i = some n ∧ plan names = some n.shape := by
  have hnode := Array.getElem?_eq_getElem (h.lt_size hdesc)
  refine ⟨_, hnode, ?_⟩
  rw [← h.shape hne, shapeAt, hdesc, Option.bind_some]
  exact congrArg _ hnode

theorem descend_eq_none (h : Planted base d plan fs) (hne : names ≠ []) (hplan : plan names = none) :
    fs.descend d names = none := by
  cases hdesc : fs.descend d names with
  | none => rfl
  | some i =>
    obtain ⟨n, -, hn⟩ := h.exists_node hne hdesc
    rw [hplan] at hn
    cases hn

theorem plan_eq_none (h : Planted base d plan fs) (hne : names ≠ [])
    (hdesc : fs.descend d names = none) : plan names = none := by
  rw [← h.shape hne, shapeAt, hdesc]
  rfl

/-- Names that others go on behind stand for a directory, unless the plan has a file there. -/
theorem directory_of_descend {front : List Bytes} (h : Planted base d plan fs)
    (hdesc : fs.descend d names = some i) (hfront : front ≠ []) (hlead : front <+: names)
    (hplan : plan front = none ∨ plan front = some .directory) : plan front = some .directory := by
  obtain ⟨back, rfl⟩ := hlead
  refine hplan.resolve_left fun hnone => ?_
  rw [descend_append, h.descend_eq_none hfront hnone] at hdesc
  cases hdesc

include hdir in
/-- The directories of the plan are there. -/
theorem exists_directory (h : Planted base d plan fs)
    (hplan : names = [] ∨ plan names = some .directory) :
    ∃ e, fs.descend d names = some e ∧ fs.isDirectory e = true := by
  by_cases hne : names = []
  · rw [hne]
    exact ⟨d, rfl, h.extends_base.isDirectory hdir⟩
  · cases hdesc : fs.descend d names with
    | none =>
      rw [h.plan_eq_none hne hdesc] at hplan
      rcases hplan with hnil | hplan
      · exact absurd hnil hne
      · cases hplan
    | some i =>
      obtain ⟨n, hnode, hn⟩ := h.exists_node hne hdesc
      rw [hplan.resolve_left hne] at hn
      exact ⟨i, rfl, isDirectory_of_shape hnode (Option.some.inj hn).symm⟩

include hdir hempty in
theorem no_link (h : Planted base d plan fs) {target : Bytes}
    (hdesc : fs.descend d names = some i) : fs.node? i ≠ some (.link target) :=
  h.extends_base.no_link_of_descend hempty hdir hdesc

/-! ## Single changes -/

include hempty in
/-- A new node in a directory that is there. -/
theorem addNode (h : Planted base d plan fs) (hdesc : fs.descend d names = some e)
    (he : fs.isDirectory e = true) (hfree : fs.child? e name = none)
    (hlink : ∀ target, n ≠ .link target)
    (hn : ∀ parent entries, n = .directory parent entries → entries = []) :
    Planted base d (Function.update plan (names ++ [name]) (some n.shape))
      (fs.addNode e name n).2 := by
  obtain ⟨parent, entries, hnode⟩ := isDirectory_iff.1 he
  have hdescend := descend_addNode he hn hdesc (fun hdesc' => h.one_path hdesc' hdesc) hfree
  -- What is reached now was reached before, or it is the new node.
  have hcases : ∀ {names' i}, (fs.addNode e name n).2.descend d names' = some i →
      (names' = names ++ [name] ∧ i = fs.nodes.size)
        ∨ (names' ≠ names ++ [name] ∧ fs.descend d names' = some i ∧ i < fs.nodes.size) := by
    intro names' i h'
    rw [hdescend] at h'
    split_ifs at h' with hnames
    · exact .inl ⟨hnames, (Option.some.inj h').symm⟩
    · exact .inr ⟨hnames, h', h.lt_size h'⟩
  refine ⟨h.extends_base.trans (.addNode he hfree hlink hn), ?_, ?_, ?_, ?_, ?_⟩
  · intro i hi hid
    have hie : i ≠ e := by
      rintro rfl
      by_cases hnames : names = []
      · subst hnames
        cases hdesc
        exact hid rfl
      · exact Nat.not_lt.2 (h.extends_base.size_le_of_descend hempty hnames hdesc) hi
    rw [node?_addNode hnode, if_neg hie,
      if_neg (Nat.ne_of_lt (Nat.lt_of_lt_of_le hi h.extends_base.size_le)), h.others hi hid]
  · intro names' hne
    rw [shapeAt, hdescend]
    by_cases hnames : names' = names ++ [name]
    · rw [if_pos hnames, hnames, Function.update_self, Option.bind_some, node?_addNode_new he]
      rfl
    · rw [if_neg hnames, Function.update_of_ne hnames, ← h.shape hne, shapeAt]
      cases hdesc' : fs.descend d names' with
      | none => rfl
      | some i => exact shape_addNode he name n (h.lt_size hdesc')
  · intro names' names'' i h' h''
    rcases hcases h' with ⟨rfl, hi⟩ | ⟨-, hold, hi⟩ <;>
      rcases hcases h'' with ⟨rfl, hi'⟩ | ⟨-, hold', hi'⟩
    · rfl
    · exact absurd hi (Nat.ne_of_lt hi')
    · exact absurd hi' (Nat.ne_of_lt hi)
    · exact h.one_path hold hold'
  · intro names' i h'
    rw [size_addNode he]
    rcases hcases h' with ⟨-, rfl⟩ | ⟨-, -, hi⟩
    · exact Nat.lt_succ_self _
    · exact Nat.lt_succ_of_lt hi
  · intro names' i h'
    rcases hcases h' with ⟨-, rfl⟩ | ⟨-, hold, hi⟩
    · rw [entries_addNode_new he name hn]
      exact List.nodup_nil
    · exact nodup_addNode he name n hi (h.nodup_names hold)

include hempty in
/-- Another content for a file that is there. -/
theorem setFile (h : Planted base d plan fs) (hne : names ≠ [])
    (hdesc : fs.descend d names = some i) (hfile : fs.isFile i = true) (content : Bytes) :
    Planted base d (Function.update plan names (some (.file content)))
      (fs.setNode i (.file content)) := by
  have htable := node?_setNode fs (.file content) (lt_size_of_isFile hfile)
  have hdescend := descend_setFile hfile content
  refine ⟨h.extends_base.trans (.setFile hfile content), ?_, ?_, ?_, ?_, ?_⟩
  · intro j hj hjd
    have hji : j ≠ i := by
      rintro rfl
      exact Nat.not_lt.2 (h.extends_base.size_le_of_descend hempty hne hdesc) hj
    rw [htable, if_neg hji, h.others hj hjd]
  · intro names' hne'
    rw [shapeAt, hdescend]
    by_cases hnames : names' = names
    · rw [hnames, Function.update_self, hdesc, Option.bind_some, htable, if_pos rfl]
      rfl
    · rw [Function.update_of_ne hnames, ← h.shape hne', shapeAt]
      cases hdesc' : fs.descend d names' with
      | none => rfl
      | some j =>
        have hji : j ≠ i := by
          rintro rfl
          exact hnames (h.one_path hdesc' hdesc)
        rw [Option.bind_some, Option.bind_some, htable, if_neg hji]
  · intro names' names'' j h' h''
    rw [hdescend] at h' h''
    exact h.one_path h' h''
  · intro names' j h'
    rw [hdescend] at h'
    rw [size_setNode]
    exact h.lt_size h'
  · intro names' j h'
    rw [hdescend] at h'
    by_cases hji : j = i
    · rw [hji, FileSystem.entries, htable, if_pos rfl]
      exact List.nodup_nil
    · rw [FileSystem.entries, htable, if_neg hji]
      exact h.nodup_names h'

include hempty in
/-- Storing a content under a name that is free or stands for a file. -/
theorem store (h : Planted base d plan fs) (hdesc : fs.descend d names = some e)
    (he : fs.isDirectory e = true)
    (hfile : ∀ {i}, fs.child? e name = some i → fs.isFile i = true) (content : Bytes) :
    Planted base d (Function.update plan (names ++ [name]) (some (.file content)))
      (fs.store e name content) := by
  have hne : names ++ [name] ≠ [] := by simp
  have hconcat : ∀ {fs' : FileSystem}, fs'.descend d names = some e →
      fs'.descend d (names ++ [name]) = fs'.child? e name := by
    intro fs' hdesc'
    rw [descend_concat, hdesc', Option.bind_some]
  unfold FileSystem.store
  cases hchild : fs.child? e name with
  | some i => exact h.setFile hempty hne ((hconcat hdesc).trans hchild) (hfile hchild) content
  | none =>
    have hlink : ∀ target, Node.file [] ≠ .link target := by rintro target ⟨⟩
    have hdirectory : ∀ parent entries, Node.file [] = .directory parent entries → entries = [] := by
      rintro parent entries ⟨⟩
    have hadded := h.addNode hempty hdesc he hchild hlink hdirectory
    have hnew : (fs.addNode e name (.file [])).2.isFile fs.nodes.size = true :=
      isFile_iff.2 ⟨[], node?_addNode_new he name _⟩
    have hreached : (fs.addNode e name (.file [])).2.descend d (names ++ [name]) =
        some fs.nodes.size := by
      rw [descend_addNode he hdirectory hdesc (fun hdesc' => h.one_path hdesc' hdesc) hchild,
        if_pos rfl]
    have hstored := hadded.setFile hempty hne hreached hnew content
    rwa [Function.update_idem] at hstored

/-! ## Paths under the directory -/

section Under

variable {dir p : Path} (hfind : base.find dir = .ok d)

include hfind hdir hempty in
/-- The last name of a path is looked for in the directory of the others. -/
theorem resolve (h : Planted base d plan fs) (hp : Under dir p ((names ++ [name]).map .down))
    (hends : p.EndsInName) (haccepts : base.Accepts p)
    (hlen : ∀ x ∈ names ++ [name], x.length ≤ maxNameLength)
    (hplan : names = [] ∨ plan names = some .directory) :
    ∃ e left, fs.isDirectory e = true ∧ fs.descend d names = some e
      ∧ fs.descend d (names ++ [name]) = fs.child? e name ∧ name.length ≤ maxNameLength
      ∧ ∀ purpose, fs.resolve purpose p = (fs.walk purpose left e [.down name]).mapError .os := by
  obtain ⟨e, hdesc, he⟩ := h.exists_directory hdir hplan
  obtain ⟨left, hresolve⟩ := resolve_of_descend (h.extends_base.find hfind)
    (h.extends_base.isDirectory hdir) (h.no_link hdir hempty) hp hends
    (h.extends_base.accepts haccepts) hdesc he fun x hx => hlen x (List.mem_append_left _ hx)
  refine ⟨e, left, he, hdesc, ?_, hlen name (by simp), hresolve⟩
  rw [descend_concat, hdesc, Option.bind_some]

include hfind hdir hempty in
/-- Making a directory in one that is there. -/
theorem makeDir (h : Planted base d plan fs) (hp : Under dir p ((names ++ [name]).map .down))
    (hends : p.EndsInName) (haccepts : base.Accepts p)
    (hlen : ∀ x ∈ names ++ [name], x.length ≤ maxNameLength)
    (hplan : names = [] ∨ plan names = some .directory) (hfree : plan (names ++ [name]) = none) :
    ∃ fs', (makeDir p).exec fs = (.ok (), fs')
      ∧ Planted base d (Function.update plan (names ++ [name]) (some .directory)) fs' := by
  obtain ⟨e, left, he, hdesc, hlast, hshort, hresolve⟩ :=
    h.resolve hdir hempty hfind hp hends haccepts hlen hplan
  have hchild : fs.child? e name = none := by
    rw [← hlast]
    exact h.descend_eq_none (by simp) hfree
  have hplace := hresolve .place
  rw [walk_last_free he hshort hchild] at hplace
  refine ⟨(fs.addNode e name (.directory e [])).2, ?_, ?_⟩
  · rw [FileSystem.makeDir, exec_ofFn, hplace]
    simp [Except.mapError, Nat.not_lt.2 hshort, hchild]
  · refine h.addNode hempty (n := .directory e []) hdesc he hchild ?_ ?_
    · rintro target ⟨⟩
    · rintro parent entries ⟨⟩
      rfl

include hfind hdir hempty in
/-- A path to a directory of the plan leads there. -/
theorem find_directory (h : Planted base d plan fs)
    (hp : Under dir p ((names ++ [name]).map .down)) (hends : p.EndsInName)
    (haccepts : base.Accepts p) (hlen : ∀ x ∈ names ++ [name], x.length ≤ maxNameLength)
    (hplan : names = [] ∨ plan names = some .directory)
    (hmade : plan (names ++ [name]) = some .directory) :
    ∃ i, fs.find p = .ok i ∧ fs.isDirectory i = true := by
  obtain ⟨e, left, he, -, hlast, hshort, hresolve⟩ :=
    h.resolve hdir hempty hfind hp hends haccepts hlen hplan
  obtain ⟨i, hdesc, hi⟩ := h.exists_directory hdir (.inr hmade)
  have hnode := hresolve .find
  have hpurpose : Purpose.find ≠ .place := by decide
  rw [walk_last_node he hshort hpurpose (hlast.symm.trans hdesc)
    fun target => h.no_link hdir hempty hdesc] at hnode
  exact ⟨i, find_of_resolve_node hnode, hi⟩

include hfind hdir in
/-- A directory cannot be made where one before it is missing. -/
theorem makeDir_missing (h : Planted base d plan fs)
    (hp : Under dir p ((names ++ [name]).map .down)) (haccepts : base.Accepts p)
    (hdesc : fs.descend d names = none) (hlen : ∀ x ∈ names, x.length ≤ maxNameLength)
    (hplan : ∀ {front}, front ≠ [] → front <+: names →
      plan front = none ∨ plan front = some .directory) :
    (FileSystem.makeDir p).exec fs = (.error (.os .noEntry), fs) := by
  have hdirs : ∀ {front i}, front <+: names → fs.descend d front = some i →
      fs.isDirectory i = true := by
    intro front i hfront hdesc'
    by_cases hnil : front = []
    · subst hnil
      cases hdesc'
      exact h.extends_base.isDirectory hdir
    · obtain ⟨n, hnode, hn⟩ := h.exists_node hnil hdesc'
      have hdirectory := h.directory_of_descend hdesc' hnil (List.prefix_refl _) (hplan hnil hfront)
      rw [hn] at hdirectory
      exact isDirectory_of_shape hnode (Option.some.inj hdirectory)
  have hmissing : fs.resolve .place p = .error (.os .noEntry) := resolve_missing
    (h.extends_base.find hfind) (h.extends_base.isDirectory hdir) hp
    (h.extends_base.accepts haccepts) hdesc hlen hdirs
  rw [FileSystem.makeDir, exec_ofFn, hmissing]

include hfind hdir hempty in
/-- Making a directory with its parents, where no file stands in the way. -/
theorem makeDirs (h : Planted base d plan fs) (hp : Under dir p (names.map .down))
    (hends : names ≠ [] → p.EndsInName) (haccepts : base.Accepts p)
    (hlen : ∀ x ∈ names, x.length ≤ maxNameLength)
    (hplan : ∀ {front}, front ≠ [] → front <+: names →
      plan front = none ∨ plan front = some .directory) :
    ∃ fs', makeDirs p fs = (.ok (), fs') ∧ Planted base d (withDirectories plan names) fs' := by
  induction names using List.reverseRecOn generalizing p with
  | nil =>
    have hfind' : fs.find p = .ok d := hp.find (h.extends_base.find hfind)
      (h.extends_base.isDirectory hdir) (h.extends_base.accepts haccepts)
    refine ⟨fs, makeDirs_of_find hfind' (h.extends_base.isDirectory hdir), ?_⟩
    rwa [withDirectories_nil]
  | append_singleton names name ih =>
    have hne : names ++ [name] ≠ [] := by simp
    have hends' := hends hne
    have hlen' : ∀ x ∈ names, x.length ≤ maxNameLength :=
      fun x hx => hlen x (List.mem_append_left _ hx)
    have hplan' : ∀ {front}, front ≠ [] → front <+: names →
        plan front = none ∨ plan front = some .directory :=
      fun hfront hlead => hplan hfront (hlead.trans (List.prefix_append _ _))
    rw [withDirectories_concat]
    cases hdesc : fs.descend d names with
    | some e =>
      have hthere : ∀ {front}, front ≠ [] → front <+: names → plan front = some .directory :=
        fun hfront hlead => h.directory_of_descend hdesc hfront hlead (hplan' hfront hlead)
      have hparent : names = [] ∨ plan names = some .directory :=
        or_iff_not_imp_left.2 fun hnil => hthere hnil (List.prefix_refl names)
      rw [withDirectories_of_there hthere]
      rcases hplan hne (List.prefix_refl _) with hfree | hmade
      · obtain ⟨fs', hmake, hplanted⟩ :=
          h.makeDir hdir hempty hfind hp hends' haccepts hlen hparent hfree
        exact ⟨fs', makeDirs_of_ok haccepts.ne_nil hmake, hplanted⟩
      · obtain ⟨i, hfind', hi⟩ :=
          h.find_directory hdir hempty hfind hp hends' haccepts hlen hparent hmade
        refine ⟨fs, makeDirs_of_find hfind' hi, ?_⟩
        rwa [← hmade, Function.update_eq_self]
    | none =>
      -- So the parent is made first, which has names left.
      have hnames : names ≠ [] := by
        rintro rfl
        cases hdesc
      obtain ⟨q, hq, hq_nil, hq_under, hq_ends⟩ := hp.exists_parent
      have hq_ne := mt hq_nil hnames
      have hq_accepts := haccepts.of_prefix (Path.parent_front hq) hq_ne
      obtain ⟨fs₁, hmakeDirs, hplanted⟩ := ih (hq_under hq_ne) hq_ends hq_accepts hlen' hplan'
      have hfree : withDirectories plan names (names ++ [name]) = none := by
        rw [withDirectories_behind]
        refine h.plan_eq_none hne ?_
        rw [descend_concat, hdesc]
        rfl
      obtain ⟨fs', hmake, hplanted'⟩ := hplanted.makeDir hdir hempty hfind hp hends' haccepts hlen
        (.inr (withDirectories_self plan hnames)) hfree
      refine ⟨fs', ?_, hplanted'⟩
      rw [makeDirs_of_parent haccepts.ne_nil
        (h.makeDir_missing hdir hfind hp haccepts hdesc hlen' hplan') hq, hmakeDirs]
      dsimp only
      rw [hmake]

include hfind hdir hempty in
/-- Making the directories that a path goes through. -/
theorem makeParents (h : Planted base d plan fs) (hp : Under dir p ((names ++ [name]).map .down))
    (haccepts : base.Accepts p) (hlen : ∀ x ∈ names, x.length ≤ maxNameLength)
    (hplan : ∀ {front}, front ≠ [] → front <+: names →
      plan front = none ∨ plan front = some .directory) :
    ∃ fs', (Change.makeParents p).exec fs = (.ok (), fs')
      ∧ Planted base d (withDirectories plan names) fs' := by
  obtain ⟨q, hq, hq_nil, hq_under, hq_ends⟩ := hp.exists_parent
  have hexec : (Change.makeParents p).exec fs = FileSystem.makeDirs q fs := by
    rw [Change.makeParents, hq]
    rfl
  rw [hexec]
  by_cases hnil : q.bytes = []
  · refine ⟨fs, ?_, ?_⟩
    · rw [FileSystem.makeDirs, if_pos hnil]
    · rwa [hq_nil hnil, withDirectories_nil]
  · exact h.makeDirs hdir hempty hfind (hq_under hnil) hq_ends
      (haccepts.of_prefix (Path.parent_front hq) hnil) hlen hplan

include hfind hdir hempty in
/-- Writing a file in a directory that is there, where the plan has nothing or a file. -/
theorem writeFile (h : Planted base d plan fs) (hp : Under dir p ((names ++ [name]).map .down))
    (hends : p.EndsInName) (haccepts : base.Accepts p)
    (hlen : ∀ x ∈ names ++ [name], x.length ≤ maxNameLength)
    (hplan : names = [] ∨ plan names = some .directory)
    (hfile : plan (names ++ [name]) = none ∨
      ∃ content, plan (names ++ [name]) = some (.file content)) (content : Bytes) :
    ∃ fs', (writeFile p content).exec fs = (.ok (), fs')
      ∧ Planted base d (Function.update plan (names ++ [name]) (some (.file content))) fs' := by
  obtain ⟨e, left, he, hdesc, hlast, hshort, hresolve⟩ :=
    h.resolve hdir hempty hfind hp hends haccepts hlen hplan
  have hcreate := hresolve .create
  have hpurpose : Purpose.create ≠ .place := by decide
  have hisFile : ∀ {i}, fs.child? e name = some i → fs.isFile i = true := by
    intro i hchild
    obtain ⟨n, hnode, hn⟩ := h.exists_node (by simp) (hlast.trans hchild)
    rw [hn] at hfile
    obtain ⟨content', hcontent⟩ := hfile.resolve_left (Option.some_ne_none _)
    exact isFile_of_shape hnode (Option.some.inj hcontent)
  refine ⟨fs.store e name content, exec_writeFile_of_resolve he ?_ ?_ content,
    h.store hempty hdesc he hisFile content⟩
  · intro hchild
    rw [hcreate, walk_last_free he hshort hchild]
    rfl
  · intro i hchild
    refine ⟨hisFile hchild, ?_⟩
    rw [hcreate, walk_last_node he hshort hpurpose hchild
      fun target => h.no_link hdir hempty (hlast.trans hchild)]
    rfl

end Under

end Planted

end FileSystem

/-! ## Entries -/

open FileSystem

section Entries

variable {base fs : FileSystem} {d : NodeId} {dir relative : Path}
  {plan : List Bytes → Option Shape} (hne : dir.bytes ≠ []) (hfind : base.find dir = .ok d)
  (hdir : base.isDirectory d = true) (hempty : base.entries d = [])

include hne hfind hdir hempty in
/-- Writing a file with its directories, where the plan has no file on the way and no directory in its
place. -/
theorem FileSystem.Planted.writeBelow (h : Planted base d plan fs) (hstray : relative.stray? = none)
    (hbytes : relative.bytes ≠ []) (hends : relative.EndsInName)
    (haccepts : base.Accepts (dir.join relative))
    (hlen : ∀ x ∈ relative.names, x.length ≤ maxNameLength)
    (hplan : ∀ {front}, front ≠ [] → front <+: relative.names → front ≠ relative.names →
      plan front = none ∨ plan front = some .directory)
    (hfile : plan relative.names = none ∨ ∃ content, plan relative.names = some (.file content))
    (content : Bytes) (events : List Event) :
    ∃ fs', (writeBelow dir relative content).exec ⟨fs, events⟩ =
        (.ok (dir.join relative), ⟨fs', events⟩)
      ∧ Planted base d (withFile plan relative.names content) fs' := by
  have hnames := Path.names_ne_nil hstray hbytes
  have hunder : Under dir (dir.join relative) (relative.names.map .down) := by
    rw [← Path.moves_eq_names hstray]
    exact Under.join hne hstray
  have hends' := Path.endsInName_join (p := dir) hends hstray hbytes
  have hexec := exec_writeBelow_eq dir relative content ⟨fs, events⟩
  generalize dir.join relative = target at *
  obtain ⟨names, name, heq⟩ : ∃ names name, relative.names = names ++ [name] :=
    ⟨_, _, (List.dropLast_concat_getLast hnames).symm⟩
  rw [heq] at hunder hlen hplan hfile ⊢
  have hproper : ∀ {front}, front <+: names → front <+: names ++ [name] ∧ front ≠ names ++ [name] := by
    intro front hfront
    refine ⟨hfront.trans (List.prefix_append _ _), ?_⟩
    rintro rfl
    have hle := hfront.length_le
    simp at hle
  obtain ⟨fs₁, hparents, hplanted⟩ := h.makeParents hdir hempty hfind hunder haccepts
    (fun x hx => hlen x (List.mem_append_left _ hx))
    fun hfront hlead => hplan hfront (hproper hlead).1 (hproper hlead).2
  have hthere : names = [] ∨ withDirectories plan names names = some .directory :=
    or_iff_not_imp_left.2 fun hnil => withDirectories_self plan hnil
  rw [← withDirectories_behind plan names name] at hfile
  obtain ⟨fs₂, hwrite, hplanted'⟩ :=
    hplanted.writeFile hdir hempty hfind hunder hends' haccepts hlen hthere hfile content
  refine ⟨fs₂, ?_, ?_⟩
  · rw [hexec, hparents]
    dsimp only
    rw [hwrite]
  · rwa [withFile, List.dropLast_concat]

end Entries

end FlatArchive
