-- SUMMARY: What names lead to below a directory, one directory after the other.
import FlatArchive.Proofs.Growth
import FlatArchive.Proofs.Names

/-!
# Descents

From a directory, names lead down from one directory to the next. Where there are no links, a walk
whose moves are names is such a descent, however the path is spelled. So a path under the directory is
walked to the end by going down all its names but the last, and looking for that one there; and if a
directory is missing on the way, there is no such path.
-/

namespace FlatArchive.FileSystem

variable {fs fs' : FileSystem} {a d e i : NodeId} {name : Bytes} {names names' : List Bytes}
  {purpose : Purpose} {links left : Nat} {steps : List Step}

/-- The node that names lead to from a directory, links not followed. -/
def descend (fs : FileSystem) (d : NodeId) : List Bytes → Option NodeId
  | [] => some d
  | name :: names => (fs.child? d name).bind fun i => fs.descend i names

@[simp] theorem descend_nil (fs : FileSystem) (d : NodeId) : fs.descend d [] = some d := rfl

@[simp] theorem descend_cons (fs : FileSystem) (d : NodeId) (name : Bytes) (names : List Bytes) :
    fs.descend d (name :: names) = (fs.child? d name).bind fun i => fs.descend i names := rfl

theorem descend_append (fs : FileSystem) (d : NodeId) (names names' : List Bytes) :
    fs.descend d (names ++ names') = (fs.descend d names).bind fun i => fs.descend i names' := by
  induction names generalizing d with
  | nil => rfl
  | cons name names ih =>
    rw [List.cons_append, descend_cons, descend_cons, Option.bind_assoc]
    exact Option.bind_congr fun i _ => ih i

theorem descend_concat (fs : FileSystem) (d : NodeId) (names : List Bytes) (name : Bytes) :
    fs.descend d (names ++ [name]) = (fs.descend d names).bind fun i => fs.child? i name := by
  rw [descend_append]
  exact Option.bind_congr fun i _ => Option.bind_fun_some _

/-- Names that go on behind others pass through a directory. -/
theorem isDirectory_of_descend (h : fs.descend d names = some i) (hmore : names' ≠ [])
    (h' : fs.descend d (names ++ names') = some e) : fs.isDirectory i = true := by
  obtain ⟨name, rest, rfl⟩ := List.exists_cons_of_ne_nil hmore
  rw [descend_append, h, Option.bind_some, descend_cons] at h'
  obtain ⟨j, hchild, -⟩ := Option.bind_eq_some_iff.1 h'
  exact isDirectory_of_child? hchild

theorem Extends.descend (h : fs.Extends fs') (hdesc : fs.descend d names = some i) :
    fs'.descend d names = some i := by
  induction names generalizing d with
  | nil => exact hdesc
  | cons name names ih =>
    rw [descend_cons] at hdesc
    obtain ⟨j, hchild, hrest⟩ := Option.bind_eq_some_iff.1 hdesc
    rw [descend_cons, h.child hchild]
    exact ih hrest

section Empty

variable {base : FileSystem} (hempty : base.entries d = [])

include hempty in
/-- What names lead to below a directory that was empty is new. -/
theorem Extends.size_le_of_descend (h : base.Extends fs) (hne : names ≠ [])
    (hdesc : fs.descend d names = some i) : base.nodes.size ≤ i := by
  induction names using List.reverseRecOn generalizing i with
  | nil => exact absurd rfl hne
  | append_singleton names name ih =>
    rw [descend_concat] at hdesc
    obtain ⟨e, hfront, hchild⟩ := Option.bind_eq_some_iff.1 hdesc
    rcases h.child_or_new hchild with hold | ⟨-, hnew⟩
    · by_cases hnil : names = []
      · subst hnil
        cases hfront
        rw [child?, hempty] at hold
        cases hold
      · exact absurd (lt_size_of_isDirectory (isDirectory_of_child? hold))
          (Nat.not_lt.2 (ih hnil hfront))
    · exact hnew

include hempty in
/-- There are no links below a directory that was empty. -/
theorem Extends.no_link_of_descend (h : base.Extends fs) (hdir : base.isDirectory d = true)
    {target : Bytes} (hdesc : fs.descend d names = some i) : fs.node? i ≠ some (.link target) := by
  intro hlink
  have hbase := h.link.1 hlink
  by_cases hne : names = []
  · subst hne
    cases hdesc
    obtain ⟨parent, entries, hnode⟩ := isDirectory_iff.1 hdir
    rw [hnode] at hbase
    cases hbase
  · rw [node?_of_size_le (h.size_le_of_descend hempty hne hdesc)] at hbase
    cases hbase

end Empty

/-! ## Walks -/

/-- A descent along names that are not too long is a walk. -/
theorem walks_of_descend (h : fs.descend a names = some e)
    (hlen : ∀ name ∈ names, name.length ≤ maxNameLength)
    (hlink : ∀ {front i target}, fs.descend a front = some i → fs.node? i ≠ some (.link target)) :
    fs.Walks [] links a (names.map .down) e links := by
  induction names generalizing a with
  | nil =>
    cases h
    exact .stay
  | cons name names ih =>
    rw [descend_cons] at h
    obtain ⟨i, hchild, hrest⟩ := Option.bind_eq_some_iff.1 h
    have hone : fs.descend a [name] = some i := by rw [descend_cons, hchild]; rfl
    refine .enter (isDirectory_of_child? hchild) (hlen _ List.mem_cons_self) hchild
      (fun target => hlink hone) (ih hrest (fun n hn => hlen n (List.mem_cons_of_mem _ hn)) ?_)
    intro front j target hfront
    have hcons : fs.descend a (name :: front) = some j := by rw [descend_cons, hchild]; exact hfront
    exact hlink hcons

/-- A walk whose moves are names is a descent along them. -/
theorem Walks.descend (h : fs.Walks [] links a steps e left)
    (hmoves : Step.moves steps = names.map .down)
    (hlink : ∀ {front i target}, fs.descend a front = some i → fs.node? i ≠ some (.link target)) :
    fs.descend a names = some e := by
  induction h generalizing names with
  | stay =>
    have hnil : names = [] := List.map_eq_nil_iff.1 hmoves.symm
    rw [hnil]
    rfl
  | here _ _ ih => exact ih hmoves hlink
  | closing _ _ ih => exact ih hmoves hlink
  | up _ _ _ => cases names <;> cases hmoves
  | @enter links left a i d name steps _ _ hchild _ _ ih =>
    cases names with
    | nil => cases hmoves
    | cons name' names =>
      rw [Step.moves_down, List.map_cons] at hmoves
      obtain ⟨hhead, hrest⟩ := List.cons.inj hmoves
      cases hhead
      rw [descend_cons, hchild]
      refine ih hrest fun {front j target} hfront => ?_
      have hcons : fs.descend a (name :: front) = some j := by
        rw [descend_cons, hchild]
        exact hfront
      exact hlink hcons
  | @follow links left a i d name target steps _ _ hchild htarget _ _ _ =>
    have hone : fs.descend a [name] = some i := by rw [descend_cons, hchild]; rfl
    exact absurd htarget (hlink hone)

/-- A walk whose last step asks for a directory arrives at one. -/
theorem Walks.isDirectory_of_last (h : fs.Walks [] links a steps e left)
    (hlast : steps.getLast? = some .here ∨ steps.getLast? = some .closing) :
    fs.isDirectory e = true := by
  have hsteps : ∀ {step : Step} {steps : List Step},
      (step :: steps).getLast? = some .here ∨ (step :: steps).getLast? = some .closing →
        steps ≠ [] → steps.getLast? = some .here ∨ steps.getLast? = some .closing := by
    intro step steps hlast hne
    rwa [List.getLast?_cons_of_ne_nil hne] at hlast
  induction h with
  | stay => simp at hlast
  | @here links left a d steps hdir hnext ih =>
    by_cases hnil : steps = []
    · subst hnil
      cases hnext
      exact hdir
    · exact ih (hsteps hlast hnil)
  | @closing links left a d steps hdir hnext ih =>
    by_cases hnil : steps = []
    · subst hnil
      cases hnext
      exact hdir
    · exact ih (hsteps hlast hnil)
  | @up links left a d steps _ _ ih =>
    have hne : steps ≠ [] := by
      rintro rfl
      simp at hlast
    exact ih (hsteps hlast hne)
  | @enter links left a i d name steps _ _ _ _ _ ih =>
    have hne : steps ≠ [] := by
      rintro rfl
      simp at hlast
    exact ih (hsteps hlast hne)
  | @follow links left a i d name target steps _ _ _ _ _ _ ih =>
    have hne : steps ≠ [] := by
      rintro rfl
      simp at hlast
    have hlast' := hsteps hlast hne
    refine ih ?_
    rwa [List.getLast?_append_of_ne_nil _ hne]

/-- Where a directory is missing on the way to a name, there is no place for that name. -/
theorem walk_missing (hdir : fs.isDirectory a = true)
    (hmoves : Step.moves steps = (names ++ [name]).map .down) (h : fs.descend a names = none)
    (hlen : ∀ name ∈ names, name.length ≤ maxNameLength)
    (hdirs : ∀ {front i}, front <+: names → fs.descend a front = some i → fs.isDirectory i = true) :
    fs.walk purpose links a steps = .error .noEntry := by
  induction names generalizing a steps with
  | nil => cases h
  | cons first names ih =>
    rw [List.cons_append, List.map_cons] at hmoves
    obtain ⟨rests, others, rfl, hrests, hothers⟩ := Step.exists_of_moves_eq_cons hmoves
    have hmore : Step.noMore others = false := by
      rw [← Bool.not_eq_true, Step.noMore_iff]
      rintro (rfl | rfl) <;> simp at hothers
    have hmore' : Step.noMore (.down first :: others) = false := by
      rw [← Bool.not_eq_true, Step.noMore_iff]
      rintro (heq | heq) <;> cases heq
    have hrests_walks : fs.Walks [] links a rests a links := by
      rw [← List.append_nil rests]
      exact .of_moves_eq_nil hdir hrests
    rw [hrests_walks.walk_append (.inr hmore'),
      walk_down hdir (hlen _ List.mem_cons_self) (.inr hmore)]
    rw [descend_cons] at h
    cases hchild : fs.child? a first with
    | none =>
      dsimp only
      rw [hmore, if_neg Bool.false_ne_true]
    | some i =>
      rw [hchild, Option.bind_some] at h
      have hnext : ∀ {front j}, front <+: names → fs.descend i front = some j →
          fs.isDirectory j = true := by
        intro front j hfront hdesc
        have hcons : fs.descend a (first :: front) = some j := by
          rw [descend_cons, hchild]
          exact hdesc
        exact hdirs (List.cons_prefix_cons.2 ⟨rfl, hfront⟩) hcons
      have hi : fs.isDirectory i = true := hnext (List.nil_prefix) rfl
      obtain ⟨parent, entries, hnode⟩ := isDirectory_iff.1 hi
      dsimp only
      rw [hnode]
      exact ih hi hothers h (fun n hn => hlen n (List.mem_cons_of_mem _ hn)) hnext

/-! ## Paths under a directory -/

section Under

variable {dir p : Path} (hfind : fs.find dir = .ok d) (hdir : fs.isDirectory d = true)
  (hlink : ∀ {front i target}, fs.descend d front = some i → fs.node? i ≠ some (.link target))

include hfind hdir hlink in
/-- What a path under a directory leads to. -/
theorem descend_of_find (h : Under dir p (names.map .down)) (hne : names ≠ [])
    (hp : fs.find p = .ok i) :
    fs.descend d names = some i ∧ ∀ name ∈ names, name.length ≤ maxNameLength := by
  obtain ⟨front, back, left, -, hback, -, -, hgoes⟩ :=
    h.walks (by simpa using hne) hfind hdir
  obtain ⟨-, left', hwalks⟩ := find_eq_ok_iff.1 hp
  have hwalk := hwalks.walk_find
  rw [(hgoes (.refl fs)).2] at hwalk
  obtain ⟨left'', hrest⟩ := walks_of_walk_node hwalk
  refine ⟨hrest.descend hback hlink, ?_⟩
  intro name hname
  refine hrest.length_le_of_mem (List.mem_of_mem_filter (p := Step.isMove) ?_)
  rw [← Step.moves, hback]
  exact List.mem_map_of_mem hname

include hfind hdir hlink in
/-- A path that ends in a name is walked to the directory that the other names lead to. -/
theorem resolve_of_descend (h : Under dir p ((names ++ [name]).map .down)) (hends : p.EndsInName)
    (haccepts : fs.Accepts p) (hdesc : fs.descend d names = some e) (he : fs.isDirectory e = true)
    (hlen : ∀ name ∈ names, name.length ≤ maxNameLength) :
    ∃ left, ∀ purpose, fs.resolve purpose p =
      (fs.walk purpose left e [.down name]).mapError .os := by
  obtain ⟨front, back, left, hsteps, hback, -, -, hgoes⟩ := h.walks (by simp) hfind hdir
  obtain ⟨rest, hrest, -⟩ := Path.ofPath_of_endsInName hends
    (by rw [h.moves, List.map_append, ← List.append_assoc]; rfl)
  have hne : back ≠ [] := by
    rintro rfl
    simp at hback
  -- The last step is behind the directory, as there is at least that name to come.
  obtain ⟨init, hinit⟩ : ∃ init, back = init ++ [.down name] := by
    refine ⟨back.dropLast, ?_⟩
    have hlast : back.getLast hne = .down name := by
      have heq : (front ++ back).getLast? = (rest ++ [Step.down name]).getLast? := by
        rw [← hsteps, hrest]
      rw [List.getLast?_append_of_ne_nil _ hne, List.getLast?_concat,
        List.getLast?_eq_some_getLast hne] at heq
      exact Option.some.inj heq
    rw [← hlast, List.dropLast_append_getLast]
  subst hinit
  have hmoves : Step.moves init = names.map .down := by
    rw [Step.moves_append, List.map_append] at hback
    exact (List.append_inj' hback rfl).1
  have hwalks : fs.Walks [] left d init e left :=
    (walks_of_descend hdesc hlen hlink).of_moves_eq he
      (hmoves.trans (List.filter_eq_self.2 (by simp [Step.isMove])).symm)
  refine ⟨left, fun purpose => ?_⟩
  rw [haccepts.resolve, (hgoes (.refl fs)).2 purpose, hwalks.walk_append (.inr rfl)]

include hfind hdir in
/-- Where a directory is missing on the way to a path, there is no place for it. -/
theorem resolve_missing (h : Under dir p ((names ++ [name]).map .down)) (haccepts : fs.Accepts p)
    (hdesc : fs.descend d names = none) (hlen : ∀ name ∈ names, name.length ≤ maxNameLength)
    (hdirs : ∀ {front i}, front <+: names → fs.descend d front = some i →
      fs.isDirectory i = true) :
    fs.resolve purpose p = .error (.os .noEntry) := by
  obtain ⟨front, back, left, -, hback, -, -, hgoes⟩ := h.walks (by simp) hfind hdir
  rw [haccepts.resolve, (hgoes (.refl fs)).2 purpose, walk_missing hdir hback hdesc hlen hdirs]
  rfl

end Under

/-- The parent of a path has the same names but the last. It is empty only if there are no others. -/
theorem Under.exists_parent {dir p : Path} (h : Under dir p ((names ++ [name]).map .down)) :
    ∃ q, p.parent = some q ∧ (q.bytes = [] → names = [])
      ∧ (q.bytes ≠ [] → Under dir q (names.map .down)) ∧ (names ≠ [] → q.EndsInName) := by
  obtain ⟨q, hq⟩ : ∃ q, p.parent = some q := Path.exists_parent (by rw [h.moves]; simp)
  have hmoves : q.moves = dir.moves ++ names.map .down := by
    rw [Path.moves_parent hq, h.moves, List.map_append, ← List.append_assoc]
    exact List.dropLast_concat
  refine ⟨q, hq, ?_, ?_, ?_⟩
  · intro hnil
    obtain ⟨bs⟩ := q
    simp only at hnil
    subst hnil
    simpa using (List.append_eq_nil_iff.1 hmoves.symm).2
  · intro hne
    exact ⟨(Path.isAbsolute_parent hq hne).trans h.isAbsolute, hmoves, by simp⟩
  · intro hnames
    exact Path.endsInName_parent hq (by rw [hmoves]; simp [hnames])

end FlatArchive.FileSystem
