-- SUMMARY: Walks that arrive at a node, as a relation, and what goes on from there.
import FlatArchive.Proofs.Moves

/-!
# Walks

A walk is a derivation: each of its steps moves on to a directory, a child or the target of a link,
and the links that may still be followed are counted down. It arrives at a node when no steps are
left, or at a directory in which the last name has its place. A walk can be gone on from where it is
(`Walks.walk_eq`), one that arrives depends on the moves of its steps only (`Walks.of_moves_eq`), and
the place that its steps lead to is taken (`Walks.place`).
-/

namespace FlatArchive

namespace Step

theorem noMore_iff {steps : List Step} : noMore steps = true ↔ steps = [] ∨ steps = [.closing] := by
  simp [noMore]

theorem noMore_append {rest : List Step} (h : noMore rest = false) (steps : List Step) :
    noMore (steps ++ rest) = false := by
  rw [← Bool.not_eq_true, noMore_iff, not_or] at h ⊢
  obtain ⟨hnil, hclosing⟩ := h
  refine ⟨fun happ => hnil (List.append_eq_nil_iff.1 happ).2, fun happ => ?_⟩
  rcases List.append_eq_singleton_iff.1 happ with ⟨-, hrest⟩ | ⟨-, hrest⟩
  · exact hclosing hrest
  · exact hnil hrest

end Step

namespace FileSystem

/-- From node `a`, with `links` links to follow, the steps come to node `d`, with `left` links to
follow and the steps `rest` still to be walked. -/
inductive Walks (fs : FileSystem) (rest : List Step) :
    (links : Nat) → (a : NodeId) → List Step → (d : NodeId) → (left : Nat) → Prop where
  | stay {links : Nat} {a : NodeId} : Walks fs rest links a rest a links
  | here {links left : Nat} {a d : NodeId} {steps : List Step} (directory : fs.isDirectory a = true)
      (next : Walks fs rest links a steps d left) : Walks fs rest links a (.here :: steps) d left
  | closing {links left : Nat} {a d : NodeId} {steps : List Step}
      (directory : fs.isDirectory a = true) (next : Walks fs rest links a steps d left) :
      Walks fs rest links a (.closing :: steps) d left
  | up {links left : Nat} {a d : NodeId} {steps : List Step} (directory : fs.isDirectory a = true)
      (next : Walks fs rest links (fs.parentOf a) steps d left) :
      Walks fs rest links a (.up :: steps) d left
  | enter {links left : Nat} {a i d : NodeId} {name : Bytes} {steps : List Step}
      (directory : fs.isDirectory a = true) (length_le : name.length ≤ maxNameLength)
      (child : fs.child? a name = some i) (not_link : ∀ target, fs.node? i ≠ some (.link target))
      (next : Walks fs rest links i steps d left) :
      Walks fs rest links a (.down name :: steps) d left
  | follow {links left : Nat} {a i d : NodeId} {name target : Bytes} {steps : List Step}
      (directory : fs.isDirectory a = true) (length_le : name.length ≤ maxNameLength)
      (child : fs.child? a name = some i) (link : fs.node? i = some (.link target))
      (target_ne : target ≠ [])
      (next : Walks fs rest links (fs.start a ⟨target⟩) (Step.ofPath ⟨target⟩ ++ steps) d left) :
      Walks fs rest (links + 1) a (.down name :: steps) d left

variable {fs : FileSystem} {purpose : Purpose} {links left : Nat} {a d : NodeId}
  {steps rest : List Step}

/-! ## Single steps -/

theorem walk_here (hdir : fs.isDirectory a = true) (rest : List Step) :
    fs.walk purpose links a (.here :: rest) = fs.walk purpose links a rest := by
  rw [walk, hdir, Bool.not_true, if_neg Bool.false_ne_true]

theorem walk_closing (hdir : fs.isDirectory a = true) (rest : List Step) :
    fs.walk purpose links a (.closing :: rest) = fs.walk purpose links a rest := by
  rw [walk, hdir, Bool.not_true, if_neg Bool.false_ne_true]

theorem walk_up (hdir : fs.isDirectory a = true) (rest : List Step) :
    fs.walk purpose links a (.up :: rest) = fs.walk purpose links (fs.parentOf a) rest := by
  rw [walk, hdir, Bool.not_true, if_neg Bool.false_ne_true]

/-- The step to a name that is looked up. -/
theorem walk_name {name : Bytes} {rest : List Step} (hdir : fs.isDirectory a = true)
    (hlen : name.length ≤ maxNameLength) (hplace : ¬(purpose = .place ∧ Step.noMore rest = true))
    (hcreate : ¬(purpose = .create ∧ rest = [.closing])) :
    fs.walk purpose links a (.down name :: rest) =
      match fs.child? a name with
      | none => if Step.noMore rest then .ok (.slot a name) else .error .noEntry
      | some i =>
        match fs.node? i with
        | some (.link target) =>
          match links with
          | 0 => .error .tooManyLinks
          | links + 1 =>
            if target = [] then .error .noEntry
            else fs.walk purpose links (fs.start a ⟨target⟩) (Step.ofPath ⟨target⟩ ++ rest)
        | _ => fs.walk purpose links i rest := by
  rw [walk, hdir, Bool.not_true, if_neg Bool.false_ne_true, if_neg hplace, if_neg hcreate]
  exact if_neg (Nat.not_lt.2 hlen)

/-- The step to a name that is not the last one, or that is to be found. -/
theorem walk_down {name : Bytes} {rest : List Step} (hdir : fs.isDirectory a = true)
    (hlen : name.length ≤ maxNameLength) (hmore : purpose = .find ∨ Step.noMore rest = false) :
    fs.walk purpose links a (.down name :: rest) =
      match fs.child? a name with
      | none => if Step.noMore rest then .ok (.slot a name) else .error .noEntry
      | some i =>
        match fs.node? i with
        | some (.link target) =>
          match links with
          | 0 => .error .tooManyLinks
          | links + 1 =>
            if target = [] then .error .noEntry
            else fs.walk purpose links (fs.start a ⟨target⟩) (Step.ofPath ⟨target⟩ ++ rest)
        | _ => fs.walk purpose links i rest := by
  have hplace : ¬(purpose = .place ∧ Step.noMore rest = true) := by
    rintro ⟨rfl, hend⟩
    rcases hmore with hfind | hmore
    · cases hfind
    · rw [hmore] at hend
      cases hend
  have hcreate : ¬(purpose = .create ∧ rest = [.closing]) := by
    rintro ⟨rfl, rfl⟩
    rcases hmore with hfind | hmore
    · cases hfind
    · cases hmore
  exact walk_name hdir hlen hplace hcreate

/-- A place is where the last name is, whatever has it. -/
theorem walk_place_last {name : Bytes} {rest : List Step} (hdir : fs.isDirectory a = true)
    (hend : Step.noMore rest = true) :
    fs.walk .place links a (.down name :: rest) = .ok (.slot a name) := by
  rw [walk, hdir, Bool.not_true, if_neg Bool.false_ne_true, if_pos ⟨rfl, hend⟩]

/-- A last name that is free is a place, whatever the walk is for. -/
theorem walk_last_free {name : Bytes} (hdir : fs.isDirectory a = true)
    (hlen : name.length ≤ maxNameLength) (hchild : fs.child? a name = none) :
    fs.walk purpose links a [.down name] = .ok (.slot a name) := by
  rw [walk, hdir]
  simp [Nat.not_lt.2 hlen, hchild, Step.noMore]

/-- A last name that stands for a node that is no link leads to it. -/
theorem walk_last_node {name : Bytes} {i : NodeId} (hdir : fs.isDirectory a = true)
    (hlen : name.length ≤ maxNameLength) (hpurpose : purpose ≠ .place)
    (hchild : fs.child? a name = some i) (hlink : ∀ target, fs.node? i ≠ some (.link target)) :
    fs.walk purpose links a [.down name] = .ok (.node i) := by
  rw [walk, hdir, Bool.not_true, if_neg Bool.false_ne_true, if_neg fun h => hpurpose h.1,
    if_neg fun h => List.cons_ne_nil _ _ h.2.symm, if_neg (Nat.not_lt.2 hlen), hchild]
  dsimp only
  split
  · next target heq => exact absurd heq (hlink target)
  · rw [walk]

/-- A walk depends on which nodes are directories or links, and on the names. -/
theorem walk_congr {fs' : FileSystem} (hroot : fs'.root = fs.root)
    (hdir : ∀ i, fs'.isDirectory i = fs.isDirectory i)
    (hparent : ∀ i, fs'.parentOf i = fs.parentOf i)
    (hchild : ∀ i name, fs'.child? i name = fs.child? i name)
    (hlink : ∀ i target, fs'.node? i = some (.link target) ↔ fs.node? i = some (.link target))
    (purpose : Purpose) (links : Nat) (a : NodeId) (steps : List Step) :
    fs'.walk purpose links a steps = fs.walk purpose links a steps := by
  have hstart : ∀ a p, fs'.start a p = fs.start a p := by
    intro a p
    rw [start, start, hroot]
  fun_induction walk fs purpose links a steps
  case case1 => rw [walk]
  case case2 hd =>
    rw [walk.eq_def]
    dsimp only
    rw [hdir, if_pos hd]
  case case3 hd ih => rw [walk, hdir, if_neg hd, ih]
  case case4 hd ih => rw [walk, hdir, if_neg hd, ih]
  case case5 hd ih => rw [walk, hdir, if_neg hd, hparent, ih]
  case case6 hd name hplace => rw [walk, hdir, if_neg hd, if_pos hplace]
  case case7 hd name hplace hcreate => rw [walk, hdir, if_neg hd, if_neg hplace, if_pos hcreate]
  case case8 hd name hplace hcreate hlen =>
    rw [walk, hdir, if_neg hd, if_neg hplace, if_neg hcreate, if_pos hlen]
  case case9 hd name hplace hcreate hlen hi hend =>
    rw [walk, hdir, if_neg hd, if_neg hplace, if_neg hcreate, if_neg hlen, hchild, hi]
    exact if_pos hend
  case case10 hd name hplace hcreate hlen hi hend =>
    rw [walk, hdir, if_neg hd, if_neg hplace, if_neg hcreate, if_neg hlen, hchild, hi]
    exact if_neg hend
  case case11 hd name hplace hcreate hlen i hi target hnode =>
    rw [walk, hdir, if_neg hd, if_neg hplace, if_neg hcreate, if_neg hlen, hchild, hi]
    dsimp only
    rw [(hlink i target).2 hnode]
  case case12 hd name hplace hcreate hlen i hi links hnode =>
    rw [walk, hdir, if_neg hd, if_neg hplace, if_neg hcreate, if_neg hlen, hchild, hi]
    dsimp only
    rw [(hlink i []).2 hnode]
    exact if_pos rfl
  case case13 hd name hplace hcreate hlen i hi target hnode links htarget ih =>
    rw [walk, hdir, if_neg hd, if_neg hplace, if_neg hcreate, if_neg hlen, hchild, hi]
    dsimp only
    rw [(hlink i target).2 hnode]
    dsimp only
    rw [if_neg htarget, hstart, ih]
  case case14 hd name hplace hcreate hlen i hi hnot ih =>
    rw [walk, hdir, if_neg hd, if_neg hplace, if_neg hcreate, if_neg hlen, hchild, hi]
    dsimp only
    split
    · next target heq => exact absurd ((hlink i target).1 heq) (hnot target)
    · exact ih

/-! ## Walks -/

/-- Whatever a path is walked for, a walk that ends at a node arrives there. -/
theorem walks_of_walk_node (h : fs.walk purpose links a steps = .ok (.node d)) :
    ∃ left, fs.Walks [] links a steps d left := by
  fun_induction walk fs purpose links a steps
  case case1 links a =>
    cases h
    exact ⟨links, .stay⟩
  case case3 links a steps hdir ih =>
    exact (ih h).imp fun _ => .here (by simpa using hdir)
  case case4 links a steps hdir ih =>
    exact (ih h).imp fun _ => .closing (by simpa using hdir)
  case case5 links a steps hdir ih =>
    exact (ih h).imp fun _ => .up (by simpa using hdir)
  case case13 a steps hdir name _ _ hlen i hchild target hlink links htarget ih =>
    exact (ih h).imp fun _ =>
      .follow (by simpa using hdir) (Nat.le_of_not_lt hlen) hchild hlink htarget
  case case14 links a steps hdir name _ _ hlen i hchild hlink ih =>
    exact (ih h).imp fun _ => .enter (by simpa using hdir) (Nat.le_of_not_lt hlen) hchild hlink
  all_goals cases h

/-- A walk that ends at a place comes to its directory, with the name and perhaps a closing slash
still to be walked. The name is free unless only its place was asked for. -/
theorem walks_of_walk_slot {name : Bytes} (h : fs.walk purpose links a steps = .ok (.slot d name)) :
    fs.isDirectory d = true
      ∧ (purpose ≠ .place → fs.child? d name = none ∧ name.length ≤ maxNameLength)
      ∧ ∃ rest left, fs.Walks (.down name :: rest) links a steps d left
        ∧ (rest = [] ∨ rest = [.closing] ∧ purpose ≠ .create) := by
  fun_induction walk fs purpose links a steps
  case case3 links a steps hdir ih =>
    obtain ⟨hd, hfree, rest, left, hwalks, hrest⟩ := ih h
    exact ⟨hd, hfree, rest, left, .here (by simpa using hdir) hwalks, hrest⟩
  case case4 links a steps hdir ih =>
    obtain ⟨hd, hfree, rest, left, hwalks, hrest⟩ := ih h
    exact ⟨hd, hfree, rest, left, .closing (by simpa using hdir) hwalks, hrest⟩
  case case5 links a steps hdir ih =>
    obtain ⟨hd, hfree, rest, left, hwalks, hrest⟩ := ih h
    exact ⟨hd, hfree, rest, left, .up (by simpa using hdir) hwalks, hrest⟩
  case case6 links a steps hdir name hplace =>
    cases h
    obtain ⟨rfl, hend⟩ := hplace
    exact ⟨by simpa using hdir, fun hne => absurd rfl hne, steps, links, .stay,
      (Step.noMore_iff.1 hend).imp_right fun hrest => ⟨hrest, nofun⟩⟩
  case case9 links a steps hdir name hplace hcreate hlen hchild hend =>
    cases h
    exact ⟨by simpa using hdir, fun _ => ⟨hchild, Nat.le_of_not_lt hlen⟩, steps, links, .stay,
      (Step.noMore_iff.1 hend).imp_right fun hrest => ⟨hrest, fun hp => hcreate ⟨hp, hrest⟩⟩⟩
  case case13 a steps hdir name _ _ hlen i hchild target hlink links htarget ih =>
    obtain ⟨hd, hfree, rest, left, hwalks, hrest⟩ := ih h
    have hle := Nat.le_of_not_lt hlen
    exact ⟨hd, hfree, rest, left, .follow (by simpa using hdir) hle hchild hlink htarget hwalks, hrest⟩
  case case14 links a steps hdir name _ _ hlen i hchild hlink ih =>
    obtain ⟨hd, hfree, rest, left, hwalks, hrest⟩ := ih h
    have hle := Nat.le_of_not_lt hlen
    exact ⟨hd, hfree, rest, left, .enter (by simpa using hdir) hle hchild hlink hwalks, hrest⟩
  all_goals cases h

namespace Walks

/-- A walk that arrives is gone on from there. Only the last name of a path depends on the purpose,
so there must be more to come, unless a node is to be found. -/
theorem walk_append (h : fs.Walks [] links a steps d left)
    (hmore : purpose = .find ∨ Step.noMore rest = false) :
    fs.walk purpose links a (steps ++ rest) = fs.walk purpose left d rest := by
  have hmore_append : ∀ steps', purpose = .find ∨ Step.noMore (steps' ++ rest) = false :=
    fun steps' => hmore.imp_right fun hrest => Step.noMore_append hrest steps'
  induction h with
  | stay => rfl
  | here hdir _ ih =>
    rw [List.cons_append, walk_here hdir, ih]
  | closing hdir _ ih =>
    rw [List.cons_append, walk_closing hdir, ih]
  | up hdir _ ih =>
    rw [List.cons_append, walk_up hdir, ih]
  | enter hdir hlen hchild hlink _ ih =>
    rw [List.cons_append, walk_down hdir hlen (hmore_append _), hchild]
    split
    · next heq =>
      cases heq
    · next heq =>
      cases heq
      split
      · next target heq => exact absurd heq (hlink target)
      · exact ih
  | follow hdir hlen hchild hlink htarget _ ih =>
    rw [List.cons_append, walk_down hdir hlen (hmore_append _), hchild]
    dsimp only
    rw [hlink]
    dsimp only
    rw [if_neg htarget, ← List.append_assoc, ih]

theorem walk_find (h : fs.Walks [] links a steps d left) :
    fs.walk .find links a steps = .ok (.node d) := by
  have hwalk : fs.walk .find links a (steps ++ []) = fs.walk .find left d [] :=
    h.walk_append (.inl rfl)
  rw [List.append_nil] at hwalk
  rw [hwalk, walk]

/-- What is to be walked behind the steps is to be walked behind the rest. -/
theorem append (h : fs.Walks rest links a steps d left) (more : List Step) :
    fs.Walks (rest ++ more) links a (steps ++ more) d left := by
  induction h with
  | stay => exact .stay
  | here hdir _ ih => exact .here hdir ih
  | closing hdir _ ih => exact .closing hdir ih
  | up hdir _ ih => exact .up hdir ih
  | enter hdir hlen hchild hlink _ ih => exact .enter hdir hlen hchild hlink ih
  | follow hdir hlen hchild hlink htarget _ ih =>
    rw [List.append_assoc] at ih
    exact .follow hdir hlen hchild hlink htarget ih

theorem trans {d' : NodeId} {left' : Nat} {rest' : List Step}
    (h : fs.Walks rest links a steps d left) (h' : fs.Walks rest' left d rest d' left') :
    fs.Walks rest' links a steps d' left' := by
  induction h with
  | stay => exact h'
  | here hdir _ ih => exact .here hdir (ih h')
  | closing hdir _ ih => exact .closing hdir (ih h')
  | up hdir _ ih => exact .up hdir (ih h')
  | enter hdir hlen hchild hlink _ ih => exact .enter hdir hlen hchild hlink (ih h')
  | follow hdir hlen hchild hlink htarget _ ih =>
    exact .follow hdir hlen hchild hlink htarget (ih h')

/-- Steps that lead nowhere stay in a directory. -/
theorem of_moves_eq_nil (hdir : fs.isDirectory a = true) (h : Step.moves steps = []) :
    fs.Walks rest links a (steps ++ rest) a links := by
  induction steps with
  | nil => exact .stay
  | cons step steps ih =>
    cases step with
    | here => exact .here hdir (ih h)
    | closing => exact .closing hdir (ih h)
    | up => cases h
    | down name => cases h

/-- Steps with the same moves arrive at the same directory. -/
theorem of_moves_eq (h : fs.Walks [] links a steps d left) (hdir : fs.isDirectory d = true)
    {steps' : List Step} (hmoves : Step.moves steps' = Step.moves steps) :
    fs.Walks [] links a steps' d left := by
  induction h generalizing steps' with
  | stay =>
    rw [← List.append_nil steps']
    exact of_moves_eq_nil hdir hmoves
  | here _ _ ih => exact ih hdir hmoves
  | closing _ _ ih => exact ih hdir hmoves
  | up ha _ ih =>
    obtain ⟨rests, others, rfl, hrests, hothers⟩ := Step.exists_of_moves_eq_cons hmoves
    exact (of_moves_eq_nil ha hrests).trans (.up ha (ih hdir hothers))
  | enter ha hlen hchild hlink _ ih =>
    obtain ⟨rests, others, rfl, hrests, hothers⟩ := Step.exists_of_moves_eq_cons hmoves
    exact (of_moves_eq_nil ha hrests).trans (.enter ha hlen hchild hlink (ih hdir hothers))
  | follow ha hlen hchild hlink htarget _ ih =>
    obtain ⟨rests, others, rfl, hrests, hothers⟩ := Step.exists_of_moves_eq_cons hmoves
    refine (of_moves_eq_nil ha hrests).trans (.follow ha hlen hchild hlink htarget (ih hdir ?_))
    rw [Step.moves_append, Step.moves_append]
    exact congrArg _ hothers

/-- A walk that never goes up stays in a region without links that holds the children of its
directories. -/
theorem region {R : NodeId → Prop} (h : fs.Walks rest links a steps d left)
    (hchild : ∀ {a name i}, R a → fs.child? a name = some i → R i)
    (hlink : ∀ {i target}, R i → fs.node? i ≠ some (.link target)) (hup : .up ∉ steps) (ha : R a) :
    R d := by
  induction h with
  | stay => exact ha
  | here _ _ ih => exact ih (fun hmem => hup (List.mem_cons_of_mem _ hmem)) ha
  | closing _ _ ih => exact ih (fun hmem => hup (List.mem_cons_of_mem _ hmem)) ha
  | up => exact absurd List.mem_cons_self hup
  | enter _ _ hi _ _ ih =>
    exact ih (fun hmem => hup (List.mem_cons_of_mem _ hmem)) (hchild ha hi)
  | follow _ _ hi htarget => exact absurd htarget (hlink (hchild ha hi))

/-- The names on a walk that arrives are no longer than names may be. -/
theorem length_le_of_mem (h : fs.Walks [] links a steps d left) {name : Bytes}
    (hmem : .down name ∈ steps) : name.length ≤ maxNameLength := by
  induction h with
  | stay => cases hmem
  | here _ _ ih => exact ih (by simpa using hmem)
  | closing _ _ ih => exact ih (by simpa using hmem)
  | up _ _ ih => exact ih (by simpa using hmem)
  | enter _ hlen _ _ _ ih =>
    rcases List.mem_cons.1 hmem with heq | hmem
    · cases heq
      exact hlen
    · exact ih hmem
  | follow _ hlen _ _ _ _ ih =>
    rcases List.mem_cons.1 hmem with heq | hmem
    · cases heq
      exact hlen
    · exact ih (List.mem_append_right _ hmem)

/-- Where a walk arrives, the place of its last name is taken. -/
theorem place (h : fs.Walks [] links a steps d left) :
    (∃ e, fs.walk .place links a steps = .ok (.node e)) ∨
      ∃ e name i, fs.walk .place links a steps = .ok (.slot e name) ∧ fs.child? e name = some i
        ∧ name.length ≤ maxNameLength := by
  induction h with
  | @stay links a => exact .inl ⟨a, by rw [walk]⟩
  | here hdir _ ih => rwa [walk_here hdir]
  | closing hdir _ ih => rwa [walk_closing hdir]
  | up hdir _ ih => rwa [walk_up hdir]
  | @enter links left a i d name steps hdir hlen hchild hlink _ ih =>
    cases hmore : Step.noMore steps with
    | true => exact .inr ⟨a, name, i, walk_place_last hdir hmore, hchild, hlen⟩
    | false =>
      have hstep : fs.Walks [] links a [.down name] i links :=
        .enter hdir hlen hchild hlink .stay
      have hwalk : fs.walk .place links a ([.down name] ++ steps) = fs.walk .place links i steps :=
        hstep.walk_append (.inr hmore)
      rw [List.singleton_append] at hwalk
      rwa [hwalk]
  | @follow links left a i d name target steps hdir hlen hchild hlink htarget _ ih =>
    cases hmore : Step.noMore steps with
    | true => exact .inr ⟨a, name, i, walk_place_last hdir hmore, hchild, hlen⟩
    | false =>
      rw [walk_down hdir hlen (.inr hmore), hchild]
      dsimp only
      rw [hlink]
      dsimp only
      rwa [if_neg htarget]

end Walks

/-! ## Walks to a file that is to be written -/

/-- With a slash at the end a walk arrives at a directory. -/
theorem Walks.isDirectory_of_closing (h : fs.Walks [] links a steps d left)
    (hlast : steps.getLast? = some .closing) : fs.isDirectory d = true := by
  have hrest : ∀ {step : Step} {steps : List Step}, (step :: steps).getLast? = some .closing →
      step ≠ .closing → steps.getLast? = some .closing := by
    intro step steps hlast hstep
    cases steps with
    | nil => exact absurd (Option.some.inj hlast) hstep
    | cons next steps => rwa [List.getLast?_cons_cons] at hlast
  induction h with
  | stay => cases hlast
  | here _ _ ih => exact ih (hrest hlast nofun)
  | @closing links left a d steps hdir hnext ih =>
    cases steps with
    | nil =>
      cases hnext
      exact hdir
    | cons next steps => exact ih (by rwa [List.getLast?_cons_cons] at hlast)
  | up _ _ ih => exact ih (hrest hlast nofun)
  | enter _ _ _ _ _ ih => exact ih (hrest hlast nofun)
  | follow _ _ _ _ _ _ ih =>
    refine ih ?_
    rw [List.getLast?_append, hrest hlast nofun]
    rfl

/-- A walk that arrives at what is no directory arrives there too if a file is to be written. -/
theorem Walks.walk_create (h : fs.Walks [] links a steps d left) (hnot : fs.isDirectory d = false) :
    fs.walk .create links a steps = .ok (.node d) := by
  have hopen : ∀ {links left : Nat} {a : NodeId} {name : Bytes} {steps : List Step},
      fs.Walks [] links a (.down name :: steps) d left →
        ¬(Purpose.create = .create ∧ steps = [.closing]) := by
    rintro links left a name _ hwalks ⟨-, rfl⟩
    rw [hwalks.isDirectory_of_closing rfl] at hnot
    cases hnot
  have hplace : ∀ {steps : List Step}, ¬(Purpose.create = .place ∧ Step.noMore steps = true) := nofun
  induction h with
  | stay => rw [walk]
  | here hdir _ ih => rw [walk_here hdir, ih hnot hopen]
  | closing hdir _ ih => rw [walk_closing hdir, ih hnot hopen]
  | up hdir _ ih => rw [walk_up hdir, ih hnot hopen]
  | enter hdir hlen hchild hlink hnext ih =>
    rw [walk_name hdir hlen hplace (hopen (.enter hdir hlen hchild hlink hnext)), hchild]
    dsimp only
    split
    · next target heq => exact absurd heq (hlink target)
    · exact ih hnot hopen
  | follow hdir hlen hchild hlink htarget hnext ih =>
    rw [walk_name hdir hlen hplace (hopen (.follow hdir hlen hchild hlink htarget hnext)), hchild]
    dsimp only
    rw [hlink]
    dsimp only
    rw [if_neg htarget]
    exact ih hnot hopen

/-! ## Paths -/

/-- The path can be handed to the operating system at all. -/
structure Accepts (fs : FileSystem) (p : Path) : Prop where
  zero_notMem : 0 ∉ p.bytes
  ne_nil : p.bytes ≠ []
  within_limit : fs.pathLimit.any (· ≤ p.bytes.length) = false

variable {p q : Path} {spot : Spot} {i : NodeId}

theorem Accepts.resolve (h : fs.Accepts p) : fs.resolve purpose p =
    (fs.walk purpose maxLinks (fs.start fs.cwd p) (Step.ofPath p)).mapError .os := by
  rw [FileSystem.resolve, if_neg (by simpa using h.zero_notMem), if_neg h.ne_nil,
    if_neg (by simp [h.within_limit])]
  cases fs.walk purpose maxLinks (fs.start fs.cwd p) (Step.ofPath p) <;> rfl

theorem Accepts.of_prefix (h : fs.Accepts p) (hfront : q.bytes <+: p.bytes)
    (hne : q.bytes ≠ []) : fs.Accepts q where
  zero_notMem hmem := h.zero_notMem (hfront.subset hmem)
  ne_nil := hne
  within_limit := by
    have hlen := hfront.length_le
    have hlimit := h.within_limit
    cases hbound : fs.pathLimit with
    | none => rfl
    | some limit =>
      rw [hbound] at hlimit
      simp only [Option.any_some, decide_eq_false_iff_not, Nat.not_le] at hlimit ⊢
      omega

theorem zero_notMem_join (hp : 0 ∉ p.bytes) (hq : 0 ∉ q.bytes) : 0 ∉ (p.join q).bytes := by
  unfold Path.join
  split_ifs
  · exact hq
  · simpa [hp] using hq
  · simpa [hp, Path.slash] using hq

theorem Accepts.join (h : fs.Accepts p) (hrel : q.isAbsolute = false) (hzero : 0 ∉ q.bytes)
    (hlimit : fs.pathLimit.any (· ≤ (p.join q).bytes.length) = false) : fs.Accepts (p.join q) :=
  ⟨zero_notMem_join h.zero_notMem hzero, Path.join_ne_nil h.ne_nil hrel, hlimit⟩

/-- Which paths are accepted depends on nothing but the limit of their length. -/
theorem Accepts.of_pathLimit_eq {fs' : FileSystem} (h : fs.Accepts p)
    (hlimit : fs.pathLimit = fs'.pathLimit) : fs'.Accepts p :=
  ⟨h.zero_notMem, h.ne_nil, hlimit ▸ h.within_limit⟩

theorem accepts_of_resolve_ok (h : fs.resolve purpose p = .ok spot) : fs.Accepts p := by
  unfold FileSystem.resolve at h
  split_ifs at h with hzero hne hlimit
  exact ⟨by simpa using hzero, hne, by simpa using hlimit⟩

/-- A path that is not accepted fails, but not because it leads nowhere. -/
theorem accepts_of_resolve_noEntry (h : fs.resolve purpose p = .error (.os .noEntry))
    (hne : p.bytes ≠ []) : fs.Accepts p := by
  unfold FileSystem.resolve at h
  split_ifs at h with hzero hlimit
  · cases h
  · cases h
  · exact ⟨by simpa using hzero, hne, by simpa using hlimit⟩

theorem walk_of_resolve_ok (h : fs.resolve purpose p = .ok spot) :
    fs.walk purpose maxLinks (fs.start fs.cwd p) (Step.ofPath p) = .ok spot := by
  rw [(accepts_of_resolve_ok h).resolve] at h
  cases hwalk : fs.walk purpose maxLinks (fs.start fs.cwd p) (Step.ofPath p) with
  | error e =>
    rw [hwalk] at h
    cases h
  | ok spot' =>
    rw [hwalk] at h
    cases h
    rfl

theorem find_eq_ok_iff : fs.find p = .ok i ↔
    fs.Accepts p ∧ ∃ left, fs.Walks [] maxLinks (fs.start fs.cwd p) (Step.ofPath p) i left := by
  constructor
  · intro h
    have hresolve : fs.resolve .find p = .ok (.node i) := by
      unfold find at h
      split at h
      · next heq =>
        cases h
        exact heq
      · cases h
      · cases h
    exact ⟨accepts_of_resolve_ok hresolve, walks_of_walk_node (walk_of_resolve_ok hresolve)⟩
  · rintro ⟨haccepts, left, hwalks⟩
    rw [find, haccepts.resolve, hwalks.walk_find]
    rfl

/-- Whatever a path was walked for, it leads to the node at which the walk ended. -/
theorem find_of_resolve_node (h : fs.resolve purpose p = .ok (.node i)) : fs.find p = .ok i :=
  find_eq_ok_iff.2 ⟨accepts_of_resolve_ok h, walks_of_walk_node (walk_of_resolve_ok h)⟩

/-- A path that leads to a file or a device leads to it if a file is to be written. -/
theorem resolve_create_of_find (hfind : fs.find p = .ok i) (hnot : fs.isDirectory i = false) :
    fs.resolve .create p = .ok (.node i) := by
  obtain ⟨haccepts, left, hwalks⟩ := find_eq_ok_iff.1 hfind
  rw [haccepts.resolve, hwalks.walk_create hnot]
  rfl

/-- A name that a path can end in and a directory can hold. -/
structure OrdinaryName (name : Bytes) : Prop where
  slash_notMem : Path.slash ∉ name
  ofSegment : Step.ofSegment name = some (.down name)
  zero_notMem : 0 ∉ name
  length_le : name.length ≤ maxNameLength

/-- The file name of a path that leads to a node. -/
theorem ordinaryName_of_find (hfind : fs.find p = .ok i) {name : Bytes}
    (hname : p.fileName? = some name) : OrdinaryName name := by
  obtain ⟨haccepts, left, hwalks⟩ := find_eq_ok_iff.1 hfind
  obtain ⟨hmem, hsegment⟩ := Path.ofSegment_of_fileName? hname
  obtain ⟨hslash, hsubset⟩ := Path.segment_subset hmem
  refine ⟨hslash, hsegment, fun hzero => haccepts.zero_notMem (hsubset hzero), ?_⟩
  refine hwalks.length_le_of_mem ?_
  rw [Step.ofPath]
  exact List.mem_append_left _ (List.mem_filterMap.2 ⟨name, hmem, hsegment⟩)

theorem isDirectoryAt_iff :
    fs.isDirectoryAt p = true ↔ ∃ i, fs.find p = .ok i ∧ fs.isDirectory i = true := by
  unfold isDirectoryAt
  cases fs.find p <;> simp

end FileSystem

end FlatArchive
