-- SUMMARY: The moves that a path stands for, and what joining and going to the parent do to them.
import FlatArchive.FileSystem.Walk
import FlatArchive.Proofs.Components
import Mathlib

/-!
# Moves

Of the steps of a path only `..` and names lead somewhere; `.` and the slash at the end merely ask
for a directory. The moves of a path are the steps that lead somewhere. They say what a path means
without its spelling: joining puts the moves of one path behind those of the other, and the parent
of a path has all its moves but the last.
-/

namespace FlatArchive

/-! ## Moves -/

namespace Step

/-- The step leads to another directory or to a name. -/
def isMove : Step → Bool
  | up | down _ => true
  | here | closing => false

/-- The steps that lead somewhere. -/
def moves (steps : List Step) : List Step := steps.filter isMove

@[simp] theorem moves_nil : moves [] = [] := rfl

@[simp] theorem moves_here (steps : List Step) : moves (here :: steps) = moves steps := rfl

@[simp] theorem moves_closing (steps : List Step) : moves (closing :: steps) = moves steps := rfl

@[simp] theorem moves_up (steps : List Step) : moves (up :: steps) = up :: moves steps := rfl

@[simp] theorem moves_down (name : Bytes) (steps : List Step) :
    moves (down name :: steps) = down name :: moves steps := rfl

@[simp] theorem moves_append (xs ys : List Step) : moves (xs ++ ys) = moves xs ++ moves ys :=
  List.filter_append ..

theorem isMove_of_moves_eq_cons {steps : List Step} {m : Step} {ms : List Step}
    (h : moves steps = m :: ms) : isMove m = true := by
  have hmem : m ∈ moves steps := by
    rw [h]
    exact List.mem_cons_self
  exact (List.mem_filter.1 hmem).2

/-- Steps with a first move are some that lead nowhere, that move, and the others. -/
theorem exists_of_moves_eq_cons {steps : List Step} {m : Step} {ms : List Step}
    (h : moves steps = m :: ms) :
    ∃ rests others, steps = rests ++ m :: others ∧ moves rests = [] ∧ moves others = ms := by
  induction steps with
  | nil => cases h
  | cons s steps ih =>
    cases s with
    | here =>
      obtain ⟨rests, others, rfl, hrests, hothers⟩ := ih h
      exact ⟨here :: rests, others, rfl, hrests, hothers⟩
    | closing =>
      obtain ⟨rests, others, rfl, hrests, hothers⟩ := ih h
      exact ⟨closing :: rests, others, rfl, hrests, hothers⟩
    | up =>
      cases h
      exact ⟨[], steps, rfl, rfl, rfl⟩
    | down name =>
      cases h
      exact ⟨[], steps, rfl, rfl, rfl⟩

/-- Where the moves can be parted, so can the steps. -/
theorem exists_of_moves_eq_append {steps : List Step} {ms ns : List Step}
    (h : moves steps = ms ++ ns) (hne : ns ≠ []) :
    ∃ front back, steps = front ++ back ∧ moves front = ms ∧ moves back = ns
      ∧ back.head? = ns.head? := by
  induction ms generalizing steps with
  | nil =>
    obtain ⟨n, ns, rfl⟩ := List.exists_cons_of_ne_nil hne
    obtain ⟨rests, others, rfl, hrests, rfl⟩ := exists_of_moves_eq_cons h
    exact ⟨rests, n :: others, rfl, hrests, List.filter_cons_of_pos (isMove_of_moves_eq_cons h), rfl⟩
  | cons m ms ih =>
    have hmove := isMove_of_moves_eq_cons h
    obtain ⟨rests, others, rfl, hrests, hothers⟩ := exists_of_moves_eq_cons h
    obtain ⟨front, back, rfl, hfront, hback, hhead⟩ := ih hothers
    refine ⟨rests ++ m :: front, back, by simp, ?_, hback, hhead⟩
    rw [moves_append, hrests, List.nil_append, ← hfront]
    exact List.filter_cons_of_pos hmove

end Step

/-! ## The moves of a text -/

namespace Path

def moves (p : Path) : List Step := Step.moves (Step.ofPath p)

theorem moves_eq (p : Path) : p.moves = Step.moves (p.segments.filterMap Step.ofSegment) := by
  rw [moves, Step.ofPath, Step.moves_append]
  split_ifs <;> simp

@[simp] theorem moves_empty : moves ⟨[]⟩ = [] := rfl

@[simp] theorem moves_dot : moves ⟨[dot]⟩ = [] := rfl

theorem moves_append_slash (a b : Bytes) : moves ⟨a ++ slash :: b⟩ = moves ⟨a⟩ ++ moves ⟨b⟩ := by
  rw [moves_eq, moves_eq, moves_eq]
  simp only [segments, List.splitOn_append_cons_self, List.filterMap_append, Step.moves_append]

theorem moves_slash (a : Bytes) : moves ⟨a ++ [slash]⟩ = moves ⟨a⟩ := by
  rw [moves_append_slash, moves_empty, List.append_nil]

theorem moves_slash_dot (a : Bytes) : moves ⟨a ++ [slash, dot]⟩ = moves ⟨a⟩ := by
  rw [moves_append_slash, moves_dot, List.append_nil]

theorem segments_of_no_slash {a : Bytes} (h : slash ∉ a) : segments ⟨a⟩ = [a] :=
  List.splitOn_eq_singleton h

theorem isAbsolute_of_no_slash {a : Bytes} (h : slash ∉ a) : isAbsolute ⟨a⟩ = false := by
  cases a with
  | nil => rfl
  | cons b bs =>
    rw [List.mem_cons, not_or] at h
    simpa [isAbsolute] using Ne.symm h.1

/-- A text without a slash that is neither empty nor `.` is one move. -/
theorem moves_segment {a : Bytes} (h : slash ∉ a) (hne : a ≠ []) (hdot : a ≠ [dot]) :
    ∃ m, Step.ofSegment a = some m ∧ moves ⟨a⟩ = [m] := by
  rw [moves_eq, segments_of_no_slash h]
  by_cases hup : a = [dot, dot]
  · subst hup
    exact ⟨.up, rfl, rfl⟩
  · have hdown : Step.ofSegment a = some (.down a) := by simp [Step.ofSegment, hne, hdot, hup]
    refine ⟨.down a, hdown, ?_⟩
    simp [hdown]

/-! ## Joining -/

variable {p q : Path}

theorem isAbsolute_join (hp : p.bytes ≠ []) (hq : q.isAbsolute = false) :
    (p.join q).isAbsolute = p.isAbsolute := by
  obtain ⟨b, bs, hbytes⟩ := List.exists_cons_of_ne_nil hp
  unfold join
  rw [hq, if_neg Bool.false_ne_true]
  split_ifs <;> simp [isAbsolute, hbytes]

theorem join_ne_nil (hp : p.bytes ≠ []) (hq : q.isAbsolute = false) : (p.join q).bytes ≠ [] := by
  unfold join
  rw [hq, if_neg Bool.false_ne_true]
  split_ifs <;> simp [hp]

theorem moves_join (hp : p.bytes ≠ []) (hq : q.isAbsolute = false) :
    (p.join q).moves = p.moves ++ q.moves := by
  unfold join
  rw [hq, if_neg Bool.false_ne_true]
  split_ifs with hend
  · have hlast : p.bytes.getLast? = some slash := by
      simpa [List.isEmpty_iff, hp] using hend
    obtain ⟨front, hfront⟩ := List.getLast?_eq_some_iff.1 hlast
    obtain ⟨bs⟩ := p
    simp only at hfront
    subst hfront
    rw [moves_slash, List.append_assoc]
    exact moves_append_slash front q.bytes
  · exact moves_append_slash p.bytes q.bytes

/-- The steps of two paths with a slash between them. -/
theorem ofPath_append (a : Bytes) {b : Bytes} (hne : b ≠ []) :
    Step.ofPath ⟨a ++ slash :: b⟩ = (segments ⟨a⟩).filterMap Step.ofSegment ++ Step.ofPath ⟨b⟩ := by
  have hlast : (a ++ slash :: b).getLast? = b.getLast? := by
    rw [List.getLast?_append, List.getLast?_cons_of_ne_nil hne, List.getLast?_eq_some_getLast hne]
    rfl
  have hsegments : segments ⟨a ++ slash :: b⟩ = segments ⟨a⟩ ++ segments ⟨b⟩ :=
    List.splitOn_append_cons_self ..
  rw [Step.ofPath, Step.ofPath, hlast, hsegments, List.filterMap_append, List.append_assoc]

/-- A text without a slash is at most one step. -/
theorem ofPath_segment {a : Bytes} (hslash : slash ∉ a) {s : Step} (hs : Step.ofSegment a = some s) :
    Step.ofPath ⟨a⟩ = [s] := by
  have hlast : a.getLast? ≠ some slash := fun h => hslash (List.mem_of_getLast? h)
  rw [Step.ofPath, if_neg hlast, segments_of_no_slash hslash, List.append_nil]
  simp [hs]

/-- The last step of a path that ends in a name is that name. -/
theorem ofPath_append_slash (a : Bytes) {name : Bytes} (hslash : slash ∉ name)
    (hname : Step.ofSegment name = some (.down name)) :
    Step.ofPath ⟨a ++ slash :: name⟩ = (segments ⟨a⟩).filterMap Step.ofSegment ++ [.down name] := by
  have hne : name ≠ [] := by
    rintro rfl
    cases hname
  rw [ofPath_append a hne, ofPath_segment hslash hname]

/-- The steps of a name in a directory are some with the directory's moves, and then the name. -/
theorem ofPath_join (hp : p.bytes ≠ []) {name : Bytes} (hslash : slash ∉ name)
    (hname : Step.ofSegment name = some (.down name)) :
    ∃ front, Step.ofPath (p.join ⟨name⟩) = front ++ [.down name] ∧ Step.moves front = p.moves := by
  unfold join
  rw [isAbsolute_of_no_slash hslash, if_neg Bool.false_ne_true]
  split_ifs with hend
  · have hlast : p.bytes.getLast? = some slash := by
      simpa [List.isEmpty_iff, hp] using hend
    obtain ⟨front, hfront⟩ := List.getLast?_eq_some_iff.1 hlast
    obtain ⟨bs⟩ := p
    simp only at hfront
    subst hfront
    rw [List.append_assoc]
    exact ⟨_, ofPath_append_slash front hslash hname, by rw [← moves_eq, moves_slash]⟩
  · exact ⟨_, ofPath_append_slash p.bytes hslash hname, (moves_eq p).symm⟩

/-! ## Parents -/

theorem moves_trimBack (bs : Bytes) : moves ⟨(trimBack bs).reverse⟩ = moves ⟨bs.reverse⟩ := by
  fun_induction trimBack bs with
  | case1 => rfl
  | case2 a => rfl
  | case3 b rest ih =>
    rw [ih, List.reverse_cons (a := slash)]
    exact (moves_slash _).symm
  | case4 a b rest hslash hdot ih =>
    obtain ⟨rfl, rfl⟩ := hdot
    rw [ih]
    simp only [List.reverse_cons, List.append_assoc, List.cons_append, List.nil_append]
    rw [moves_slash, moves_slash_dot]
  | case5 a b rest hslash hdot => rfl

theorem trimBack_suffix (bs : Bytes) : trimBack bs <:+ bs := by
  fun_induction trimBack bs with
  | case1 => exact List.suffix_rfl
  | case2 a => exact List.suffix_rfl
  | case3 b rest ih => exact ih.trans (List.suffix_cons ..)
  | case4 a b rest hslash hdot ih => exact ih.trans (List.suffix_cons ..)
  | case5 a b rest hslash hdot => exact List.suffix_rfl

/-- What is left does not end in `/.`. -/
theorem trimBack_ne_dot_slash (bs rest : Bytes) : trimBack bs ≠ dot :: slash :: rest := by
  fun_induction trimBack bs with
  | case1 => simp
  | case2 a => simp
  | case3 b rest ih => exact ih
  | case4 a b rest hslash hdot ih => exact ih
  | case5 a b rest hslash hdot =>
    intro h
    cases h
    exact hdot ⟨rfl, rfl⟩

theorem parent_front (h : p.parent = some q) : q.bytes <+: p.bytes := by
  unfold parent at h
  split at h
  · cases h
  · next a rest htrim =>
    split at h
    · cases h
    · cases h
      have hback : a :: rest <:+ p.bytes.reverse := htrim ▸ trimBack_suffix p.bytes.reverse
      have hfront : trimBack (rest.dropWhile (· != slash)) <:+ p.bytes.reverse :=
        (trimBack_suffix _).trans ((List.dropWhile_suffix _).trans
          ((List.suffix_cons a rest).trans hback))
      simpa using List.reverse_prefix.2 hfront

theorem isAbsolute_parent (h : p.parent = some q) (hne : q.bytes ≠ []) :
    q.isAbsolute = p.isAbsolute := by
  obtain ⟨b, bs, hbytes⟩ := List.exists_cons_of_ne_nil hne
  obtain ⟨back, hback⟩ := parent_front h
  simp [isAbsolute, ← hback, hbytes]

/-- Of a text read backwards, what follows its last segment has all moves but the last. -/
theorem moves_behind_segment {a : UInt8} {segment back : Bytes} (ha : a ≠ slash)
    (hsegment : slash ∉ segment) (hback : back = [] ∨ ∃ tail, back = slash :: tail)
    (hdot : ∀ tail, a :: (segment ++ back) ≠ dot :: slash :: tail) :
    moves ⟨back.reverse⟩ = (moves ⟨(a :: (segment ++ back)).reverse⟩).dropLast := by
  have hslash : slash ∉ (a :: segment).reverse := by
    rw [List.mem_reverse, List.mem_cons, not_or]
    exact ⟨ha.symm, hsegment⟩
  have hne : (a :: segment).reverse ≠ [] := by simp
  rcases hback with rfl | ⟨tail, rfl⟩
  · rw [List.append_nil]
    by_cases hcurrent : (a :: segment).reverse = [dot]
    · rw [hcurrent]
      rfl
    · obtain ⟨m, -, hm⟩ := moves_segment hslash hne hcurrent
      rw [hm]
      rfl
  · have hcurrent : (a :: segment).reverse ≠ [dot] := by
      intro heq
      have hcons : a :: segment = [dot] := by simpa using congrArg List.reverse heq
      obtain ⟨rfl, rfl⟩ := List.cons.inj hcons
      exact hdot tail rfl
    obtain ⟨m, -, hm⟩ := moves_segment hslash hne hcurrent
    have hwhole : (a :: (segment ++ slash :: tail)).reverse =
        tail.reverse ++ slash :: (a :: segment).reverse := by simp
    rw [hwhole, moves_append_slash, hm, List.dropLast_concat, List.reverse_cons, moves_slash]

/-- The parent has all moves but the last. -/
theorem moves_parent (h : p.parent = some q) : q.moves = p.moves.dropLast := by
  have hp : p.moves = moves ⟨(trimBack p.bytes.reverse).reverse⟩ := by
    rw [moves_trimBack, List.reverse_reverse]
  unfold parent at h
  split at h
  · cases h
  · next a rest htrim =>
    split at h
    · cases h
    · next ha =>
      cases h
      have hdot : ∀ tail, a :: rest ≠ dot :: slash :: tail := by
        rw [← htrim]
        exact trimBack_ne_dot_slash _
      rw [hp, htrim, moves_trimBack]
      have hsplit := List.takeWhile_append_dropWhile (p := (· != slash)) (l := rest)
      have hsegment : slash ∉ rest.takeWhile (· != slash) := by
        intro hmem
        simpa using List.mem_takeWhile_imp hmem
      have hback : rest.dropWhile (· != slash) = [] ∨
          ∃ tail, rest.dropWhile (· != slash) = slash :: tail := by
        cases hrest : rest.dropWhile (· != slash) with
        | nil => exact .inl rfl
        | cons c tail =>
          have hc := rest.head_dropWhile_not (· != slash) (by simp [hrest])
          simp only [hrest, List.head_cons, bne_eq_false_iff_eq] at hc
          exact .inr ⟨tail, by rw [hc]⟩
      rw [← hsplit] at hdot
      nth_rewrite 2 [← hsplit]
      exact moves_behind_segment ha hsegment hback hdot

/-! ## Ordinary names -/

/-- The segments of a path are parts of it without slashes. -/
theorem segment_subset {segment : Bytes} (h : segment ∈ p.segments) :
    slash ∉ segment ∧ segment ⊆ p.bytes := by
  obtain ⟨bs⟩ := p
  simp only [segments] at h ⊢
  induction bs generalizing segment with
  | nil =>
    rw [List.splitOn_nil, List.mem_singleton] at h
    rw [h]
    exact ⟨List.not_mem_nil, List.nil_subset _⟩
  | cons b bs ih =>
    rw [List.splitOn_cons_eq_if_modifyHead] at h
    split_ifs at h with hb
    · rcases List.mem_cons.1 h with rfl | h
      · exact ⟨List.not_mem_nil, List.nil_subset _⟩
      · exact ⟨(ih h).1, List.subset_cons_of_subset _ (ih h).2⟩
    · obtain ⟨first, others, hsplit⟩ := List.exists_cons_of_ne_nil (List.splitOn_ne_nil slash bs)
      rw [hsplit] at h ih
      rcases List.mem_cons.1 h with rfl | h
      · have hfirst := ih List.mem_cons_self
        rw [List.mem_cons, not_or]
        exact ⟨⟨fun heq => hb (by simp [heq]), hfirst.1⟩, List.cons_subset_cons _ hfirst.2⟩
      · have hother := ih (List.mem_cons_of_mem _ h)
        exact ⟨hother.1, List.subset_cons_of_subset _ hother.2⟩

/-- A path of ordinary names is relative. -/
theorem isAbsolute_of_stray?_eq_none (h : p.stray? = none) : p.isAbsolute = false :=
  (leading_eq_nil_iff.1 (stray?_eq_none_iff.1 h).1).1

/-- A path of ordinary names never goes up. -/
theorem up_notMem_of_stray?_eq_none (h : p.stray? = none) : Step.up ∉ p.moves := by
  intro hup
  rw [moves_eq] at hup
  obtain ⟨segment, hmem, hsegment⟩ := List.mem_filterMap.1 (List.mem_filter.1 hup).1
  have hdots : segment = [dot, dot] := by
    by_contra hdots
    simp only [Step.ofSegment, hdots, if_false] at hsegment
    split_ifs at hsegment <;> cases hsegment
  subst hdots
  exact (stray?_eq_none_iff.1 h).2 hmem

/-- A path of ordinary names has one, unless it is empty. -/
theorem moves_ne_nil_of_stray?_eq_none (h : p.stray? = none) (hne : p.bytes ≠ []) :
    p.moves ≠ [] := by
  obtain ⟨hrel, hfirst⟩ := leading_eq_nil_iff.1 (stray?_eq_none_iff.1 h).1
  obtain ⟨bs⟩ := p
  obtain ⟨b, bs, rfl⟩ := List.exists_cons_of_ne_nil hne
  have hb : (b == slash) = false := by simpa [isAbsolute] using hrel
  obtain ⟨first, others, hsplit⟩ := List.exists_cons_of_ne_nil (List.splitOn_ne_nil slash bs)
  have hsegments : segments ⟨b :: bs⟩ = (b :: first) :: others := by
    rw [segments, List.splitOn_cons_eq_if_modifyHead, hb, if_neg Bool.false_ne_true, hsplit]
    rfl
  have hdot : b :: first ≠ [dot] := by
    intro heq
    rw [hsegments, heq] at hfirst
    exact hfirst rfl
  rw [moves_eq, hsegments]
  by_cases hdots : b :: first = [dot, dot]
  · simp [Step.ofSegment, hdots, dot]
  · simp [Step.ofSegment, hdot, hdots]

/-- A segment that leads down is an ordinary name. -/
theorem component_of_ofSegment {name : Bytes} (hname : Step.ofSegment name = some (.down name)) :
    Component.ofSegment name = some (.normal name) := by
  unfold Step.ofSegment at hname
  split_ifs at hname with hnil hdot hdots
  · cases hname
  · cases hname
  · simp [Component.ofSegment, hnil, hdot, hdots]

/-- A single ordinary name is the only component of its path. -/
theorem components_of_ofSegment {name : Bytes} (hslash : slash ∉ name)
    (hname : Step.ofSegment name = some (.down name)) : components ⟨name⟩ = [.normal name] := by
  have hcomponent := component_of_ofSegment hname
  have hdot : name ≠ [dot] := by
    rintro rfl
    cases hname
  have habs := isAbsolute_of_no_slash hslash
  simp [components, leading, segments_of_no_slash hslash, habs, hcomponent, hdot]

theorem stray?_of_ofSegment {name : Bytes} (hslash : slash ∉ name)
    (hname : Step.ofSegment name = some (.down name)) : stray? ⟨name⟩ = none := by
  simp [stray?, components_of_ofSegment hslash hname, Component.isNormal]

/-- The file name of a path is one of its steps, and none of `.`, `..` and the empty name. -/
theorem ofSegment_of_fileName? {name : Bytes} (h : p.fileName? = some name) :
    name ∈ p.segments ∧ Step.ofSegment name = some (.down name) := by
  obtain ⟨hlast, hdots⟩ := fileName?_eq_some_iff.1 h
  obtain ⟨hmem, hcounts⟩ := List.mem_filter.1 (List.mem_of_getLast? hlast)
  obtain ⟨hnil, hdot⟩ := decide_eq_true_iff.1 hcounts
  exact ⟨hmem, by simp [Step.ofSegment, hnil, hdot, hdots]⟩

end Path

end FlatArchive
