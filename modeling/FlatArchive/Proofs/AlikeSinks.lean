-- SUMMARY: A builder does the same on sinks that answer alike, and a sink can be made to record what it accepts.
import FlatArchive.Builder
import FlatArchive.Proofs.Delivery
import FlatArchive.Proofs.Keeping
import Mathlib.Tactic.SplitIfs

/-!
# Sinks that answer alike

A sink follows another if, from states that a relation holds of, they give the same answer to every
write and the relation holds of the states that they leave. What is done with writes alone then comes
to the same result on both, so a builder that is written to the one reports the same events and ends
in the same way as one that is written to the other, provided that the files look the same.
-/

namespace FlatArchive

open Attempt

variable {τ τ' : Type} {R : τ → τ' → Prop}

namespace Attempt

variable {ε α : Type} {x : Attempt τ ε α} {y : Attempt τ' ε α}

/-- Attempts that come to the same result follow each other. -/
theorem follows_id (h : ∀ {t t'}, R t t' → ∃ r u u', x.exec t = (r, u) ∧ y.exec t' = (r, u') ∧ R u u') :
    Follows R id x y := by
  intro t t' hR
  obtain ⟨r, u, u', hx, hy, hR'⟩ := h hR
  rw [hx, hy]
  cases r <;> exact ⟨rfl, hR'⟩

/-- What follows with no change to the errors comes to the same result. -/
theorem Follows.exec_eq (h : Follows R id x y) {t u : τ} {t' : τ'} {r : Except ε α} (hR : R t t')
    (hx : x.exec t = (r, u)) : ∃ u', y.exec t' = (r, u') ∧ R u u' := by
  obtain ⟨hresult, hR'⟩ := h t t' hR
  rw [hx] at hresult hR'
  refine ⟨_, Prod.ext ?_ rfl, hR'⟩
  rw [hresult]
  cases (y.exec t').1 <;> rfl

end Attempt

namespace Sink

variable {σ : Type} {sink : Sink τ} {sink' : Sink τ'}

/-- From states that `R` relates, the sinks answer every write alike and leave such states. -/
def Follows (R : τ → τ' → Prop) (sink : Sink τ) (sink' : Sink τ') : Prop :=
  ∀ {t t'} bs, R t t' → (sink.write t bs).1 = (sink'.write t' bs).1
    ∧ R (sink.write t bs).2 (sink'.write t' bs).2

namespace Follows

/-- The other sink gives the answer that this one gave. -/
theorem write_eq (h : Follows R sink sink') {t u : τ} {t' : τ'} {bs : Bytes} {a : Acceptance}
    (hR : R t t') (hwrite : sink.write t bs = (a, u)) :
    ∃ u', sink'.write t' bs = (a, u') ∧ R u u' := by
  obtain ⟨hanswer, hR'⟩ := h bs hR
  rw [hwrite] at hanswer hR'
  exact ⟨_, Prod.ext hanswer.symm rfl, hR'⟩

theorem put (h : Follows R sink sink') (bs : Bytes) :
    Attempt.Follows R id (ofFn (sink.put bs)) (ofFn (sink'.put bs)) := by
  intro t t' hR
  simp only [exec_ofFn]
  fun_induction sink.put bs t generalizing t' with
  | case1 t =>
    rw [Sink.put_nil]
    exact ⟨rfl, hR⟩
  | case2 bs t hne u hwrite =>
    obtain ⟨u', hwrite', hR'⟩ := h.write_eq hR hwrite
    rw [sink'.put_of_ne hne, hwrite']
    exact ⟨rfl, hR'⟩
  | case3 bs t hne n u hwrite ih =>
    obtain ⟨u', hwrite', hR'⟩ := h.write_eq hR hwrite
    rw [sink'.put_of_ne hne, hwrite']
    exact ih u' hR'
  | case4 bs t hne u hwrite ih =>
    obtain ⟨u', hwrite', hR'⟩ := h.write_eq hR hwrite
    rw [sink'.put_of_ne hne, hwrite']
    exact ih u' hR'
  | case5 bs t hne e u hwrite =>
    obtain ⟨u', hwrite', hR'⟩ := h.write_eq hR hwrite
    rw [sink'.put_of_ne hne, hwrite']
    exact ⟨rfl, hR'⟩

theorem copyAfter (h : Follows R sink sink') {st : τ → Stream σ} {st' : τ' → Stream σ}
    (hread : ∀ {t t'}, R t t' → ∀ s n, (st t).read s n = (st' t').read s n)
    (piece count size : Nat) (s : σ) {t : τ} {t' : τ'} (hR : R t t') :
    ∃ r s' u u', sink.copyAfter st piece count size s t = (r, s', u)
      ∧ sink'.copyAfter st' piece count size s t' = (r, s', u') ∧ R u u' := by
  fun_induction sink.copyAfter st piece count size s t generalizing t' with
  | case1 count s t =>
    rw [Sink.copyAfter_zero]
    exact ⟨_, _, _, _, rfl, rfl, hR⟩
  | case2 count size s t hsize s' hgot =>
    rw [hread hR] at hgot
    rw [sink'.copyAfter_of_ne _ _ _ hsize, hgot]
    exact ⟨_, _, _, _, rfl, rfl, hR⟩
  | case3 count size s t hsize b bs s' hgot e u hput =>
    rw [hread hR] at hgot
    obtain ⟨u', hput', hR'⟩ := (h.put (b :: bs)).exec_eq hR hput
    rw [exec_ofFn] at hput'
    rw [sink'.copyAfter_of_ne _ _ _ hsize, hgot]
    dsimp only
    rw [hput']
    exact ⟨_, _, _, _, rfl, rfl, hR'⟩
  | case4 count size s t hsize b bs s' hgot u hput ih =>
    rw [hread hR] at hgot
    obtain ⟨u', hput', hR'⟩ := (h.put (b :: bs)).exec_eq hR hput
    rw [exec_ofFn] at hput'
    rw [sink'.copyAfter_of_ne _ _ _ hsize, hgot]
    dsimp only
    rw [hput']
    exact ih hR'
  | case5 count size s t hsize s' hgot ih =>
    rw [hread hR] at hgot
    rw [sink'.copyAfter_of_ne _ _ _ hsize, hgot]
    exact ih hR
  | case6 count size s t hsize e s' hgot =>
    rw [hread hR] at hgot
    rw [sink'.copyAfter_of_ne _ _ _ hsize, hgot]
    exact ⟨_, _, _, _, rfl, rfl, hR⟩

end Follows

end Sink

/-! ## Tasks on related states -/

/-- The states are related, and the same events were reported. -/
def Session.Related (R : τ → τ' → Prop) (s : Session τ) (s' : Session τ') : Prop :=
  R s.state s'.state ∧ s.events = s'.events

namespace Task

variable {α : Type}

theorem follows_report (e : Event) :
    Attempt.Follows (Session.Related R) id (report e) (report e) := by
  rintro s s' ⟨hR, hevents⟩
  rw [exec_report, exec_report, hevents]
  exact ⟨rfl, hR, rfl⟩

theorem follows_io {x : Attempt τ IoError α} {y : Attempt τ' IoError α}
    (h : Attempt.Follows R id x y) (wrap : IoError → Error) :
    Attempt.Follows (Session.Related R) id (Task.io wrap x) (Task.io wrap y) := by
  refine follows_id fun {s s'} hR => ?_
  rcases hx : x.exec s.state with ⟨r, u⟩
  obtain ⟨u', hy, hR'⟩ := h.exec_eq hR.1 hx
  rw [exec_io, exec_io, hx, hy]
  exact ⟨_, _, _, rfl, rfl, hR', hR.2⟩

theorem follows_atEntry {x : Task τ α} {y : Task τ' α}
    (h : Attempt.Follows (Session.Related R) id x y) (index : Nat) :
    Attempt.Follows (Session.Related R) id (atEntry index x) (atEntry index y) := by
  refine follows_id fun {s s'} hR => ?_
  rcases hx : x.exec s with ⟨r, u⟩
  obtain ⟨u', hy, hR'⟩ := h.exec_eq hR hx
  rw [atEntry, atEntry, exec_mapError, exec_mapError, hx, hy]
  exact ⟨_, _, _, rfl, rfl, hR'⟩

/-- A result that was worked out without the state is the same from any state. -/
theorem follows_liftM {σ σ' : Type} {S : σ → σ' → Prop} (x : Except Error α) :
    Attempt.Follows S id (liftM x : Attempt σ Error α) (liftM x) :=
  follows_id fun {s s'} hS => ⟨x, s, s', exec_liftM x s, exec_liftM x s', hS⟩

end Task

/-! ## Files that look the same -/

/-- Every path leads to the same node, and every node has the same size and is read alike. -/
structure FileSystem.LooksAlike (fs fs' : FileSystem) : Prop where
  find : ∀ p, fs.find p = fs'.find p
  isDirectory : ∀ i, fs.isDirectory i = fs'.isDirectory i
  content : ∀ i, fs.content i = fs'.content i
  directorySize : fs.directorySize = fs'.directorySize

namespace FileSystem.LooksAlike

variable {fs fs' : FileSystem}

theorem refl (fs : FileSystem) : fs.LooksAlike fs := ⟨fun _ => rfl, fun _ => rfl, fun _ => rfl, rfl⟩

theorem size (h : fs.LooksAlike fs') (i : NodeId) : fs.size i = fs'.size i := by
  rw [FileSystem.size, FileSystem.size, h.isDirectory, h.content, h.directorySize]

theorem openSource (h : fs.LooksAlike fs') (p : Path) :
    Builder.openSource fs p = Builder.openSource fs' p := by
  rw [Builder.openSource, Builder.openSource, h.find]

theorem stream_read (h : fs.LooksAlike fs') (f : OpenFile) (n : Nat) :
    (OpenFile.stream fs).read f n = (OpenFile.stream fs').read f n := by
  cases hdir : fs'.isDirectory f.node with
  | true =>
    rw [OpenFile.stream_read_of_isDirectory hdir,
      OpenFile.stream_read_of_isDirectory ((h.isDirectory f.node).trans hdir)]
  | false =>
    rw [OpenFile.stream_read hdir, OpenFile.stream_read ((h.isDirectory f.node).trans hdir),
      OpenFile.read, OpenFile.read, h.content]

end FileSystem.LooksAlike

/-! ## Builders -/

namespace Builder

variable {sink : Sink τ} {sink' : Sink τ'} {files : τ → FileSystem} {files' : τ' → FileSystem}
  (hsink : sink.Follows R sink') (hfiles : ∀ {t t'}, R t t' → (files t).LooksAlike (files' t'))

include hsink in
theorem follows_put (context : String) (bs : Bytes) :
    Attempt.Follows (Session.Related R) id (put sink context bs) (put sink' context bs) :=
  Task.follows_io (hsink.put bs) _

include hsink hfiles in
theorem follows_writeFile (name : String) (p : Path) :
    Attempt.Follows (Session.Related R) id (writeFile sink files name p)
      (writeFile sink' files' name p) := by
  intro s s' hR
  have hread : ∀ {t t'}, R t t' → ∀ f n, ((OpenFile.stream ∘ files) t).read f n =
      ((OpenFile.stream ∘ files') t').read f n := fun hR => (hfiles hR).stream_read
  rw [writeFile, writeFile, exec_bind_ok (exec_get s), exec_bind_ok (exec_get s')]
  dsimp only
  rw [(hfiles hR.1).openSource]
  simp only [(hfiles hR.1).size]
  refine (Task.follows_liftM _).bind (fun i => ?_) s s' hR
  refine (follows_put hsink _ _).bind fun _ => ?_
  refine (Task.follows_io ?_ _).bind fun actual => ?_
  · refine follows_id fun {t t'} hR => ?_
    obtain ⟨r, f, u, u', hcopy, hcopy', hR'⟩ := hsink.copyAfter hread pieceSize 0
      ((files' s'.state).size i) (.ofNode i) hR
    rw [exec_ofFn, exec_ofFn, Sink.copy, Sink.copy, hcopy, hcopy']
    exact ⟨_, _, _, rfl, rfl, hR'⟩
  · split_ifs
    · exact .pure _
    · exact .throw _

include hsink hfiles in
theorem follows_writeContent (item : Item) :
    Attempt.Follows (Session.Related R) id (writeContent sink files item)
      (writeContent sink' files' item) := by
  unfold writeContent
  cases item.content with
  | file p => exact follows_writeFile hsink hfiles item.name p
  | bytes content =>
    refine (follows_put hsink _ _).bind fun _ => ?_
    exact (follows_put hsink _ _).bind fun _ => .pure _

theorem follows_reportPacked (index : Nat) (name : String) (size : Nat) :
    Attempt.Follows (Session.Related R) id (reportPacked index name size)
      (reportPacked index name size) := by
  unfold reportPacked
  dsimp only
  split_ifs
  · exact (Task.follows_report _).bind fun _ => Task.follows_report _
  · exact (Follows.pure _).bind fun _ => Task.follows_report _

include hsink hfiles in
theorem follows_writeItems (index : Nat) (items : List Item) :
    Attempt.Follows (Session.Related R) id (writeItems sink files index items)
      (writeItems sink' files' index items) := by
  induction items generalizing index with
  | nil => exact .pure 0
  | cons item items ih =>
    have hitem := follows_writeContent hsink hfiles item
    refine (Task.follows_atEntry hitem index).bind fun size => ?_
    refine (follows_reportPacked index item.name size).bind fun _ => ?_
    exact (ih (index + 1)).bind fun _ => .pure _

include hsink hfiles in
/-- A builder does the same on sinks that answer alike. -/
theorem follows_write (b : Builder) :
    Attempt.Follows (Session.Related R) id (b.write sink files) (b.write sink' files') := by
  refine (Task.follows_liftM _).bind fun header => ?_
  refine (follows_put hsink _ _).bind fun _ => ?_
  exact (follows_writeItems hsink hfiles 1 b.items).bind fun _ => .pure _

end Builder

end FlatArchive
