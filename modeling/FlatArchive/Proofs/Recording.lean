-- SUMMARY: Recording what a sink accepts, and what memory sinks accept whose room is limited.
import FlatArchive.Proofs.AlikeSinks
import FlatArchive.Proofs.Collecting
import FlatArchive.Sink.Memory

/-!
# Recording sinks

A sink may accept any part of each write, accept nothing, be interrupted or fail. To speak of what it
has accepted in all, writing is also run on the sink that records it (`Sink.recorded`), which answers
as the sink itself does. A memory sink whose room is limited accepts just as much as it has room for.
-/

namespace FlatArchive

open Attempt FileSystem

/-! ## What a sink accepts -/

/-- The part of a write that the answer accepts. -/
def Acceptance.part (bs : Bytes) : Acceptance → Bytes
  | .accepted n => bs.take n
  | .interrupted => []
  | .failed _ => []

namespace Sink

variable {τ : Type} (sink : Sink τ)

/-- The sink that also records what it has accepted so far. -/
def recorded : Sink (τ × Bytes) where
  write u bs :=
    ((sink.write u.1 bs).1, (sink.write u.1 bs).2, u.2 ++ (sink.write u.1 bs).1.part bs)
  patience u := sink.patience u.1
  accepted_le h := sink.accepted_le (Prod.ext (Prod.mk.inj h).1 rfl)
  patience_of_interrupted h := by
    obtain ⟨hanswer, rfl⟩ := Prod.mk.inj h
    exact sink.patience_of_interrupted (Prod.ext hanswer rfl)

/-- Recording changes nothing else. -/
theorem follows_recorded : Follows (fun u t => u.1 = t) sink.recorded sink := by
  rintro u t bs rfl
  exact ⟨rfl, rfl⟩

/-- The states that writes lead to. -/
inductive Reaches (t : τ) : τ → Prop where
  | refl : Reaches t t
  | write {u : τ} (bs : Bytes) (reached : Reaches t u) : Reaches t (sink.write u bs).2

/-- Whatever is written to the sink, each of the paths leads where it leads at the start, to a file
that is as it was. -/
def Spares (files : τ → FileSystem) (ps : List Path) (t : τ) : Prop :=
  ∀ u, sink.Reaches t u → ∀ p ∈ ps, (files u).find p = (files t).find p
    ∧ ∀ i, (files t).find p = .ok i → (files u).node? i = (files t).node? i

/-- What was recorded, by a sink in a state that writes lead to. -/
def Recorded (t : τ) (held : Bytes) (u : τ × Bytes) : Prop := u.2 = held ∧ sink.Reaches t u.1

theorem Recorded.write {t : τ} {held : Bytes} {u u' : τ × Bytes} {bs : Bytes} {a : Acceptance}
    (h : sink.Recorded t held u) (hwrite : sink.recorded.write u bs = (a, u')) :
    sink.Recorded t (held ++ a.part bs) u' := by
  obtain ⟨rfl, hreach⟩ := h
  obtain ⟨rfl, rfl⟩ := Prod.mk.inj hwrite
  exact ⟨rfl, hreach.write bs⟩

/-- A sink collects what it records, and it may fail with any error. -/
theorem collects_recorded (t : τ) :
    sink.recorded.Collects (sink.Recorded t) (fun _ => True) where
  accepted h hwrite := h.write _ hwrite
  nothing _ _ _ := trivial
  interrupted h hwrite := by
    have hheld := h.write _ hwrite
    rwa [Acceptance.part, List.append_nil] at hheld
  failed h hwrite := by
    have hheld := h.write _ hwrite
    rw [Acceptance.part, List.append_nil] at hheld
    exact ⟨hheld, trivial⟩

end Sink

/-- What a task comes to on a sink that records, it comes to on the sink itself. -/
theorem Task.exec_of_follows_recorded {τ α : Type} {x : Task (τ × Bytes) α} {y : Task τ α} {t u : τ}
    {log accepted : Bytes} {events told : List Event} {result : Except Error α}
    (h : Attempt.Follows (Session.Related fun v t => v.1 = t) id x y)
    (hexec : x.exec ⟨(t, log), events⟩ = (result, ⟨(u, accepted), told⟩)) :
    y.exec ⟨t, events⟩ = (result, ⟨u, told⟩) := by
  have hstart : Session.Related (fun (v : τ × Bytes) t => v.1 = t) ⟨(t, log), events⟩ ⟨t, events⟩ :=
    ⟨rfl, rfl⟩
  obtain ⟨⟨_, _⟩, hexec', rfl, rfl⟩ := h.exec_eq hstart hexec
  exact hexec'

/-- A memory sink that no changes are tied to leaves the files alone. -/
theorem MemorySink.files_of_reaches {m u : MemorySink} (h : m.changes = [])
    (hreach : MemorySink.sink.Reaches m u) : u.files = m.files ∧ u.changes = [] := by
  induction hreach with
  | refl => exact ⟨rfl, h⟩
  | @write u bs _ ih =>
    obtain ⟨hfiles, hchanges⟩ := ih
    simp only [MemorySink.sink, MemorySink.write, MemorySink.accept]
    split_ifs
    · exact ⟨hfiles, hchanges⟩
    · cases u.failure <;> exact ⟨hfiles, hchanges⟩
    · rw [hchanges, MemorySink.makeChanges]
      exact ⟨hfiles, rfl⟩

theorem MemorySink.spares {m : MemorySink} (h : m.changes = []) (ps : List Path) :
    MemorySink.sink.Spares MemorySink.files ps m := by
  intro u hreach p _
  rw [(files_of_reaches h hreach).1]
  exact ⟨rfl, fun _ _ => rfl⟩

/-! ## Memory sinks with little room -/

namespace MemorySink

/-- A memory sink that has room for `n` more bytes, takes something at once, and fails with `e` when it
is full. No changes to its files are to come. -/
structure Limited (fs : FileSystem) (e : IoError) (n : Nat) (m : MemorySink) : Prop where
  files : m.files = fs
  room : m.room = some n
  atOnce : m.atOnce ≠ some 0
  failure : m.failure = some e
  changes : m.changes = []

namespace Limited

variable {fs : FileSystem} {e : IoError} {n : Nat} {m : MemorySink} {bs : Bytes}

/-- As long as there is room something is taken, but not more than there is room for. -/
theorem length_acceptable (h : Limited fs e n m) (hn : n ≠ 0) (hbs : bs ≠ []) :
    ∃ k, (m.acceptable bs).length = k + 1 ∧ k + 1 ≤ n := by
  have hpos := List.length_pos_iff.2 hbs
  have hatOnce := h.atOnce
  refine ⟨(m.acceptable bs).length - 1, ?_⟩
  rw [acceptable, h.room, within, List.length_take]
  cases hlimit : m.atOnce with
  | none =>
    rw [within]
    omega
  | some k =>
    have hk : k ≠ 0 := by
      rintro rfl
      exact hatOnce hlimit
    rw [within, List.length_take]
    omega

theorem accept_full (h : Limited fs e 0 m) : m.accept bs = (.failed e, m) := by
  unfold MemorySink.accept
  rw [if_pos h.room, h.failure]

theorem accept (h : Limited fs e n m) (hn : n ≠ 0) (bs : Bytes) :
    ∃ m', m.accept bs = (.accepted (m.acceptable bs).length, m')
      ∧ Limited fs e (n - (m.acceptable bs).length) m' := by
  have hroom : m.room ≠ some 0 := by
    rw [h.room]
    exact fun hzero => hn (Option.some.inj hzero)
  unfold MemorySink.accept
  rw [if_neg hroom, h.changes]
  refine ⟨_, rfl, h.files, ?_, h.atOnce, h.failure, rfl⟩
  dsimp only
  rw [h.room]
  rfl

/-- One write is interrupted, finds the sink full, or is accepted as far as there is room. -/
theorem write_cases (h : Limited fs e n m) (held : Bytes) (hbs : bs ≠ []) :
    (∃ m', sink.recorded.write (m, held) bs = (.interrupted, m', held) ∧ Limited fs e n m')
      ∨ (n = 0 ∧ ∃ m', sink.recorded.write (m, held) bs = (.failed e, m', held) ∧ Limited fs e 0 m')
      ∨ ∃ k m', k + 1 ≤ n
        ∧ sink.recorded.write (m, held) bs = (.accepted (k + 1), m', held ++ bs.take (k + 1))
        ∧ Limited fs e (n - (k + 1)) m' := by
  have hrecorded : ∀ {answer m'}, m.write bs = (answer, m') →
      sink.recorded.write (m, held) bs = (answer, m', held ++ answer.part bs) := by
    intro answer m' hwrite
    change ((m.write bs).1, (m.write bs).2, held ++ (m.write bs).1.part bs) = _
    rw [hwrite]
  obtain ⟨hfiles, hroom, hatOnce, hfailure, hchanges⟩ := id h
  have h' : Limited fs e n { m with interruptNext := true } :=
    ⟨hfiles, hroom, hatOnce, hfailure, hchanges⟩
  by_cases hinterrupt : (m.interrupts && m.interruptNext) = true
  · have hwrite := hrecorded (if_pos hinterrupt)
    rw [Acceptance.part, List.append_nil] at hwrite
    exact .inl ⟨_, hwrite, hfiles, hroom, hatOnce, hfailure, hchanges⟩
  by_cases hn : n = 0
  · subst hn
    have hwrite := hrecorded ((if_neg hinterrupt).trans h'.accept_full)
    rw [Acceptance.part, List.append_nil] at hwrite
    exact .inr (.inl ⟨rfl, _, hwrite, h'⟩)
  · obtain ⟨k, hk, hle⟩ := h'.length_acceptable hn hbs
    obtain ⟨m', haccept, hm'⟩ := h'.accept hn bs
    rw [hk] at haccept hm'
    exact .inr (.inr ⟨k, m', hle, hrecorded ((if_neg hinterrupt).trans haccept), hm'⟩)

/-- All of what is put into it is taken if there is room for it, and else as much as there is. -/
theorem put {u : MemorySink × Bytes} (h : Limited fs e n u.1) (bs : Bytes) :
    (bs.length ≤ n ∧ ∃ m, sink.recorded.put bs u = (.ok (), m, u.2 ++ bs)
        ∧ Limited fs e (n - bs.length) m)
      ∨ (n < bs.length ∧ ∃ m, sink.recorded.put bs u = (.error e, m, u.2 ++ bs.take n)) := by
  fun_induction Sink.put sink.recorded bs u generalizing n with
  | case1 u => exact .inl ⟨Nat.zero_le n, u.1, by rw [List.append_nil], h⟩
  | case2 bs u hne u' hwrite =>
    rcases h.write_cases u.2 hne with ⟨m, hm, -⟩ | ⟨-, m, hm, -⟩ | ⟨k, m, -, hm, -⟩
    all_goals cases hm.symm.trans hwrite
  | case3 bs u hne k u' hwrite ih =>
    rcases h.write_cases u.2 hne with ⟨m, hm, -⟩ | ⟨-, m, hm, -⟩ | ⟨k', m, hle, hm, hlimited⟩
    · cases hm.symm.trans hwrite
    · cases hm.symm.trans hwrite
    · cases hm.symm.trans hwrite
      have hpart : k + 1 ≤ bs.length := sink.recorded.accepted_le hm
      have hrest : (bs.drop (k + 1)).length = bs.length - (k + 1) := List.length_drop
      rcases ih hlimited with ⟨hfits, m', hput, hm'⟩ | ⟨hexceeds, m', hput⟩
      · have hroom : n - (k + 1) - (bs.drop (k + 1)).length = n - bs.length := by omega
        rw [List.append_assoc, List.take_append_drop] at hput
        exact .inl ⟨by omega, m', hput, hroom ▸ hm'⟩
      · have htake : bs.take (k + 1) ++ (bs.drop (k + 1)).take (n - (k + 1)) = bs.take n := by
          rw [← List.take_add, Nat.add_sub_cancel' hle]
        rw [List.append_assoc, htake] at hput
        exact .inr ⟨by omega, m', hput⟩
  | case4 bs u hne u' hwrite ih =>
    rcases h.write_cases u.2 hne with ⟨m, hm, hlimited⟩ | ⟨-, m, hm, -⟩ | ⟨k, m, -, hm, -⟩
    · cases hm.symm.trans hwrite
      exact ih hlimited
    · cases hm.symm.trans hwrite
    · cases hm.symm.trans hwrite
  | case5 bs u hne cause u' hwrite =>
    rcases h.write_cases u.2 hne with ⟨m, hm, -⟩ | ⟨rfl, m, hm, -⟩ | ⟨k, m, -, hm, -⟩
    · cases hm.symm.trans hwrite
    · cases hm.symm.trans hwrite
      exact .inr ⟨List.length_pos_iff.2 hne, m, by rw [List.take_zero, List.append_nil]⟩
    · cases hm.symm.trans hwrite

theorem put_of_le {u : MemorySink × Bytes} (h : Limited fs e n u.1) (hle : bs.length ≤ n) :
    ∃ m, sink.recorded.put bs u = (.ok (), m, u.2 ++ bs) ∧ Limited fs e (n - bs.length) m := by
  rcases h.put bs with ⟨-, hput⟩ | ⟨hlt, -⟩
  · exact hput
  · exact absurd hle (Nat.not_le.2 hlt)

theorem put_of_lt {u : MemorySink × Bytes} (h : Limited fs e n u.1) (hlt : n < bs.length) :
    ∃ m, sink.recorded.put bs u = (.error e, m, u.2 ++ bs.take n) := by
  rcases h.put bs with ⟨hle, -⟩ | ⟨-, hput⟩
  · exact absurd hle (Nat.not_le.2 hlt)
  · exact hput

/-- A file of a single piece is copied if there is room for it. -/
theorem copy_of_le {u : MemorySink × Bytes} (h : Limited fs e n u.1) {i : NodeId} {content : Bytes}
    (hcontent : fs.content i = content) {piece : Nat} (hpiece : content.length ≤ piece)
    (hle : content.length ≤ n) :
    ∃ f m, sink.recorded.copy (OpenFile.stream ∘ MemorySink.files ∘ Prod.fst) piece content.length
          (.ofNode i) u = (.ok content.length, f, m, u.2 ++ content)
      ∧ Limited fs e (n - content.length) m := by
  have hfiles : ((MemorySink.files ∘ Prod.fst) u).content i = content := by
    rw [Function.comp_apply, h.files, hcontent]
  obtain ⟨m, hput, hm⟩ := h.put_of_le hle
  rw [sink.recorded.copy_file hfiles hpiece, hput]
  exact ⟨_, m, rfl, hm⟩

end Limited

end MemorySink

end FlatArchive
