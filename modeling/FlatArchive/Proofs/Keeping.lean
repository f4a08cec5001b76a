-- SUMMARY: What attempts and tasks keep of their state, whether they fail or not.
import FlatArchive.Task

/-!
# Keeping

An attempt keeps a property of the state if it holds after whenever it held before: after a failure
too. Sequencing keeps what its parts keep. A task keeps a property of the files if its operations on
files do, since reports and the context of errors do not touch them.
-/

namespace FlatArchive

namespace Attempt

variable {σ ε ε' α β : Type} {P : σ → Prop}

/-- A sequence succeeds if both parts do. -/
theorem exec_bind_eq_ok_iff {x : Attempt σ ε α} {f : α → Attempt σ ε β} {b : β} {s s'' : σ} :
    (x >>= f).exec s = (.ok b, s'') ↔
      ∃ a s', x.exec s = (.ok a, s') ∧ (f a).exec s' = (.ok b, s'') := by
  rw [exec_bind]
  rcases x.exec s with ⟨e | a, s'⟩
  · simp
  · constructor
    · intro h
      exact ⟨a, s', rfl, h⟩
    · rintro ⟨a', s₁, heq, h⟩
      cases heq
      exact h

/-- A sequence fails if its first part does, or if its second part does after that. -/
theorem exec_bind_eq_error_iff {x : Attempt σ ε α} {f : α → Attempt σ ε β} {e : ε} {s s'' : σ} :
    (x >>= f).exec s = (.error e, s'') ↔
      x.exec s = (.error e, s'')
        ∨ ∃ a s', x.exec s = (.ok a, s') ∧ (f a).exec s' = (.error e, s'') := by
  rw [exec_bind]
  rcases x.exec s with ⟨e' | a, s'⟩
  · simp
  · constructor
    · intro h
      exact .inr ⟨a, s', rfl, h⟩
    · rintro (h | ⟨a', s₁, heq, h⟩)
      · cases h
      · cases heq
        exact h

/-- Of a sequence only what its second part does after the first one succeeded counts. -/
theorem exec_bind_congr {x : Attempt σ ε α} {f g : α → Attempt σ ε β} {s : σ}
    (h : ∀ a s', x.exec s = (.ok a, s') → (f a).exec s' = (g a).exec s') :
    (x >>= f).exec s = (x >>= g).exec s := by
  rw [exec_bind, exec_bind]
  rcases hx : x.exec s with ⟨e | a, s'⟩
  · rfl
  · exact h a s' hx

theorem exec_liftM_eq_ok_iff {x : Except ε α} {a : α} {s s' : σ} :
    (liftM x : Attempt σ ε α).exec s = (.ok a, s') ↔ x = .ok a ∧ s' = s := by
  rw [exec_liftM, Prod.mk.injEq, eq_comm (a := s)]

theorem exec_liftM_eq_error_iff {x : Except ε α} {e : ε} {s s' : σ} :
    (liftM x : Attempt σ ε α).exec s = (.error e, s') ↔ x = .error e ∧ s' = s := by
  rw [exec_liftM, Prod.mk.injEq, eq_comm (a := s)]

theorem mapError_eq_ok_iff {f : ε → ε'} {r : Except ε α} {a : α} :
    r.mapError f = .ok a ↔ r = .ok a := by
  constructor
  · intro h
    cases r with
    | error e => cases h
    | ok a' =>
      cases h
      rfl
  · rintro rfl
    rfl

theorem mapError_eq_error_iff {f : ε → ε'} {r : Except ε α} {e : ε'} :
    r.mapError f = .error e ↔ ∃ cause, r = .error cause ∧ e = f cause := by
  constructor
  · intro h
    cases r with
    | error cause =>
      cases h
      exact ⟨cause, rfl, rfl⟩
    | ok a => cases h
  · rintro ⟨cause, rfl, rfl⟩
    rfl

/-- The attempt leaves a state that `P` holds of if it starts in one, whatever it comes to. -/
def Keeps (P : σ → Prop) (x : Attempt σ ε α) : Prop := ∀ s, P s → P (x.exec s).2

namespace Keeps

theorem pure (a : α) : Keeps P (Pure.pure a : Attempt σ ε α) := fun _ hs => hs

theorem liftM (x : Except ε α) : Keeps P (liftM x : Attempt σ ε α) := by
  intro s hs
  rwa [exec_liftM]

/-- The second part may count on what the first one gave. -/
theorem bind_of {x : Attempt σ ε α} {f : α → Attempt σ ε β} {Q : α → σ → Prop} (hx : Keeps P x)
    (hpost : ∀ {s a s'}, P s → x.exec s = (.ok a, s') → Q a s')
    (hf : ∀ a s, P s → Q a s → P ((f a).exec s).2) : Keeps P (x >>= f) := by
  intro s hs
  have hafter := hx s hs
  rw [exec_bind]
  rcases hexec : x.exec s with ⟨e | a, s'⟩
  · rwa [hexec] at hafter
  · rw [hexec] at hafter
    exact hf a s' hafter (hpost hs hexec)

theorem bind {x : Attempt σ ε α} {f : α → Attempt σ ε β} (hx : Keeps P x)
    (hf : ∀ a, Keeps P (f a)) : Keeps P (x >>= f) :=
  hx.bind_of (Q := fun _ _ => True) (fun _ _ => trivial) fun a s hs _ => hf a s hs

theorem mapError {x : Attempt σ ε α} (f : ε → ε') (hx : Keeps P x) : Keeps P (x.mapError f) := by
  intro s hs
  rw [exec_mapError]
  exact hx s hs

end Keeps

end Attempt

namespace Task

open Attempt

variable {τ α : Type}

theorem exec_io (wrap : IoError → Error) (x : Attempt τ IoError α) (s : Session τ) :
    (Task.io wrap x).exec s =
      ((x.exec s.state).1.mapError wrap, ⟨(x.exec s.state).2, s.events⟩) := by
  rw [Task.io, silent, exec_onPart, exec_mapError]

theorem exec_io_ok {x : Attempt τ IoError α} {a : α} {s : Session τ} {t : τ}
    (wrap : IoError → Error) (h : x.exec s.state = (.ok a, t)) :
    (Task.io wrap x).exec s = (.ok a, ⟨t, s.events⟩) := by
  rw [exec_io, h]
  rfl

theorem exec_io_eq_ok_iff {wrap : IoError → Error} {x : Attempt τ IoError α} {a : α}
    {s s' : Session τ} : (Task.io wrap x).exec s = (.ok a, s') ↔
      x.exec s.state = (.ok a, s'.state) ∧ s'.events = s.events := by
  cases s'
  rw [exec_io, Prod.mk.injEq, mapError_eq_ok_iff, Session.mk.injEq, Prod.ext_iff, and_assoc,
    eq_comm (a := s.events)]

theorem exec_io_eq_error_iff {wrap : IoError → Error} {x : Attempt τ IoError α} {e : Error}
    {s s' : Session τ} : (Task.io wrap x).exec s = (.error e, s') ↔
      ∃ cause, x.exec s.state = (.error cause, s'.state) ∧ e = wrap cause ∧ s'.events = s.events := by
  cases s'
  rw [exec_io, Prod.mk.injEq, mapError_eq_error_iff, Session.mk.injEq, eq_comm (a := s.events)]
  constructor
  · rintro ⟨⟨cause, hfailed, rfl⟩, hstate, hevents⟩
    exact ⟨cause, Prod.ext hfailed hstate, rfl, hevents⟩
  · rintro ⟨cause, hfailed, rfl, hevents⟩
    rw [hfailed]
    exact ⟨⟨cause, rfl, rfl⟩, rfl, hevents⟩

theorem exec_report (e : Event) (s : Session τ) :
    (report e).exec s = (.ok (), ⟨s.state, s.events ++ [e]⟩) := rfl

/-- What is reported under a condition only adds to the events. -/
theorem exec_report_if (c : Prop) [Decidable c] (e : Event) (x : Task τ α) (s : Session τ) :
    (if c then (do report e; x) else x).exec s =
      x.exec ⟨s.state, s.events ++ if c then [e] else []⟩ := by
  split
  · rw [exec_bind_ok (exec_report e s)]
  · rw [List.append_nil]

theorem exec_atEntry_ok {index : Nat} {x : Task τ α} {a : α} {s s' : Session τ}
    (h : x.exec s = (.ok a, s')) : (atEntry index x).exec s = (.ok a, s') := by
  rw [atEntry, exec_mapError, h]
  rfl

theorem exec_atEntry_error {index : Nat} {x : Task τ α} {e : Error} {s s' : Session τ}
    (h : x.exec s = (.error e, s')) :
    (atEntry index x).exec s = (.error (e.atEntry index), s') := by
  rw [atEntry, exec_mapError, h]
  rfl

theorem exec_atEntry_eq_ok_iff {index : Nat} {x : Task τ α} {a : α} {s s' : Session τ} :
    (atEntry index x).exec s = (.ok a, s') ↔ x.exec s = (.ok a, s') := by
  rw [atEntry, exec_mapError, Prod.mk.injEq, mapError_eq_ok_iff, Prod.ext_iff]

theorem exec_atEntry_eq_error_iff {index : Nat} {x : Task τ α} {e : Error} {s s' : Session τ} :
    (atEntry index x).exec s = (.error e, s') ↔
      ∃ cause, x.exec s = (.error cause, s') ∧ e = cause.atEntry index := by
  rw [atEntry, exec_mapError, Prod.mk.injEq, mapError_eq_error_iff]
  constructor
  · rintro ⟨⟨cause, hfailed, rfl⟩, hstate⟩
    exact ⟨cause, Prod.ext hfailed hstate, rfl⟩
  · rintro ⟨cause, hfailed, rfl⟩
    rw [hfailed]
    exact ⟨⟨cause, rfl, rfl⟩, rfl⟩

variable {P : τ → Prop}

theorem keeps_io {x : Attempt τ IoError α} (wrap : IoError → Error) (h : Keeps P x) :
    Keeps (fun s : Session τ => P s.state) (Task.io wrap x) := by
  intro s hs
  rw [exec_io]
  exact h s.state hs

theorem keeps_report (e : Event) : Keeps (fun s : Session τ => P s.state) (report e) :=
  fun _ hs => hs

theorem keeps_atEntry {Q : Session τ → Prop} (index : Nat) {x : Task τ α} (h : Keeps Q x) :
    Keeps Q (atEntry index x) := h.mapError _

end Task

end FlatArchive
