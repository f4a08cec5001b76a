-- SUMMARY: Computations that may fail and keep their state when they do.

/-!
# Attempts

An attempt works on a state and ends in a value or an error. One that fails keeps the state that it
had reached: what a failed read has consumed stays consumed, and what was written stays written.
-/

namespace FlatArchive

abbrev Attempt (σ ε : Type) := ExceptT ε (StateM σ)

namespace Attempt

variable {σ ε α β : Type}

/-- The attempt that a function on states describes. -/
def ofFn (f : σ → Except ε α × σ) : Attempt σ ε α := fun s => f s

/-- Make an attempt: its value or error, and the state it leaves. -/
def exec (x : Attempt σ ε α) (s : σ) : Except ε α × σ := x s

@[simp] theorem exec_ofFn (f : σ → Except ε α × σ) (s : σ) : (ofFn f).exec s = f s := rfl

@[simp] theorem ofFn_exec (x : Attempt σ ε α) : ofFn x.exec = x := rfl

@[simp] theorem exec_pure (a : α) (s : σ) : (pure a : Attempt σ ε α).exec s = (.ok a, s) := rfl

@[simp] theorem exec_throw (e : ε) (s : σ) : (throw e : Attempt σ ε α).exec s = (.error e, s) := rfl

theorem exec_bind (x : Attempt σ ε α) (f : α → Attempt σ ε β) (s : σ) :
    (x >>= f).exec s =
      match x.exec s with
      | (.ok a, s') => (f a).exec s'
      | (.error e, s') => (.error e, s') := by
  show (x >>= f : Attempt σ ε β) s = _
  simp only [bind, ExceptT.bind, ExceptT.mk, StateT.bind, exec]
  rcases x s with ⟨_ | a, s'⟩ <;> rfl

theorem exec_bind_ok {x : Attempt σ ε α} {f : α → Attempt σ ε β} {s s' : σ} {a : α}
    (h : x.exec s = (.ok a, s')) : (x >>= f).exec s = (f a).exec s' := by
  rw [exec_bind, h]

theorem exec_bind_error {x : Attempt σ ε α} {f : α → Attempt σ ε β} {s s' : σ} {e : ε}
    (h : x.exec s = (.error e, s')) : (x >>= f).exec s = (.error e, s') := by
  rw [exec_bind, h]

@[simp] theorem exec_get (s : σ) : (get : Attempt σ ε σ).exec s = (.ok s, s) := rfl

@[simp] theorem exec_modify (f : σ → σ) (s : σ) :
    (modify f : Attempt σ ε PUnit).exec s = (.ok ⟨⟩, f s) := rfl

/-- A result that was worked out without the state leaves it as it is. -/
@[simp] theorem exec_liftM (x : Except ε α) (s : σ) :
    (liftM x : Attempt σ ε α).exec s = (x, s) := by
  cases x <;> rfl

/-! ## Changing errors and states -/

/-- The same attempt with its errors changed. -/
def mapError {ε' : Type} (f : ε → ε') (x : Attempt σ ε α) : Attempt σ ε' α :=
  ofFn fun s => match x.exec s with
    | (.ok a, s') => (.ok a, s')
    | (.error e, s') => (.error (f e), s')

theorem exec_mapError {ε' : Type} (f : ε → ε') (x : Attempt σ ε α) (s : σ) :
    (x.mapError f).exec s = ((x.exec s).1.mapError f, (x.exec s).2) := by
  rw [mapError, exec_ofFn]
  rcases x.exec s with ⟨_ | a, s'⟩ <;> rfl

/-- The attempt on a part of a larger state. -/
def onPart {τ : Type} (part : τ → σ) (put : τ → σ → τ) (x : Attempt σ ε α) : Attempt τ ε α :=
  ofFn fun t =>
    let (r, s) := x.exec (part t)
    (r, put t s)

@[simp] theorem exec_onPart {τ : Type} (part : τ → σ) (put : τ → σ → τ) (x : Attempt σ ε α)
    (t : τ) : (onPart part put x).exec t = ((x.exec (part t)).1, put t (x.exec (part t)).2) := rfl

/-- The attempt that only looks at the state. -/
def ofExcept (f : σ → Except ε α) : Attempt σ ε α := ofFn fun s => (f s, s)

end Attempt

end FlatArchive
