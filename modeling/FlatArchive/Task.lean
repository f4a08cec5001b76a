-- SUMMARY: Attempts that report events.
import FlatArchive.Attempt
import FlatArchive.Error
import FlatArchive.Event

/-!
# Tasks

A task is an attempt that also reports events. The events of a task that fails are those that it
reported before it did.
-/

namespace FlatArchive

/-- A state, and the events reported so far, oldest first. -/
structure Session (τ : Type) where
  state : τ
  events : List Event
  deriving Repr, DecidableEq

abbrev Task (τ : Type) := Attempt (Session τ) Error

namespace Task

variable {τ α : Type}

def report (e : Event) : Task τ Unit :=
  modify fun s => { s with events := s.events ++ [e] }

/-- An attempt that reports nothing. -/
def silent (x : Attempt τ Error α) : Task τ α :=
  Attempt.onPart Session.state (fun s t => { s with state := t }) x

/-- An attempt on files, with the error that its failure means. -/
def io (wrap : IoError → Error) (x : Attempt τ IoError α) : Task τ α :=
  silent (x.mapError wrap)

/-- Take the errors of a task as those of entry `index`. -/
def atEntry (index : Nat) (x : Task τ α) : Task τ α := x.mapError (Error.atEntry index)

/-- Run a task, with no events reported before. -/
def start (x : Task τ α) (t : τ) : Except Error α × Session τ := x.exec ⟨t, []⟩

end Task

end FlatArchive
