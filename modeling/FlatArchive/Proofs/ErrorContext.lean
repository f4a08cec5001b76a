-- SUMMARY: What context changes of an error, and what it leaves: the cause, its path and the text.
import FlatArchive.Error

/-!
# The context of an error

An error is a cause under layers, each with the number of an entry. Context is added step by step on
the way out, and a step looks only at the outermost layer or goes through to the cause. So what a
sequence of steps does is told by two lists that it extends or leaves alone: the layers, and the paths
of which the cause takes the first.
-/

namespace FlatArchive.Error

/-! ## A cause under layers -/

/-- The numbers of the entries around the cause, from the outside in. -/
def layers : Error → List Nat
  | entry index e => index :: layers e
  | _ => []

/-- The cause underneath all layers. -/
def innermost : Error → Error
  | entry _ e => innermost e
  | e => e

/-- The error as the cause under layers with these numbers, from the outside in. -/
def within (indices : List Nat) (e : Error) : Error := indices.foldr entry e

theorem within_layers (e : Error) : within e.layers e.innermost = e := by
  induction e with
  | entry index e ih => exact congrArg (entry index) ih
  | _ => rfl

theorem innermost_ne_entry (e : Error) (index : Nat) (cause : Error) :
    e.innermost ≠ entry index cause := by
  induction e with
  | entry _ e ih => exact ih
  | _ => exact Error.noConfusion

theorem format?_innermost (e : Error) : e.innermost.format? = e.format? := by
  induction e with
  | entry _ e ih => exact ih
  | _ => rfl

theorem innermost_eq_format_iff {e : Error} {f : FormatError} :
    e.innermost = format f ↔ e.format? = some f := by
  induction e with
  | entry _ e ih => exact ih
  | format f' =>
    rw [innermost, format?, Option.some.injEq, format.injEq]
    exact fun _ _ => Error.noConfusion
  | _ => exact ⟨nofun, nofun⟩

/-! ## One step -/

/-- One way to add context: by the functions for it, or with a layer built around the error. -/
inductive ContextStep where
  | entry (index : Nat)
  | path (p : Path)
  | layer (index : Nat)
  deriving Repr, DecidableEq

namespace ContextStep

def apply : ContextStep → Error → Error
  | entry index, e => e.atEntry index
  | path p, e => e.atPath p
  | layer index, e => .entry index e

def path? : ContextStep → Option Path
  | path p => some p
  | _ => none

def layer? : ContextStep → Option Nat
  | layer index => some index
  | _ => none

end ContextStep

/-- The cause with a path, if it is an error of input or output without one. -/
def fillPath (path : Option Path) : Error → Error
  | io context none cause => io context path cause
  | e => e

theorem fillPath_none (e : Error) : e.fillPath none = e := by
  unfold fillPath
  split <;> rfl

theorem fillPath_of_ne {e : Error} (h : ∀ context cause, e ≠ io context none cause)
    (path : Option Path) : e.fillPath path = e := by
  unfold fillPath
  split
  · exact absurd rfl (h _ _)
  · rfl

theorem fillPath_fillPath (p q : Option Path) (e : Error) :
    (e.fillPath p).fillPath q = e.fillPath (p.or q) := by
  cases e with
  | io context path cause =>
    cases path with
    | some path => rfl
    | none => cases p <;> rfl
  | _ => rfl

theorem format?_fillPath (p : Option Path) (e : Error) : (e.fillPath p).format? = e.format? := by
  cases e with
  | io context path cause => cases path <;> rfl
  | _ => rfl

theorem layers_atEntry (index : Nat) (e : Error) :
    (e.atEntry index).layers = if e.layers = [] then [index] else e.layers := by
  cases e <;> rfl

theorem innermost_atEntry (index : Nat) (e : Error) :
    (e.atEntry index).innermost = e.innermost := by
  cases e <;> rfl

theorem layers_atPath (p : Path) (e : Error) : (e.atPath p).layers = e.layers := by
  induction e with
  | entry index e ih => exact congrArg (index :: ·) ih
  | io context path cause => cases path <;> rfl
  | _ => rfl

theorem innermost_atPath (p : Path) (e : Error) :
    (e.atPath p).innermost = e.innermost.fillPath (some p) := by
  induction e with
  | entry index e ih => exact ih
  | io context path cause => cases path <;> rfl
  | _ => rfl

/-! ## Any steps, one after the other -/

def addContext (steps : List ContextStep) (e : Error) : Error :=
  steps.foldl (fun e step => step.apply e) e

/-- The number that reaches an error without layers before a layer is built around it, if one does. -/
def firstNumber? : List ContextStep → Option Nat
  | .entry index :: _ => some index
  | .path _ :: steps => firstNumber? steps
  | .layer _ :: _ | [] => none

/-- The layers that were built lie outside, the last of them outermost. The layers of the error stay;
an error that had none may take the number of the first entry that it comes to. -/
theorem layers_addContext (steps : List ContextStep) (e : Error) :
    (e.addContext steps).layers = (steps.filterMap ContextStep.layer?).reverse ++
      if e.layers = [] then (firstNumber? steps).toList else e.layers := by
  have hown : ∀ e : Error, (if e.layers = [] then [] else e.layers) = e.layers := by
    intro e
    split
    · next h => exact h.symm
    · rfl
  induction steps generalizing e with
  | nil => exact (hown e).symm
  | cons step steps ih =>
    change ((step.apply e).addContext steps).layers = _
    rw [ih]
    cases step with
    | entry index =>
      have hne : (e.atEntry index).layers ≠ [] := by
        rw [layers_atEntry]
        split
        · exact List.cons_ne_nil _ _
        · assumption
      rw [ContextStep.apply, if_neg hne, layers_atEntry]
      rfl
    | path p =>
      rw [ContextStep.apply, layers_atPath]
      rfl
    | layer index =>
      change _ = (index :: steps.filterMap ContextStep.layer?).reverse ++ if e.layers = [] then [] else _
      rw [hown, List.reverse_cons, List.append_assoc]
      rfl

/-- The cause takes the first path and keeps it. -/
theorem innermost_addContext (steps : List ContextStep) (e : Error) :
    (e.addContext steps).innermost = e.innermost.fillPath (steps.findSome? ContextStep.path?) := by
  induction steps generalizing e with
  | nil => exact (fillPath_none _).symm
  | cons step steps ih =>
    change ((step.apply e).addContext steps).innermost = _
    rw [ih]
    cases step with
    | entry index =>
      rw [ContextStep.apply, innermost_atEntry]
      rfl
    | layer index => rfl
    | path p =>
      rw [ContextStep.apply, innermost_atPath, fillPath_fillPath]
      rfl

theorem format?_addContext (steps : List ContextStep) (e : Error) :
    (e.addContext steps).format? = e.format? := by
  rw [← format?_innermost, innermost_addContext, format?_fillPath, format?_innermost]

/-! ## Text -/

/-- The causes of an error underneath all layers, from the nearest to the last. Only input and output,
whose error may have causes of its own, and a name that is no text have any. -/
def rootCauses : Error → List String
  | io _ _ cause => cause.message :: cause.causes
  | format (.badName fault) => [fault.message]
  | _ => []

/-- A line for each layer, one for the innermost error and one for each of its causes. -/
theorem message_cons_causes (e : Error) : e.message :: e.causes =
    (e.layers.map fun index => s!"Entry {index}")
      ++ e.innermost.message :: e.innermost.rootCauses := by
  induction e with
  | entry index e ih => exact congrArg (_ :: ·) ih
  | format f => cases f <;> rfl
  | io context path cause => rfl
  | _ => rfl

/-- Texts that begin with different characters differ. -/
theorem append_ne_append {front front' : String} {a b : Char} {as bs : List Char}
    (hfront : front.toList = a :: as) (hfront' : front'.toList = b :: bs) (hne : a ≠ b)
    (rest rest' : String) : front ++ rest ≠ front' ++ rest' := by
  intro h
  have hchars := congrArg String.toList h
  rw [String.toList_append, String.toList_append, hfront, hfront'] at hchars
  exact hne (List.head_eq_of_cons_eq hchars)

theorem entry_ne_message (index : Nat) (f : FormatError) : s!"Entry {index}" ≠ f.message := by
  cases f with
  | badName fault =>
    -- Both begin with the same word, but behind it stands a digit in one and a letter in the other.
    intro h
    have hcut : "Entry " ++ index.repr = "Entry " ++ ("name is not valid UTF-8: " ++ fault.message) := by
      rw [← String.append_assoc]
      exact h
    have hletter : 'n' ∈ index.repr.toList := by
      rw [(String.append_right_inj _).1 hcut, String.toList_append]
      exact List.mem_append_left _ (by decide)
    rw [Nat.toList_repr] at hletter
    exact absurd (Nat.isDigit_of_mem_toDigits (by decide) (by decide) hletter) (by decide)
  | badLayout fault =>
    change "Entry " ++ index.repr ≠ "Bytemuck: " ++ fault.text
    exact append_ne_append rfl rfl (by decide) _ _
  | tooManyEntries count =>
    change "Entry " ++ index.repr ≠
      "Too many entries: " ++ count.repr ++ " (at most " ++ maxEntries.repr ++ ")"
    rw [String.append_assoc, String.append_assoc, String.append_assoc]
    exact append_ne_append rfl rfl (by decide) _ _
  | noEntries =>
    change "Entry " ++ index.repr ≠ "No entries to pack" ++ ""
    exact append_ne_append rfl rfl (by decide) _ _
  | truncated field expected actual =>
    change "Entry " ++ index.repr ≠
      "Truncated " ++ field.text ++ ": expected " ++ expected.repr ++ " bytes, got " ++ actual.repr
    rw [String.append_assoc, String.append_assoc, String.append_assoc, String.append_assoc]
    exact append_ne_append rfl rfl (by decide) _ _

theorem message_ne_fault (fault : Text.Utf8.Error) :
    fault.message ≠ (FormatError.badName fault).message := by
  intro h
  have hlength : fault.message.length = ("Entry name is not valid UTF-8: " ++ fault.message).length :=
    congrArg String.length h
  have hpos : 0 < "Entry name is not valid UTF-8: ".length := by decide +kernel
  rw [String.length_append] at hlength
  omega

/-- The message of a format error stands on one line only. -/
theorem count_message {e : Error} {f : FormatError} (h : e.format? = some f) :
    (e.message :: e.causes).count f.message = 1 := by
  have hlayers : f.message ∉ e.layers.map fun index => s!"Entry {index}" := by
    rw [List.mem_map]
    rintro ⟨index, -, hindex⟩
    exact entry_ne_message index f hindex
  have hcause : f.message ∉ rootCauses (format f) := by
    cases f with
    | badName fault =>
      intro hmem
      exact message_ne_fault fault (List.mem_singleton.1 hmem).symm
    | _ => exact List.not_mem_nil
  rw [message_cons_causes, innermost_eq_format_iff.2 h, List.count_append,
    List.count_eq_zero.2 hlayers, Nat.zero_add]
  change (f.message :: _).count f.message = 1
  rw [List.count_cons_self, List.count_eq_zero.2 hcause]

/-- Whatever steps add context to an error, it stays the same cause under layers. The cause takes the
first path if it is an error of input or output that has none, and otherwise stays as it is; the format
error is the same. A layer that was built around the error lies outside, and the number of an entry
makes a layer only where none is. The text has a line for each layer, one for the innermost error and
one for each of its causes, and the message of a format error on one of them. -/
theorem addContext_keeps_cause (e : Error) (steps : List ContextStep) :
    within e.layers e.innermost = e
      ∧ (∀ index cause, e.innermost ≠ entry index cause)
      ∧ (e.addContext steps).format? = e.format?
      ∧ ∃ indices core first rest,
          e.addContext steps = within indices core
          ∧ (indices = (steps.filterMap ContextStep.layer?).reverse ++
              if e.layers = [] then (firstNumber? steps).toList else e.layers)
          ∧ (∀ context cause, e.innermost = io context none cause →
              core = io context (steps.findSome? ContextStep.path?) cause)
          ∧ ((∀ context cause, e.innermost ≠ io context none cause) → core = e.innermost)
          ∧ first :: rest = (indices.map fun index => s!"Entry {index}")
              ++ core.message :: core.rootCauses
          ∧ (e.addContext steps).trace =
              first ++ "\n" ++ String.join (rest.map fun line => s!"\tCaused by: {line}\n")
          ∧ ∀ f, e.format? = some f → (first :: rest).count f.message = 1 := by
  refine ⟨within_layers e, innermost_ne_entry e, format?_addContext steps e,
    (e.addContext steps).layers, (e.addContext steps).innermost, (e.addContext steps).message,
    (e.addContext steps).causes, (within_layers _).symm, layers_addContext steps e, ?_, ?_,
    message_cons_causes _, rfl, fun f hf => count_message ((format?_addContext steps e).trans hf)⟩
  · intro context cause hio
    rw [innermost_addContext, hio]
    rfl
  · intro hne
    rw [innermost_addContext, fillPath_of_ne hne]

/-- One line for the innermost error and one for its cause is not all that there can be, nor always that
much: an error of the caller's making shows its own causes too, and an error without layers is told by
the message alone. -/
theorem lines_of_nested_and_bare :
    let nested := io "Read image" none (.custom "Other" ⟨"connection lost", ["timed out"]⟩)
    let bare := fileNotFound (.ofString "a")
    ((nested.addContext [.entry 1]).layers = [1]
        ∧ (nested.addContext [.entry 1]).trace =
          "Entry 1\n\tCaused by: Read image\n\tCaused by: connection lost\n\tCaused by: timed out\n")
      ∧ (bare.addContext []).trace = "File not found: a\n" := by
  decide +kernel

/-- The first path is kept, and a number of an entry adds no second layer. -/
example : ((io "Failed to read file" none (.os .inputOutput)).addContext
      [.path (.ofString "a"), .entry 2, .path (.ofString "b"), .entry 3, .layer 7]).trace =
    "Entry 7\n\tCaused by: Entry 2\n\tCaused by: Failed to read file (a)\n"
      ++ "\tCaused by: Input/output error (os error 5)\n" := by
  decide +kernel

end FlatArchive.Error
