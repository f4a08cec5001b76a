-- SUMMARY: Classes of characters in brackets, as far as one bracket goes.
import FlatArchive.Pattern.Depth
import FlatArchive.Pattern.Escape

/-!
# Classes of characters

A class lists its members in brackets: characters, ranges of them, escapes, classes with a name such
as `[:alpha:]`, and further brackets. A caret in front turns the class into all other characters,
which are not known among bytes. Two signs `&&`, `--` or `~~` combine what is listed in front of
them with what follows. Hyphens at the very front are members, and so is a closing bracket that
nothing is in front of. Reading a member uses up text (`length_member?_lt`).
-/

namespace FlatArchive.Pattern

/-- A bracket that is open, with the depths of what it lists. -/
structure Bracket where
  /-- Nothing but hyphens was listed. -/
  atFront : Bool
  /-- What is in front of the last operator. -/
  left : Option Nat
  /-- The members after the last operator. -/
  members : List Nat
  deriving Repr, DecidableEq

namespace Bracket

/-- Open a bracket, after the sign for it. -/
def open? (o : Options) (cs : List Char) : Option (Bracket × List Char) :=
  match o.skip cs with
  | '^' :: rest => if o.allScripts then some (⟨true, none, []⟩, rest) else none
  | rest => some (⟨true, none, []⟩, rest)

/-- Whether a hyphen or a closing bracket is a member, for nothing else is in front of it. -/
def listsSign (b : Bracket) (c : Char) : Bool :=
  b.atFront && (c == '-' || c == ']' && b.members.isEmpty)

/-- List a member. -/
def add (b : Bracket) (depth : Nat) : Bracket :=
  { b with atFront := false, members := depth :: b.members }

/-- How deep the set of all that is listed is. -/
def depth (b : Bracket) : Nat :=
  match b.left with
  | none => Depth.row b.members
  | some left => 1 + max left (Depth.row b.members)

/-- Go on after an operator. -/
def combine (b : Bracket) : Bracket := ⟨false, some b.depth, []⟩

end Bracket

/-! ## Members -/

/-- The names of classes. -/
def classNames : List String :=
  ["alnum", "alpha", "ascii", "blank", "cntrl", "digit", "graph", "lower", "print", "punct",
    "space", "upper", "word", "xdigit"]

/-- Read a class with a name after its bracket. It is negated if a caret is in front of the name. -/
def named? : List Char → Option (Bool × List Char)
  | ':' :: cs =>
    let negated := cs.head? == some '^'
    let cs := if negated then cs.drop 1 else cs
    match cs.dropWhile (· != ':') with
    | ':' :: ']' :: rest =>
      if classNames.contains (String.ofList (cs.takeWhile (· != ':'))) then some (negated, rest)
      else none
    | _ => none
  | _ => none

/-- Read an end of a range, or a member that is no range. -/
def atom? (o : Options) : List Char → Option (Atom × List Char)
  | [] => none
  | '\\' :: cs => escape? o cs
  | c :: cs => some (.char c false, cs)

/-- Whether a class may list something. -/
def isMember (o : Options) : Atom → Bool
  | .char c _ => o.admits c true
  | .kind => true
  | .place => false

/-- Whether a class may list one with a name: letters of both cases are known among bytes only, and
all characters but those of a class are not. -/
def isNamedClass (o : Options) (negated : Bool) : Bool :=
  if o.allScripts then !o.ignoreCase else !negated

/-- Whether a class may list the characters between two others. -/
def isRange (o : Options) : (first last : Atom) → Bool
  | .char a _, .char b _ => o.admits a true && o.admits b true && a ≤ b
  | _, _ => false

/-- Read a member: an atom, or a range of which it is the first end. A hyphen makes no range before
the bracket that closes the class, or before another hyphen. -/
def member? (o : Options) (cs : List Char) : Option (List Char) := do
  let (first, rest) ← atom? o cs
  match o.skip rest with
  | '-' :: more =>
    if o.peek more == some ']' || o.peek more == some '-' then
      if isMember o first then some ('-' :: more) else none
    else do
      let (last, rest) ← atom? o (o.skip more)
      if isRange o first last then some rest else none
  | rest => if isMember o first then some rest else none

theorem length_open?_le {o : Options} {b : Bracket} {cs rest : List Char}
    (h : Bracket.open? o cs = some (b, rest)) : rest.length ≤ cs.length := by
  have := o.length_skip_le cs
  unfold Bracket.open? at h
  split at h <;> grind

theorem length_named?_lt {negated : Bool} {cs rest : List Char}
    (h : named? cs = some (negated, rest)) : rest.length < cs.length := by
  unfold named? at h
  split at h
  case h_1 cs =>
    have hle := ((if cs.head? == some '^' then cs.drop 1 else cs).dropWhile_sublist
      (· != ':')).length_le
    grind
  case h_2 => simp at h

theorem length_atom?_lt {o : Options} {atom : Atom} {cs rest : List Char}
    (h : atom? o cs = some (atom, rest)) : rest.length < cs.length := by
  unfold atom? at h
  split at h
  case h_1 => simp at h
  case h_2 => exact Nat.lt_succ_of_lt (length_escape?_lt h)
  case h_3 => grind

theorem length_member?_lt {o : Options} {cs rest : List Char} (h : member? o cs = some rest) :
    rest.length < cs.length := by
  simp only [member?, Option.bind_eq_bind, Option.bind_eq_some_iff] at h
  obtain ⟨⟨first, tail⟩, hfirst, h⟩ := h
  have hlt := length_atom?_lt hfirst
  have hle := o.length_skip_le tail
  split at h
  case h_1 more hskip =>
    have hmore := o.length_skip_le more
    split at h
    · grind
    · simp only [Option.bind_eq_some_iff] at h
      obtain ⟨⟨last, tail'⟩, hlast, h⟩ := h
      have := length_atom?_lt hlast
      grind
  case h_2 => grind

end FlatArchive.Pattern
