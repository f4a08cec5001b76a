-- SUMMARY: Groups of a pattern, their parts and names, and what can be repeated in them.
import FlatArchive.Pattern.Depth
import FlatArchive.Pattern.Options
import FlatArchive.Text.Alphanumeric

/-!
# Groups

A group is a list of alternatives, and an alternative a row of parts. A sign of repetition takes the
last part of its alternative and makes it a level deeper; a change of options stands among the parts
but cannot be repeated. A group may have a name, which begins with a letter or an underscore, goes
on with letters, numerals, underscores, points and square brackets, and ends at an angle bracket.
-/

namespace FlatArchive.Pattern

structure Part where
  depth : Nat
  isRepeatable : Bool
  deriving Repr, DecidableEq

/-- A group that is open, or the whole pattern. -/
structure Group where
  /-- The options outside, which are valid again after it. -/
  outside : Options
  /-- The depths of the alternatives that are read. -/
  alternatives : List Nat
  /-- The parts of the last alternative, the last in front. -/
  parts : List Part
  deriving Repr, DecidableEq

namespace Group

def start (outside : Options) : Group := ⟨outside, [], []⟩

/-- How deep the last alternative is. -/
def rowDepth (g : Group) : Nat := Depth.row (g.parts.map Part.depth)

/-- How deep the group is inside. -/
def depth (g : Group) : Nat := Depth.row (g.rowDepth :: g.alternatives)

/-- Add a part, which can be repeated. -/
def add (g : Group) (depth : Nat) : Group := { g with parts := ⟨depth, true⟩ :: g.parts }

/-- Add a change of options. -/
def addChange (g : Group) : Group := { g with parts := ⟨0, false⟩ :: g.parts }

/-- Go on with another alternative. -/
def next (g : Group) : Group := ⟨g.outside, g.rowDepth :: g.alternatives, []⟩

/-- Repeat the last part. -/
def repeat? (g : Group) : Option Group :=
  match g.parts with
  | [] => none
  | p :: ps => if p.isRepeatable then some { g with parts := ⟨p.depth + 1, true⟩ :: ps } else none

end Group

/-! ## Names -/

def isNameStart (c : Char) : Bool := c == '_' || Text.Letter.contains c

def isNameRest (c : Char) : Bool :=
  c == '_' || c == '.' || c == '[' || c == ']' || Text.Alphanumeric.contains c

/-- Read the name of a group and the bracket after it. -/
def name? (cs : List Char) : Option (List Char × List Char) :=
  match cs.dropWhile (· != '>') with
  | [] => none
  | _ :: rest =>
    match cs.takeWhile (· != '>') with
    | [] => none
    | c :: more =>
      if isNameStart c && more.all isNameRest then some (c :: more, rest) else none

theorem length_name?_lt {name cs rest : List Char} (h : name? cs = some (name, rest)) :
    rest.length < cs.length := by
  have hle := (cs.dropWhile_sublist (· != '>')).length_le
  unfold name? at h
  split at h <;> grind

end FlatArchive.Pattern
