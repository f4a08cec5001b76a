-- SUMMARY: Reading a pattern from front to back, and whether it can be read.
import FlatArchive.Pattern.CharClass
import FlatArchive.Pattern.Group

/-!
# Reading a pattern

A pattern is read part by part, with the groups and brackets that are open on stacks. A step reads
one part, sign or member and uses up text (`length_step?_lt`), so that reading comes to an end. A
pattern can be read if every step succeeds, nothing is open at the end, and it is not too deep.
-/

namespace FlatArchive.Pattern

/-- What is known after the front of a pattern. -/
structure State where
  options : Options
  /-- The names of the groups so far. -/
  names : List (List Char)
  group : Group
  /-- The groups around it, the innermost in front. -/
  around : List Group
  /-- The brackets that are open, the innermost in front. -/
  brackets : List Bracket
  deriving Repr, DecidableEq

namespace State

def start : State := ⟨.plain, [], .start .plain, [], []⟩

/-- A part that can be repeated was read. -/
def add (s : State) (depth : Nat) : State := { s with group := s.group.add depth }

/-! ## Groups -/

/-- Open a group whose inside has the given options. -/
def openGroup (s : State) (inside : Options) : State :=
  { s with options := inside, group := .start s.options, around := s.group :: s.around }

/-- Close the group, which becomes a part of the one around it. -/
def closeGroup (s : State) (outer : Group) (around : List Group) : State :=
  { s with
    options := s.group.outside, group := outer.add (s.group.depth + 1), around := around }

/-- Open a group with a name that no group before it has. -/
def openNamed? (s : State) (cs : List Char) : Option (State × List Char) := do
  let (name, rest) ← name? cs
  if s.names.contains name then none
  else some ({ s.openGroup s.options with names := name :: s.names }, rest)

/-- Change the options, up to a parenthesis for the rest of the group, and up to a colon for a group
that is opened so. -/
def change? (s : State) (cs : List Char) : Option (State × List Char) := do
  let letters := cs.takeWhile fun c => c != ':' && c != ')'
  let options ← s.options.change? letters
  match cs.dropWhile fun c => c != ':' && c != ')' with
  | ':' :: rest => some (s.openGroup options, rest)
  | ')' :: rest =>
    if letters.isEmpty then none
    else some ({ s with options := options, group := s.group.addChange }, rest)
  | _ => none

/-- Read on after an opening parenthesis. -/
def parenthesis? (s : State) (cs : List Char) : Option (State × List Char) :=
  match s.options.skip cs with
  | '?' :: 'P' :: '<' :: rest => s.openNamed? rest
  | '?' :: '<' :: rest => s.openNamed? rest
  | '?' :: rest => s.change? rest
  | rest => some (s.openGroup s.options, rest)

/-! ## Steps -/

/-- Read on outside of classes. -/
def part? (s : State) : List Char → Option (State × List Char)
  | [] => none
  | c :: cs =>
    match c with
    | '(' => s.parenthesis? cs
    | ')' =>
      match s.around with
      | [] => none
      | outer :: around => some (s.closeGroup outer around, cs)
    | '|' => some ({ s with group := s.group.next }, cs)
    | '[' => do
      let (b, rest) ← Bracket.open? s.options cs
      return ({ s with brackets := [b] }, rest)
    | '*' | '+' | '?' => do
      let group ← s.group.repeat?
      return ({ s with group := group }, if cs.head? == some '?' then cs.drop 1 else cs)
    | '{' => none
    | '^' | '$' => some (s.add 0, cs)
    | '.' => if s.options.allScripts then some (s.add 0, cs) else none
    | '\\' => do
      let (atom, rest) ← escape? s.options cs
      match atom with
      | .char c isByte => if s.options.admits c isByte then some (s.add 0, rest) else none
      | .kind | .place => some (s.add 0, rest)
    | c => if s.options.admits c false then some (s.add 0, cs) else none

/-- Close the innermost bracket `b`, which becomes a member of the one around it or a part. -/
def closeBracket (s : State) (b : Bracket) : (outer : List Bracket) → State
  | [] => { s.add (b.depth + 1) with brackets := [] }
  | c :: outer => { s with brackets := c.add (b.depth + 1) :: outer }

/-- Read on in the innermost bracket `b`. -/
def inBracket? (s : State) (b : Bracket) (outer : List Bracket) : List Char →
    Option (State × List Char)
  | [] => none
  | c :: cs =>
    let goOn (b : Bracket) (rest : List Char) := ({ s with brackets := b :: outer }, rest)
    if b.listsSign c then
      if s.options.admits c true then some (goOn { b.add 0 with atFront := c == '-' } cs) else none
    else
      match c, cs with
      | ']', rest => some (s.closeBracket b outer, rest)
      | '[', rest =>
        match named? rest with
        | some (negated, rest) =>
          if isNamedClass s.options negated then some (goOn (b.add 0) rest) else none
        | none => do
          let (inner, rest) ← Bracket.open? s.options rest
          return ({ s with brackets := inner :: b :: outer }, rest)
      | '-', '-' :: rest | '&', '&' :: rest | '~', '~' :: rest => some (goOn b.combine rest)
      | c, rest => (member? s.options (c :: rest)).map (goOn (b.add 0))

/-- Read the next part of a pattern, or the next member of a class that is open. -/
def step? (s : State) (cs : List Char) : Option (State × List Char) :=
  match s.brackets with
  | [] => s.part? cs
  | b :: outer => s.inBracket? b outer cs

/-! ## Steps use up text -/

theorem length_openNamed?_le {s s' : State} {cs rest : List Char}
    (h : s.openNamed? cs = some (s', rest)) : rest.length ≤ cs.length := by
  simp only [openNamed?, Option.bind_eq_bind, Option.bind_eq_some_iff] at h
  obtain ⟨⟨name, tail⟩, hname, h⟩ := h
  have := length_name?_lt hname
  grind

theorem length_change?_le {s s' : State} {cs rest : List Char}
    (h : s.change? cs = some (s', rest)) : rest.length ≤ cs.length := by
  have hle := (cs.dropWhile_sublist fun c => c != ':' && c != ')').length_le
  simp only [change?, Option.bind_eq_bind, Option.bind_eq_some_iff] at h
  obtain ⟨options, _, h⟩ := h
  split at h <;> grind

theorem length_parenthesis?_le {s s' : State} {cs rest : List Char}
    (h : s.parenthesis? cs = some (s', rest)) : rest.length ≤ cs.length := by
  have hle := s.options.length_skip_le cs
  unfold parenthesis? at h
  split at h
  case h_1 | h_2 => have := length_openNamed?_le h; grind
  case h_3 => have := length_change?_le h; grind
  case h_4 => grind

theorem length_part?_lt {s s' : State} {cs rest : List Char} (h : s.part? cs = some (s', rest)) :
    rest.length < cs.length := by
  cases cs with
  | nil => simp [part?] at h
  | cons c cs =>
    simp only [part?] at h
    split at h
    case h_1 => exact Nat.lt_succ_of_le (length_parenthesis?_le h)
    case h_4 =>
      simp only [Option.bind_eq_bind, Option.bind_eq_some_iff] at h
      obtain ⟨⟨b, tail⟩, hopen, h⟩ := h
      have := length_open?_le hopen
      grind
    case h_5 | h_6 | h_7 =>
      simp only [Option.bind_eq_bind, Option.bind_eq_some_iff] at h
      grind
    case h_12 =>
      simp only [Option.bind_eq_bind, Option.bind_eq_some_iff] at h
      obtain ⟨⟨atom, tail⟩, hescape, h⟩ := h
      have := length_escape?_lt hescape
      split at h <;> grind
    all_goals grind

theorem length_inBracket?_lt {s s' : State} {b : Bracket} {outer : List Bracket}
    {cs rest : List Char} (h : s.inBracket? b outer cs = some (s', rest)) :
    rest.length < cs.length := by
  cases cs with
  | nil => simp [inBracket?] at h
  | cons c cs =>
    simp only [inBracket?] at h
    split at h
    · grind
    · split at h
      case h_2 =>
        split at h
        case h_1 negated tail hnamed => have := length_named?_lt hnamed; grind
        case h_2 =>
          simp only [Option.bind_eq_bind, Option.bind_eq_some_iff] at h
          obtain ⟨⟨inner, tail⟩, hopen, h⟩ := h
          have := length_open?_le hopen
          grind
      case h_6 =>
        simp only [Option.map_eq_some_iff] at h
        obtain ⟨tail, hmember, h⟩ := h
        have := length_member?_lt hmember
        grind
      all_goals grind

theorem length_step?_lt {s s' : State} {cs rest : List Char} (h : s.step? cs = some (s', rest)) :
    rest.length < cs.length := by
  unfold step? at h
  split at h
  · exact length_part?_lt h
  · exact length_inBracket?_lt h

/-! ## The whole pattern -/

/-- Read on to the end of a pattern. -/
def readFrom (s : State) (cs : List Char) : Option State :=
  match _ : s.options.skip cs with
  | [] => some s
  | c :: tail =>
    match _ : s.step? (c :: tail) with
    | none => none
    | some (s', rest) => readFrom s' rest
termination_by cs.length
decreasing_by
  have hle := s.options.length_skip_le cs
  have hlt := length_step?_lt ‹s.step? _ = _›
  grind

end State

/-- Whether a pattern can be read. -/
def isReadable (cs : List Char) : Bool :=
  match State.start.readFrom cs with
  | none => false
  | some s => s.around.isEmpty && s.brackets.isEmpty && decide (s.group.depth ≤ Depth.limit)

/-- At the front there is nothing that a plus sign could repeat. -/
theorem isReadable_plus (cs : List Char) : isReadable ('+' :: cs) = false := by
  have hstart : State.start.readFrom ('+' :: cs) = none := by
    rw [State.readFrom]
    rfl
  simp [isReadable, hstart]

end FlatArchive.Pattern
