-- SUMMARY: Log filters as they are written in text, as directives with commas between them.
import FlatArchive.CommandLine.FieldValue
import FlatArchive.CommandLine.LogFilter
import FlatArchive.Text.Alphanumeric
import FlatArchive.Text.Blank
import FlatArchive.Text.Utf8

/-!
# Directives

A directive is a level by its name or number, or how the names begin that it is about. It may be
narrowed by brackets: `[span]` is about what happens in a span, `[{field}]` about what has a field,
and `[{field=value}]` about what has a field with a value. An equals sign and a level may follow;
without them the directive is about all levels.

The commands log outside of all spans and compare no values, so that a directive about a span or a
value, once it can be read, has no effect.
-/

namespace FlatArchive.CommandLine

inductive Directive where
  | rule (r : LogRule)
  /-- A directive that no event can be about. -/
  | inert
  deriving Repr, DecidableEq

namespace Directive

/-! ## Levels -/

/-- A number, with a plus sign or without one. -/
def number? (text : List Char) : Option Nat :=
  let digits := match text with
    | '+' :: digits => digits
    | digits => digits
  if digits.isEmpty || !digits.all Char.isDigit then none
  else some (digits.foldl (fun n c => n * 10 + (c.toNat - '0'.toNat)) 0)

def filterOfNumber : Nat → Option Filter
  | 0 => some .off
  | 1 => some (.from .error)
  | 2 => some (.from .warn)
  | 3 => some (.from .info)
  | 4 => some (.from .debug)
  | 5 => some (.from .trace)
  | _ => none

/-- The filter of a level's name, in any case, or of its number. -/
def filter? (text : List Char) : Option Filter :=
  match number? text with
  | some n => filterOfNumber n
  | none =>
    match String.ofList (text.map Char.toLower) with
    | "off" => some .off
    | "error" => some (.from .error)
    | "warn" => some (.from .warn)
    | "info" => some (.from .info)
    | "debug" => some (.from .debug)
    | "trace" => some (.from .trace)
    | _ => none

/-- The filter that follows an equals sign, where nothing means all levels. -/
def filterAfter (text : List Char) : Option Filter :=
  if text.isEmpty then some (.from .trace) else filter? text

/-! ## Reading -/

/-- Whether a directive may begin with a character, apart from a bracket. -/
def isStart (c : Char) : Bool :=
  c == '-' || c == ':' || c == '_' || Text.Alphanumeric.contains c

/-- Read a directive of a single word. -/
def ofWord (word : String) : Directive :=
  match filter? word.toList with
  | some filter => .rule (.everything filter)
  | none => .rule ⟨word, none, .from .trace⟩

/-- The name of a field, or none if a value is asked of it that can be read. -/
def field? (text : List Char) : Option (Option String) :=
  let name := String.ofList (text.takeWhile (· != '='))
  match text.dropWhile (· != '=') with
  | [] => if text.isEmpty then none else some (some name)
  | _ :: value =>
    if FieldValue.isReadable (value.takeWhile (· != '=')) then some none else none

/-! ## Cutting

The parts of a directive are found in the text without the blanks around it, but they are cut out of
the whole text at the same places, so that blanks in front shift every cut. Places are counted in
bytes. -/

/-- How many bytes characters take. -/
def width (cs : List Char) : Nat := (Text.Utf8.encodeList cs).length

/-- The text between two places. -/
def cut (text : Bytes) (start stop : Nat) : String :=
  Text.Utf8.decodeLossy ((text.take stop).drop start)

/-- The text from a place on. -/
def cutFrom (text : Bytes) (start : Nat) : String := cut text start text.length

/-- The filter after the brackets that end before place `i`, where `after` is what is seen there. -/
def filterAt (text : Bytes) (i : Nat) : (after : List Char) → Option Filter
  | [] => some (.from .trace)
  | '=' :: _ => filterAfter (cutFrom text (i + 1)).toList
  | _ => none

/-- Read on after the bracket that ends before place `i` and narrows a directive about `target`;
`inside` is what is seen there. -/
def ofBracket (text : Bytes) (target : String) (i : Nat) (inside : List Char) :
    Option Directive :=
  let isInside := fun c => c != ']' && c != '\x7B'
  let spanEnd := i + width (inside.takeWhile isInside)
  match inside.dropWhile isInside with
  | ']' :: after => do
    let _ ← filterAt text (spanEnd + 1) after
    return .inert
  | '\x7B' :: fields =>
    let fieldEnd := spanEnd + 1 + width (fields.takeWhile (· != '\x7D'))
    match fields.dropWhile (· != '\x7D') with
    | '\x7D' :: ']' :: after => do
      let name ← field? (cut text (spanEnd + 1) fieldEnd).toList
      let filter ← filterAt text (fieldEnd + 2) after
      if name.isSome && cut text i spanEnd == "" then return .rule ⟨target, name, filter⟩
      else return .inert
    | _ => none
  | _ => none

/-- Read a directive. -/
def parse (directive : String) : Option Directive :=
  let text := Text.Utf8.encode directive
  let seen := Text.Blank.trim directive.toList
  match seen with
  | [] => none
  | '[' :: inside => ofBracket text "" 1 inside
  | c :: _ =>
    if !isStart c then none
    else
      let isWord := fun c => c != '=' && c != '['
      let i := width (seen.takeWhile isWord)
      let target := cut text 0 i
      match seen.dropWhile isWord with
      | [] => some (ofWord directive)
      | '[' :: inside => ofBracket text target (i + 1) inside
      | _ =>
        (filterAfter (cutFrom text (i + 1)).toList).map fun filter => .rule ⟨target, none, filter⟩

def rule? : Directive → Option LogRule
  | rule r => some r
  | inert => none

end Directive

/-- The log filter that a text asks for, none if it cannot be read. A text without directives keeps
errors only. -/
def parseLogFilter (text : String) : Option LogFilter :=
  match (text.splitOn ",").filter (· ≠ "") with
  | [] => some [.everything (.from .error)]
  | parts => do
    let directives ← parts.mapM Directive.parse
    return directives.filterMap Directive.rule?

end FlatArchive.CommandLine
