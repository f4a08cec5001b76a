-- SUMMARY: What packing and unpacking report on their way, and the lines that a log gets.
import FlatArchive.Path.Basic

/-!
# Events

Packing and unpacking never print: they report events, and the caller chooses what becomes of them.
In a log each event is one line: its level, its text, and the numbers that belong to it. Progress is
logged as information and anomalies as warnings.
-/

namespace FlatArchive

open Text

inductive Event where
  | packed (index : Nat) (name : String) (size : Nat)
  /-- The name did not fit its field and was shortened to `stored`. -/
  | nameTruncated (index : Nat) (name stored : String)
  | imageWritten (path : Path) (entries bytes : Nat)
  | createdDir (path : Path)
  | unpacked (index : Nat) (name : String) (size : Nat) (path : Path)
  /-- The entry had an empty name and was given this one. -/
  | generatedName (index : Nat) (name : String)
  | emptyImage
  /-- Bytes that follow the last entry. -/
  | trailingData (bytes : Nat)
  deriving Repr, DecidableEq

/-! ## Logging -/

inductive Level where
  | trace
  | debug
  | info
  | warn
  | error
  deriving Repr, DecidableEq

namespace Level

def rank : Level → Nat
  | trace => 0
  | debug => 1
  | info => 2
  | warn => 3
  | error => 4

/-- The level's word, in a column of five. -/
def label : Level → String
  | trace => "TRACE"
  | debug => "DEBUG"
  | info => " INFO"
  | warn => " WARN"
  | error => "ERROR"

end Level

/-- What a log keeps: nothing, or all from a level upwards. -/
inductive Filter where
  | off
  | from (level : Level)
  deriving Repr, DecidableEq

namespace Filter

def admits : Filter → Level → Bool
  | off, _ => false
  | .from least, level => least.rank ≤ level.rank

end Filter

namespace Event

def level : Event → Level
  | packed .. | imageWritten .. | unpacked .. => .info
  | createdDir _ => .debug
  | nameTruncated .. | generatedName .. | emptyImage | trailingData _ => .warn

def message : Event → String
  | packed _ name _ => s!"packed {name}"
  | nameTruncated _ name stored => s!"name {Quoted.text name} truncated to {Quoted.text stored}"
  | imageWritten path _ _ => s!"wrote image {path.display}"
  | createdDir path => s!"created directory {path.display}"
  | unpacked _ name _ path => s!"unpacked {name} -> {path.display}"
  | generatedName _ name => s!"entry has no name, using {name}"
  | emptyImage => "image contains no entries"
  | trailingData bytes => s!"{bytes} bytes of unused data at end of image"

/-- The numbers that belong to an event, by their keys. -/
def fields : Event → List (String × Nat)
  | packed index _ size | unpacked index _ size _ => [("index", index), ("size", size)]
  | nameTruncated index _ _ | generatedName index _ => [("index", index)]
  | imageWritten _ entries bytes => [("entries", entries), ("bytes", bytes)]
  | trailingData bytes => [("bytes", bytes)]
  | createdDir _ | emptyImage => []

/-- A character as a log shows it: those that could steer a terminal are escaped. -/
def logChar (c : Char) : String :=
  match c with
  | '\x07' => "\\x07"
  | '\x08' => "\\x08"
  | '\x0c' => "\\x0c"
  | '\x1b' => "\\x1b"
  | '\x7f' => "\\x7f"
  | c =>
    if 0x80 ≤ c.toNat ∧ c.toNat ≤ 0x9F then "\\u\x7b" ++ Quoted.hexDigits c.toNat ++ "\x7d"
    else c.toString

def logLine (e : Event) : String :=
  e.level.label ++ " " ++ String.join (e.message.toList.map logChar)
    ++ String.join (e.fields.map fun (key, value) => s!" {key}={value}") ++ "\n"

end Event

/-- The log of a list of events. -/
def Filter.log (filter : Filter) (events : List Event) : String :=
  String.join ((events.filter fun e => filter.admits e.level).map Event.logLine)

end FlatArchive
