-- SUMMARY: Log filters whose rules tell events apart by the name they are logged under and by their fields.
import FlatArchive.Event

/-!
# Log filters

A log filter is a list of rules. A rule is about the events that are logged under a name with a
given beginning and, if the rule names a field, have that field. The most specific rule about an
event decides whether it is logged: the one with the longest beginning; of several such, one that
names a field, and the field that is last in the alphabet; and of equals the last. An event that no
rule is about is not logged. One rule about everything does what a plain filter does
(`log_everything`).
-/

namespace FlatArchive

namespace Event

/-- The name under which events are logged. -/
def logName : String := "flatimg::report"

/-- The fields of an event in the log: its message, and the numbers that belong to it. -/
def fieldNames (e : Event) : List String := "message" :: e.fields.map (·.1)

end Event

structure LogRule where
  /-- How the names begin that the rule is about. -/
  target : String
  /-- The field that an event must have. -/
  field : Option String
  filter : Filter
  deriving Repr, DecidableEq

namespace LogRule

def everything (filter : Filter) : LogRule := ⟨"", none, filter⟩

def isAbout (r : LogRule) (e : Event) : Bool :=
  r.target.toList.isPrefixOf Event.logName.toList
    && match r.field with
      | none => true
      | some name => e.fieldNames.contains name

/-- Whether a rule is at least as specific as another about the same event. -/
def atLeast (r other : LogRule) : Bool :=
  if r.target.length ≠ other.target.length then other.target.length < r.target.length
  else match r.field, other.field with
    | _, none => true
    | none, some _ => false
    | some name, some otherName => otherName ≤ name

end LogRule

abbrev LogFilter := List LogRule

namespace LogFilter

/-- The more specific of a rule and what was found before it. -/
def choose (found : Option LogRule) (r : LogRule) : Option LogRule :=
  match found with
  | none => some r
  | some best => if r.atLeast best then some r else some best

/-- The rule that decides about an event. -/
def rule? (f : LogFilter) (e : Event) : Option LogRule :=
  (f.filter fun r => r.isAbout e).foldl choose none

def admits (f : LogFilter) (e : Event) : Bool :=
  match f.rule? e with
  | none => false
  | some r => r.filter.admits e.level

/-- The log of a list of events. -/
def log (f : LogFilter) (events : List Event) : String :=
  String.join ((events.filter f.admits).map Event.logLine)

theorem log_everything (filter : Filter) (events : List Event) :
    log [.everything filter] events = filter.log events := rfl

end LogFilter

end FlatArchive
