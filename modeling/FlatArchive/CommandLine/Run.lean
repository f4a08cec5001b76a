-- SUMMARY: What the command line does with the files, prints and logs.
import FlatArchive.CommandLine.Arguments
import FlatArchive.CommandLine.Directive
import FlatArchive.Pack
import FlatArchive.Unpack

/-!
# Running a command

A command works on the files, writes to the two outputs and ends with a code. The log goes to the
error output, followed by a report of the error if the command failed. A listing is printed only if
the whole image can be read.
-/

namespace FlatArchive.CommandLine

/-- What a command leaves behind besides its changes to the files. -/
inductive Outcome where
  /-- The arguments could not be understood. -/
  | usage
  | help
  | finished (code : Nat) (output errors : String)
  deriving Repr, DecidableEq

/-! ## Text -/

/-- A number at the right of a column. -/
def column (width : Nat) (n : Nat) : String :=
  let digits := toString n
  String.ofList (List.replicate (width - digits.length) ' ') ++ digits

def listingLine (l : Listed) : String :=
  column 3 l.index ++ " " ++ column 12 l.size ++ " " ++ l.name ++ "\n"

/-- A text with every line but the first indented. -/
def hang (indent : String) (text : String) : String :=
  String.join (text.toList.map fun c => if c = '\n' then "\n" ++ indent else c.toString)

/-- The causes of an error, numbered if there are several. -/
def reportCauses (causes : List String) : String :=
  match causes with
  | [] => ""
  | [cause] => "\n\nCaused by:\n    " ++ hang "    " cause
  | causes =>
    "\n\nCaused by:" ++ String.join (causes.mapIdx fun i cause =>
      "\n" ++ column 5 i ++ ": " ++ hang "       " cause)

/-- An error as the command line reports it. -/
def reportError (e : Error) : String :=
  "Error: " ++ e.message ++ reportCauses e.causes ++ "\n"

/-! ## Commands -/

/-- The log filter that a verbosity stands for. -/
def Verbosity.filter : Verbosity → Filter
  | quiet => .from .warn
  | normal => .from .info
  | verbose => .from .debug

/-- Run a task for its effects, and print nothing. -/
def silently {α : Type} (x : Task FileSystem α) : Task FileSystem String := do
  let _ ← x
  return ""

/-- Carry out a command, and give what it prints. -/
def perform : Command → Task FileSystem String
  | .pack image inputs => silently (pack (.ofString image) (inputs.map .ofString))
  | .packDirectory image dir => silently (packDirectory (.ofString image) (.ofString dir))
  | .unpack image dir => silently (unpack (.ofString image) (.ofString dir))
  | .list image => do
    let listed ← list (← get).state (.ofString image)
    return String.join (listed.map listingLine)

/-- The program's name and version; a subcommand has none of its own. -/
def versionLine : (subcommand : Option String) → String
  | none => "flatimg 0.1.0\n"
  | some name => "flatimg-" ++ name ++ " \n"

/-- Run a command line on the files. What a text for the log filter asks for, if it can be read,
comes before what the options say. -/
def run (args : List String) (logFilter : Option String) (fs : FileSystem) :
    Outcome × FileSystem :=
  match Arguments.parse args with
  | .error .usage => (.usage, fs)
  | .error .help => (.help, fs)
  | .error (.version subcommand) => (.finished 0 (versionLine subcommand) "", fs)
  | .ok arguments =>
    let filter := (logFilter.bind parseLogFilter).getD [.everything arguments.verbosity.filter]
    match (perform arguments.command).start fs with
    | (.ok output, s) => (.finished 0 output (filter.log s.events), s.state)
    | (.error e, s) => (.finished 1 "" (filter.log s.events ++ reportError e), s.state)

end FlatArchive.CommandLine
