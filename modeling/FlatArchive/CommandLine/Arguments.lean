-- SUMMARY: The arguments of the command line.

/-!
# Arguments

A command line is a subcommand with its own arguments, after at most one of two options that choose
how much is logged. An option may be a word or a letter; the value of one that takes a value follows
in the same argument, with or without an equals sign, or in the next, unless that one looks like an
option. After `--` nothing is an option any more.

Arguments are read from front to back. One that is not known ends the reading, and so does a request
for help or for the version. Only then it is looked whether an option was given twice or without its
value, and whether everything is there.
-/

namespace FlatArchive.CommandLine

inductive Command where
  | pack (image : String) (inputs : List String)
  | packDirectory (image dir : String)
  | unpack (image dir : String)
  | list (image : String)
  deriving Repr, DecidableEq

/-- How much is to be logged. -/
inductive Verbosity where
  | quiet
  | normal
  | verbose
  deriving Repr, DecidableEq

structure Arguments where
  verbosity : Verbosity
  command : Command
  deriving Repr, DecidableEq

/-- Why a command line is not carried out. -/
inductive Refusal where
  /-- It cannot be understood. -/
  | usage
  | help
  /-- The version is asked for, of the program or of a subcommand. -/
  | version (subcommand : Option String)
  deriving Repr, DecidableEq

/-! ## Options -/

/-- An argument as an option, if it looks like one. -/
inductive Shape where
  /-- The end of all options. -/
  | endOfOptions
  /-- A word after two dashes, and what follows its first equals sign. -/
  | long (word : String) (value : Option String)
  /-- Letters after one dash. -/
  | short (letters : List Char)
  | plain (text : String)
  deriving Repr, DecidableEq

def shape (arg : String) : Shape :=
  match arg.toList with
  | ['-', '-'] => .endOfOptions
  | '-' :: '-' :: rest =>
    let rest := rest.dropWhile (· == '-')
    let word := String.ofList (rest.takeWhile (· != '='))
    match rest.dropWhile (· != '=') with
    | [] => .long word none
    | _ :: value => .long word (some (String.ofList value))
  | '-' :: c :: rest => .short (c :: rest)
  | _ => .plain arg

/-- What an option that is known everywhere asks for, and the refusal of all others. -/
def refuseWord (subcommand : Option String) : (word : String) → Refusal
  | "help" => .help
  | "version" => .version subcommand
  | _ => .usage

/-- What a letter that is known everywhere asks for, and the refusal of all others. -/
def refuseLetter (subcommand : Option String) : Char → Refusal
  | 'h' => .help
  | 'V' => .version subcommand
  | _ => .usage

def letterVerbosity : Char → Option Verbosity
  | 'v' => some .verbose
  | 'q' => some .quiet
  | _ => none

def wordVerbosity : String → Option Verbosity
  | "verbose" => some .verbose
  | "quiet" => some .quiet
  | _ => none

/-- The verbosities that letters stand for. -/
def letterVerbosities (letters : List Char) : Except Refusal (List Verbosity) :=
  letters.mapM fun c => match letterVerbosity c with
    | some v => .ok v
    | none => .error (refuseLetter none c)

/-! ## Subcommands -/

inductive Subcommand where
  | pack
  | unpack
  | list
  deriving Repr, DecidableEq

namespace Subcommand

def ofName? : String → Option Subcommand
  | "pack" => some .pack
  | "unpack" => some .unpack
  | "list" => some .list
  | _ => none

def name : Subcommand → String
  | pack => "pack"
  | unpack => "unpack"
  | list => "list"

/-- The most plain arguments that a subcommand takes, if there is a bound. -/
def plainLimit : Subcommand → Option Nat
  | pack => none
  | unpack => some 2
  | list => some 1

end Subcommand

/-- What was found so far, last first: each directory option with its value, and the plain
arguments. -/
structure Found where
  dirs : List (Option String)
  plain : List String
  deriving Repr, DecidableEq

namespace Found

/-- The value of an option in the same argument, without the equals signs in front. -/
def attachedValue (value : String) : String :=
  String.ofList (value.toList.dropWhile (· == '='))

def addDir (f : Found) (value : Option String) : Found := { f with dirs := value :: f.dirs }

/-- Give the last directory option its value. -/
def fillDir (f : Found) (value : String) : Found :=
  { f with dirs := some value :: f.dirs.drop 1 }

/-- Add a plain argument, if the subcommand takes one more. -/
def addPlain (sub : Subcommand) (f : Found) (text : String) : Except Refusal Found :=
  if sub.plainLimit.any (· ≤ f.plain.length) then .error .usage
  else .ok { f with plain := text :: f.plain }

end Found

/-- Read the arguments of a subcommand; `waiting` says whether the value of the directory option is
still to come. -/
def sort (sub : Subcommand) (waiting : Bool) (f : Found) : List String → Except Refusal Found
  | [] => .ok f
  | arg :: args =>
    match shape arg with
    | .endOfOptions => args.foldlM (Found.addPlain sub) f
    | .plain text =>
      if waiting then sort sub false (f.fillDir text) args
      else do
        let f ← f.addPlain sub text
        sort sub false f args
    | .long word value =>
      if sub = .pack ∧ word = "dir" then sortDir value args else .error (refuseWord sub.name word)
    | .short [] => .error .usage
    | .short (c :: rest) =>
      if sub = .pack ∧ c = 'd' then
        sortDir (if rest.isEmpty then none else some (String.ofList rest)) args
      else .error (refuseLetter sub.name c)
where
  /-- Read on after a directory option with its value in the same argument, or without one. -/
  sortDir (value : Option String) (args : List String) : Except Refusal Found :=
    sort sub value.isNone (f.addDir (value.map Found.attachedValue)) args

/-- The command that a subcommand makes of its arguments, if it has them all. -/
def commandOf (sub : Subcommand) (f : Found) : Except Refusal Command :=
  match sub, f.dirs, f.plain.reverse with
  | .pack, [], image :: input :: inputs => .ok (.pack image (input :: inputs))
  | .pack, [some dir], [image] => .ok (.packDirectory image dir)
  | .unpack, _, [image, dir] => .ok (.unpack image dir)
  | .list, _, [image] => .ok (.list image)
  | _, _, _ => .error .usage

def parseCommand (sub : Subcommand) (args : List String) : Except Refusal Command := do
  commandOf sub (← sort sub false ⟨[], []⟩ args)

/-- What `help` with some arguments asks for. -/
def refuseHelp : List String → Refusal
  | [] => .help
  | [name] => if name = "help" ∨ (Subcommand.ofName? name).isSome then .help else .usage
  | _ => .usage

/-- The one verbosity that may be chosen. -/
def chosen : List Verbosity → Except Refusal Verbosity
  | [] => .ok .normal
  | [v] => .ok v
  | _ => .error .usage

/-- Read the arguments that come after options that chose `verbosities`. -/
def parseAfter (verbosities : List Verbosity) : List String → Except Refusal Arguments
  | [] => .error .usage
  | arg :: args =>
    match shape arg with
    | .endOfOptions => .error .usage
    | .plain name =>
      match Subcommand.ofName? name with
      | some sub => do
        let command ← parseCommand sub args
        return ⟨← chosen verbosities, command⟩
      | none => .error (if name = "help" then refuseHelp args else .usage)
    | .long word _ =>
      match wordVerbosity word with
      | some v => parseAfter (v :: verbosities) args
      | none => .error (refuseWord none word)
    | .short letters => do
      parseAfter (verbosities ++ (← letterVerbosities letters)) args

/-- The meaning of a command line. -/
def Arguments.parse (args : List String) : Except Refusal Arguments := parseAfter [] args

end FlatArchive.CommandLine
