import ScalarLang.Text.Similarity
import ScalarLang.Text.Visible

/-!
# Use of the command

The command takes the name of a source file and some options.  An error in the
arguments is reported with a line that shows how the command is used, which names
what was given so far if that is known.
-/

set_option autoImplicit false

namespace ScalarLang

namespace CommandLine

inductive Slot where
  | input
  | output
deriving DecidableEq, Repr

def Slot.text : Slot → String
  | .input => "[INPUT]"
  | .output => "--output <OUTPUT>"

inductive LongOption where
  | output
  | help
  | version
deriving DecidableEq, Repr

namespace LongOption

def name : LongOption → String
  | .output => "output"
  | .help => "help"
  | .version => "version"

def text : LongOption → String
  | .output => Slot.output.text
  | .help => "--help"
  | .version => "--version"

def all : List LongOption := [.output, .help, .version]

def ofName? (name : String) : Option LongOption := all.find? fun option => option.name == name

/-- The better of two options for a name that is not known: the later one if they are
equally similar, and none that is not similar enough. -/
def better (name : String) (best : Option LongOption) (option : LongOption) :
    Option LongOption :=
  let share := Text.similarity name.toList option.name.toList
  let least :=
    match best with
    | none => ⟨7, 10⟩
    | some other => Text.similarity name.toList other.name.toList
  if share.atLeast least then some option else best

def similar? (name : String) : Option LongOption := all.foldl (better name) none

end LongOption

inductive Usage where
  /-- All arguments. -/
  | general
  /-- Some options, and whether the file name was given. -/
  | given (options : List LongOption) (named : Bool)
  /-- An option with the choice of the arguments that take values. -/
  | choice (option : LongOption)
deriving DecidableEq, Repr

namespace Usage

def arguments : Usage → List String
  | .general => ["[OPTIONS]", "[INPUT]"]
  | .given options named => options.map (·.text) ++ [if named then "<INPUT>" else "[INPUT]"]
  | .choice option => [option.text, "<INPUT|" ++ Slot.output.text ++ ">"]

def line (usage : Usage) : String :=
  "Usage: " ++ " ".intercalate ("syvora" :: usage.arguments) ++ "\n"

def ofGiven (options : List LongOption) (named : Bool) : Usage :=
  if options.isEmpty && !named then .general else .given options named

end Usage

inductive Hint where
  /-- It could have been meant as a file name. -/
  | fileName
  /-- It is similar to an option. -/
  | similar (option : LongOption)
deriving DecidableEq, Repr

def Hint.text (argument : String) : Hint → String
  | .fileName => "to pass '" ++ argument ++ "' as a value, use '-- " ++ argument ++ "'"
  | .similar option => "a similar argument exists: '--" ++ option.name ++ "'"

inductive UsageError where
  | missingValue (slot : Slot)
  | repeated (slot : Slot)
  /-- An argument that is not known. -/
  | unexpected (argument : String) (hint : Option Hint) (usage : Usage)
  /-- A value for an option that takes none. -/
  | unneededValue (option : LongOption) (value : String) (usage : Usage)
deriving DecidableEq, Repr

namespace UsageError

def body : UsageError → String
  | .missingValue slot => "a value is required for '" ++ slot.text ++ "' but none was supplied\n"
  | .repeated slot =>
    "the argument '" ++ slot.text ++ "' cannot be used multiple times\n\n" ++ Usage.general.line
  | .unexpected argument hint usage =>
    let shown := Text.visible argument
    let tip :=
      match hint with
      | some hint => "  tip: " ++ hint.text shown ++ "\n\n"
      | none => ""
    "unexpected argument '" ++ shown ++ "' found\n\n" ++ tip ++ usage.line
  | .unneededValue option value usage =>
    "unexpected value '" ++ Text.visible value ++ "' for '" ++ option.text ++
      "' found; no more were expected\n\n" ++ usage.line

def message (error : UsageError) : String :=
  "error: " ++ error.body ++ "\nFor more information, try '--help'.\n"

end UsageError

end CommandLine

end ScalarLang
