import ScalarLang.CommandLine.Run

/-!
# The program

The command on the files of the system.  An object is written as its symbols, one to
a line.
-/

set_option autoImplicit false

namespace ScalarLang

namespace CommandLine

/-- The reason of a failure with a number and a text of the system.  Some calls give
the number negated. -/
def FileError.ofCode (code : UInt32) (details : String) : FileError :=
  let number := if code < 0x80000000 then code else 0 - code
  if number = 2 then .notFound
  else if number = 20 then .notFolder
  else if number = 21 then .isFolder
  else if number = 36 then .nameTooLong
  else .other (details ++ " (os error " ++ toString number ++ ")")

def FileError.ofSystem : IO.Error → FileError
  | .noFileOrDirectory _ code details => .ofCode code details
  | .inappropriateType _ code details => .ofCode code details
  | .permissionDenied _ code details => .ofCode code details
  | .invalidArgument _ code details => .ofCode code details
  | .resourceExhausted _ code details => .ofCode code details
  | .otherError code details => .ofCode code details
  | error => .other (toString error)

def objectText (object : ObjectFile) : String :=
  String.join (object.symbols.map fun symbol =>
    symbol.name ++ " " ++ symbol.kind.name ++ " " ++ symbol.linkage.text ++ "\n")

def readText (path : String) : IO (Except FileError String) := do
  try
    let data ← IO.FS.readBinFile path
    match String.fromUTF8? data with
    | some text => return .ok text
    | none => return .error .notText
  catch error => return .error (.ofSystem error)

def writeText (path : String) (text : String) : IO (Except FileError Unit) := do
  try
    IO.FS.writeFile path text
    return .ok ()
  catch error => return .error (.ofSystem error)

/-- Whether the terminal shows colours: it has a name, is not a plain one, and the
user did not refuse them. -/
def showsColours : IO Bool := do
  match ← IO.getEnv "TERM", ← IO.getEnv "NO_COLOR" with
  | some terminal, none => return terminal != "dumb"
  | _, _ => return false

def FileAccess.system : FileAccess IO String :=
  ⟨readText, fun object => .ok (objectText object), writeText⟩

end CommandLine

end ScalarLang

open ScalarLang.CommandLine in
def main (arguments : List String) : IO UInt32 := do
  let report ← run .standard FileAccess.system (← showsColours) arguments
  IO.print report.stdout
  IO.eprint report.stderr
  return UInt32.ofNat report.exitCode
