import ScalarLang.CommandLine.Arguments
import ScalarLang.CommandLine.Directory
import ScalarLang.Diagnostic.Render

/-!
# The command

The command reads a source, prints its code and, if it is asked to, emits its object and writes it
to a file.  A source that cannot be read or compiled leads to a diagnostic and to nothing else.
The code is printed before the object is emitted.
-/

set_option autoImplicit false

namespace ScalarLang

namespace CommandLine

structure Report where
  exitCode : Nat
  stdout : String
  stderr : String
deriving DecidableEq, Repr

def Report.failure (coloured : Bool) (output : String) (diagnostic : Diagnostic) : Report :=
  ⟨1, output, diagnostic.render .default coloured⟩

def helpText : String :=
  Usage.general.line ++ "\nArguments:\n  [INPUT]  The source file to compile\n\n" ++
    "Options:\n  -o, --output <OUTPUT>  Also write the object file here\n" ++
    "  -h, --help             Print help\n  -V, --version          Print version\n"

def versionText : String := "syvora_compiler 0.1.0\n"

def shortUsage : String := "Usage: syvora <filename>\n"

inductive OutputError where
  | emitting (error : EmitError)
  | writing (error : FileError)
deriving DecidableEq, Repr

def OutputError.message : OutputError → String
  | .emitting error => error.message
  | .writing error => error.message

section

variable {m : Type → Type} [Monad m] {Data : Type}

def writeObject (files : FileAccess m Data) (output : Option String) (object : ObjectFile) :
    m (Except OutputError Unit) := do
  match output with
  | none => return .ok ()
  | some path =>
    match files.emit object with
    | .error error => return .error (.emitting error)
    | .ok data =>
      match ← files.write path data with
      | .error error => return .error (.writing error)
      | .ok () => return .ok ()

def compileFile (platform : Platform) (files : FileAccess m Data) (coloured : Bool)
    (input : String) (output : Option String) : m Report := do
  match ← files.read input with
  | .error error =>
    return .failure coloured ""
      (.error ("couldn't read " ++ input ++ ": " ++ error.message))
  | .ok text =>
    let source := Source.ofText input text
    match source.compile platform.target with
    | .error error => return .failure coloured "" (error.diagnostic source)
    | .ok compiled =>
      match ← writeObject files output compiled.object with
      | .ok () => return ⟨0, compiled.ir, ""⟩
      | .error error => return .failure coloured compiled.ir (.error error.message)

def run (platform : Platform) (files : FileAccess m Data) (coloured : Bool)
    (arguments : List String) : m Report :=
  match Request.ofArguments arguments with
  | .error error => return ⟨2, "", error.message⟩
  | .ok .help => return ⟨0, helpText, ""⟩
  | .ok .version => return ⟨0, versionText, ""⟩
  | .ok (.compile none _) => return ⟨0, shortUsage, ""⟩
  | .ok (.compile (some input) output) => compileFile platform files coloured input output

end

def runIn (directory : Directory) (coloured : Bool) (arguments : List String) :
    Report × Directory :=
  (run .standard FileAccess.ofDirectory coloured arguments).run directory

end CommandLine

end ScalarLang
