import ScalarLang.Diagnostic.Basic
import ScalarLang.Lowering.Program
import ScalarLang.Reader.Entry

/-!
# The compiler

A source is read and lowered.  The result is the listing of its code and the object it makes, which
is named after the file of the source.  An error becomes a diagnostic: a syntax error knows its
line and column from reading, and an error of lowering finds them from its span.
-/

set_option autoImplicit false

namespace ScalarLang

/-! ## Names of modules -/

namespace FileName

def parts (path : String) : List String :=
  (path.splitOn "/").filter fun part => part != "" && part != "."

def beforeLastPoint? (text : List Char) : Option (List Char) :=
  match text.reverse.dropWhile (· != '.') with
  | [] => none
  | _ :: before => some before.reverse

/-- The last part of a path without its ending; the parent of a directory has no
name. -/
def stem? (path : String) : Option String :=
  match (parts path).getLast? with
  | none => none
  | some part =>
    if part = ".." then none
    else
      match beforeLastPoint? part.toList with
      | some (first :: rest) => some (String.ofList (first :: rest))
      | _ => some part

end FileName

def moduleName (file : String) : String := (FileName.stem? file).getD "main"

/-! ## Compiling -/

/-- An object, known by its symbols. -/
structure ObjectFile where
  symbols : List ObjectSymbol
deriving DecidableEq, Repr

structure Compiled where
  ir : String
  object : ObjectFile
deriving DecidableEq, Repr

inductive CompileError where
  | reading (error : SyntaxError)
  | lowering (error : LoweringError)
deriving DecidableEq, Repr

namespace SyntaxError

def diagnostic (error : SyntaxError) (source : Source) : Diagnostic :=
  ((Diagnostic.error error.fault.message).withLocation
    ⟨source.name, error.line, error.column⟩).withExcerpt (error.excerpt source)

end SyntaxError

namespace LoweringError

def diagnostic (error : LoweringError) (source : Source) : Diagnostic :=
  match error.span? with
  | some span => (Diagnostic.error error.message).withSpan source span
  | none => Diagnostic.error error.message

end LoweringError

namespace CompileError

def diagnostic (error : CompileError) (source : Source) : Diagnostic :=
  match error with
  | .reading error => error.diagnostic source
  | .lowering error => error.diagnostic source

end CompileError

def Module.compileOn (program : Module) (backEnd : BackEnd) (target : Target) (name : String) :
    Except LoweringError Compiled :=
  match Lowering.start target with
  | .error error => .error error
  | .ok lowering =>
    match lowering.addProgramOn backEnd program with
    | (.ok (), after) => .ok ⟨after.ir, ⟨after.declarations.symbols name⟩⟩
    | (.error error, _) => .error error

def Module.compile (program : Module) (target : Target) (name : String) :
    Except LoweringError Compiled :=
  program.compileOn .standard target name

theorem Module.compileOn_standard (program : Module) (target : Target) (name : String) :
    program.compileOn .standard target name = program.compile target name := rfl

def Source.compileOn (source : Source) (backEnd : BackEnd) (target : Target) :
    Except CompileError Compiled :=
  match Module.ofSource source with
  | .error error => .error (.reading error)
  | .ok program =>
    match program.compileOn backEnd target (moduleName source.name) with
    | .error error => .error (.lowering error)
    | .ok compiled => .ok compiled

def Source.compile (source : Source) (target : Target) : Except CompileError Compiled :=
  source.compileOn .standard target

end ScalarLang
