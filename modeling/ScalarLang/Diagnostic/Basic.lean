import ScalarLang.Source.Excerpt

/-!
# Diagnostics

A diagnostic is a message with a kind, and perhaps a place in a file and an
excerpt.
-/

set_option autoImplicit false

namespace ScalarLang

inductive Severity where
  | warning
  | error
deriving DecidableEq, Repr

def Severity.text : Severity → String
  | .warning => "warning"
  | .error => "error"

def Severity.atLeast : Severity → Severity → Bool
  | .warning, .error => false
  | _, _ => true

/-- A line and a column of a file, both counted from one. -/
structure Location where
  file : String
  line : Nat
  column : Nat
deriving DecidableEq, Repr

structure Diagnostic where
  severity : Severity
  message : String
  location : Option Location
  excerpt : Option Excerpt
deriving DecidableEq, Repr

namespace Diagnostic

def ofMessage (severity : Severity) (message : String) : Diagnostic :=
  ⟨severity, message, none, none⟩

def error (message : String) : Diagnostic := ofMessage .error message

def withLocation (diagnostic : Diagnostic) (location : Location) : Diagnostic :=
  { diagnostic with location := some location }

def withExcerpt (diagnostic : Diagnostic) (excerpt : Excerpt) : Diagnostic :=
  { diagnostic with excerpt := some excerpt }

/-- The same message at the start of a span of a source; a span outside the source
or inside a character changes nothing. -/
def withSpan (diagnostic : Diagnostic) (source : Source) (span : Span) : Diagnostic :=
  match source.lineColumn? span.start with
  | some (line, column) =>
    (diagnostic.withLocation ⟨source.name, line, column⟩).withExcerpt
      (source.excerpt line column)
  | none => diagnostic

end Diagnostic

end ScalarLang
