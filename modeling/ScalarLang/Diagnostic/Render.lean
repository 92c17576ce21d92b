import ScalarLang.Diagnostic.Basic

/-!
# Rendered diagnostics

A diagnostic is rendered as pieces of text, some of them in a style.  On a terminal
a style is switched on before its piece and off after it; elsewhere styles are left
out.
-/

set_option autoImplicit false

namespace ScalarLang

inductive Colour where
  | red
  | yellow
deriving DecidableEq, Repr

structure Style where
  bold : Bool
  dimmed : Bool
  italic : Bool
  colour : Option Colour
deriving DecidableEq, Repr

def Style.reset : String := "\x1b[0m"

/-- The text that switches a style on, after all others were switched off. -/
def Style.activate (style : Style) : String :=
  Style.reset ++ (if style.bold then "\x1b[1m" else "") ++
    (if style.dimmed then "\x1b[2m" else "") ++ (if style.italic then "\x1b[3m" else "") ++
    (match style.colour with
      | some .red => "\x1b[31m"
      | some .yellow => "\x1b[33m"
      | none => "")

structure Theme where
  error : Style
  warning : Style
  emphasis : Style
  subtle : Style
  gutter : String
deriving DecidableEq, Repr

namespace Theme

def default : Theme :=
  { error := ⟨true, false, false, some .red⟩
    warning := ⟨true, false, false, some .yellow⟩
    emphasis := ⟨true, false, false, none⟩
    subtle := ⟨false, true, true, none⟩
    gutter := "│" }

def severity (theme : Theme) : Severity → Style
  | .error => theme.error
  | .warning => theme.warning

end Theme

structure Piece where
  style : Option Style
  text : String
deriving DecidableEq, Repr

def Piece.render (coloured : Bool) (piece : Piece) : String :=
  match piece.style with
  | some style =>
    if coloured then style.activate ++ piece.text ++ Style.reset else piece.text
  | none => piece.text

namespace Diagnostic

def excerptPieces (theme : Theme) (style : Style) (excerpt : Excerpt) : List Piece :=
  [⟨none, theme.gutter ++ " " ++ excerpt.line ++ "\n" ++ theme.gutter ++ " "⟩,
    ⟨some style, Text.blanks excerpt.caret ++ "^\n"⟩]

def locationPieces (theme : Theme) (location : Location) : List Piece :=
  [⟨some theme.subtle, "In " ++ location.file ++ ":" ++ toString location.line ++ ":" ++
    toString location.column ++ "\n"⟩]

def pieces (diagnostic : Diagnostic) (theme : Theme) : List Piece :=
  let style := theme.severity diagnostic.severity
  [⟨some style, diagnostic.severity.text ++ ":"⟩,
    ⟨some theme.emphasis, " " ++ diagnostic.message ++ "\n"⟩] ++
    (match diagnostic.location with
      | some location => locationPieces theme location
      | none => []) ++
    (match diagnostic.excerpt with
      | some excerpt => excerptPieces theme style excerpt
      | none => [])

def render (diagnostic : Diagnostic) (theme : Theme) (coloured : Bool) : String :=
  String.join ((diagnostic.pieces theme).map (Piece.render coloured))

end Diagnostic

end ScalarLang
