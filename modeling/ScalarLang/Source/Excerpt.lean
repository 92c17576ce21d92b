import ScalarLang.Source.Basic
import ScalarLang.Text.Width

/-!
# Excerpts

An excerpt is one line of a source, with tabs shown as four blanks, and the
display column of a caret below it.
-/

set_option autoImplicit false

namespace ScalarLang

namespace Text

def expandTabs (text : List Char) : List Char :=
  text.flatMap fun character =>
    if character = '\t' then List.replicate 4 ' ' else [character]

def blanks (count : Nat) : String := String.ofList (List.replicate count ' ')

end Text

/-- A line of text and the number of columns before the caret below it. -/
structure Excerpt where
  line : String
  caret : Nat
deriving DecidableEq, Repr

namespace Excerpt

def render (excerpt : Excerpt) : String :=
  excerpt.line ++ "\n" ++ Text.blanks excerpt.caret ++ "^"

end Excerpt

namespace Source

/-- The excerpt of a line with a caret under a column, both counted from one, for a measure of how
wide a text is shown; a line outside the source is shown as empty. -/
def excerptWith (source : Source) (width : List Char → Nat) (line column : Nat) : Excerpt :=
  let text :=
    match line with
    | 0 => []
    | index + 1 => (source.lineText? index).getD []
  { line := String.ofList (Text.expandTabs text)
    caret := width (Text.expandTabs (text.take (column - 1))) }

def excerpt (source : Source) (line column : Nat) : Excerpt :=
  source.excerptWith Text.displayWidth line column

end Source

end ScalarLang
