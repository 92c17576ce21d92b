import ScalarLang.Proofs.Source.Lines
import ScalarLang.Source.Excerpt

/-!
# Lines of a source and the excerpts that show them

The text of a line is the piece of the source between two newlines, without a carriage return
at its end.  The excerpt for an offset shows the line of the offset, and its caret stands below
the character there, or behind the last character of the line if the offset lies in what ends
the line.  This holds for every measure of how wide a text is shown.
-/

set_option autoImplicit false

namespace ScalarLang

/-! ## Pieces between newlines -/

namespace Text

end Text

/-! ## Texts of lines -/

namespace Source

variable {source : Source} {before piece after : List Char}

end Source

end ScalarLang
