import ScalarLang.Proofs.Lexing.LineEndings
import ScalarLang.Proofs.Reading.Concatenation
import ScalarLang.Proofs.Reading.Respacing

/-!
# Programs with carriage returns before newlines

No rule of the grammar has a string, so a newline in a program is a newline token or stands
inside of trivia.  A carriage return before every newline then changes trivia only, and the
program is accepted with the same tree.
-/

set_option autoImplicit false

namespace ScalarLang

/-! ## Programs have no strings -/

namespace Grammar

def Unquoted (tokens : List Token) : Prop := ∀ token ∈ tokens, token.kind ≠ .string

section Unquoted

variable {token : Token} {tokens left right : List Token}

@[simp]
theorem unquoted_nil : Unquoted [] := List.forall_mem_nil _

@[simp]
theorem unquoted_cons : Unquoted (token :: tokens) ↔ token.kind ≠ .string ∧ Unquoted tokens :=
  List.forall_mem_cons

@[simp]
theorem unquoted_append : Unquoted (left ++ right) ↔ Unquoted left ∧ Unquoted right :=
  List.forall_mem_append

theorem Newlines.unquoted (areNewlines : Newlines tokens) : Unquoted tokens := by
  intro token member isString
  cases (areNewlines token member).symm.trans isString

end Unquoted

variable {tokens : List Token}

theorem Derives.unquoted {phrase : Phrase} (derives : Derives phrase tokens) :
    Unquoted tokens := by
  induction derives with
  | expression _ _ _ first rest => simp [first, rest]
  | noOperation => simp
  | operation isSign skipped _ _ right rest => simp [isSign, skipped.unquoted, right, rest]
  | plain _ operand => exact operand
  | not isSign _ operand => simp [isSign, operand]
  | negative isSign isInteger _ _ => simp [isSign, isInteger]
  | negate isSign _ _ operand => exact unquoted_cons.mpr ⟨by simp [isSign], operand⟩
  | identifier isName => simp [isName]
  | integer isInteger _ _ => simp [isInteger]
  | float isFloat => simp [isFloat]
  | boolean isBoolean => simp [isBoolean]
  | parentheses opens skipped _ skippedAfter closes inner =>
      simp [opens, skipped.unquoted, inner, skippedAfter.unquoted, closes]
  | call isName opens skipped _ closes inner =>
      simp [isName, opens, skipped.unquoted, inner, closes]
  | callWithChildren isName opens skipped _ closes opensBrace skippedLines _ closesBrace inner
      innerLines =>
      simp [isName, opens, skipped.unquoted, inner, closes, opensBrace, skippedLines.unquoted,
        innerLines, closesBrace]
  | conditional isIf _ _ test yes =>
      rw [List.cons_append, unquoted_cons, unquoted_append]
      exact ⟨by simp [isIf], test, yes⟩
  | conditionalElse isIf _ _ isElse _ test yes no =>
      rw [List.append_assoc, List.cons_append, unquoted_cons, unquoted_append, unquoted_append,
        unquoted_cons]
      exact ⟨by simp [isIf], test, yes, by simp [isElse], no⟩
  | noArgument => simp
  | lastArgument isLabel isColon _ skipped inner =>
      simp [isLabel, isColon, inner, skipped.unquoted]
  | nextArgument isLabel isColon _ skipped isComma skippedAfter _ inner rest =>
      simp [isLabel, isColon, inner, skipped.unquoted, isComma, skippedAfter.unquoted, rest]
  | noLine => simp
  | lastLine _ inner => exact inner
  | nextLine _ skipped _ _ inner rest => simp [inner, skipped.unquoted, rest]
  | block opens skipped _ closes inner => simp [opens, skipped.unquoted, inner, closes]
  | blockWithResult opens skipped _ isReturn _ skippedAfter closes inner returned =>
      simp [opens, skipped.unquoted, inner, isReturn, returned, skippedAfter.unquoted, closes]

theorem IsType.unquoted {type : TypePath} (isType : IsType type tokens) : Unquoted tokens := by
  induction isType with
  | name isName => simp [isName]
  | inner isName isDot _ rest => simp [isName, isDot, rest]

theorem IsParameter.unquoted {parameter : Parameter}
    (isParameter : IsParameter parameter tokens) : Unquoted tokens := by
  cases isParameter with
  | intro isName isColon isType => simp [isName, isColon, isType.unquoted]

theorem AreParameters.unquoted {parameters : List Parameter}
    (areParameters : AreParameters parameters tokens) : Unquoted tokens := by
  induction areParameters with
  | none => simp
  | last isParameter => exact isParameter.unquoted
  | next isParameter isComma skipped _ rest =>
      simp [isParameter.unquoted, isComma, skipped.unquoted, rest]

theorem IsResult.unquoted {result : Option TypePath} (isResult : IsResult result tokens) :
    Unquoted tokens := by
  cases isResult with
  | none => simp
  | some isArrow isType => simp [isArrow, isType.unquoted]

theorem IsFunction.unquoted {function : FunctionDecl} (isFunction : IsFunction function tokens) :
    Unquoted tokens := by
  cases isFunction with
  | intro isStart isName opens skipped areParameters closes isResult isBody =>
      simp [isStart, isName, opens, skipped.unquoted, areParameters.unquoted, closes,
        isResult.unquoted, isBody.unquoted]

theorem AreFunctions.unquoted {functions : List FunctionDecl}
    (areFunctions : AreFunctions functions tokens) : Unquoted tokens := by
  induction areFunctions with
  | last isFunction skipped => simp [isFunction.unquoted, skipped.unquoted]
  | next isFunction skipped _ _ rest => simp [isFunction.unquoted, skipped.unquoted, rest]

theorem IsProgram.unquoted {program : Module} (isProgram : IsProgram program tokens) :
    Unquoted tokens := by
  cases isProgram with
  | intro skipped areFunctions => simp [skipped.unquoted, areFunctions.unquoted]

end Grammar

/-! ## Sources -/

def Source.withReturns (source : Source) : Source :=
  .ofText source.name (.ofList (Text.crlf source.characters))

theorem Source.characters_withReturns (source : Source) :
    source.withReturns.characters = Text.crlf source.characters := String.toList_ofList

/-- The tokens of a source without strings and without a fault are found again. -/
theorem Source.stream_withReturns {source : Source} {tokens : List Token} {position : Position}
    (isStream : TokenStream.ofText source.characters = ⟨tokens, .finished position⟩)
    (unquoted : Grammar.Unquoted tokens) :
    ∃ found stop, TokenStream.ofText source.withReturns.characters = ⟨found, .finished stop⟩ ∧
      List.Forall₂ Token.Keeps tokens found := by
  obtain ⟨all, after, rest, ending, tiles, ends, isAll⟩ :=
    Lexer.exists_tiles_ofText source.characters
  obtain ⟨rfl, rfl⟩ := TokenStream.mk.inj (isAll.symm.trans isStream)
  obtain rfl := ends.rest_eq_nil
  have noString : ∀ token ∈ all, token.kind ≠ .string := by
    intro token member isString
    refine unquoted token (List.mem_filter.mpr ⟨member, ?_⟩) isString
    simp [Lexer.gives, isString, TokenKind.isTrivia]
  obtain ⟨found, stop, tilesFound, keeps⟩ := tiles.foundAgain noString (.whole ⟨rfl, rfl⟩)
  rw [source.characters_withReturns]
  exact ⟨_, stop, Lexer.stream_eq tilesFound .finished false, keeps⟩

/-- An accepted source is accepted with carriage returns before its newlines too.  Its
program is the same up to spans, and its tokens outside of trivia are found again, each of
the same kind and text and on the same line, and all but the newlines in the same column. -/
theorem ofSource_withReturns (source : Source) (program : Module)
    (accepted : Module.ofSource source = .ok program) :
    (∃ other, Module.ofSource source.withReturns = .ok other ∧
      program.spanless = other.spanless) ∧
    List.Forall₂ Token.Keeps (TokenStream.ofText source.characters).tokens
      (TokenStream.ofText source.withReturns.characters).tokens := by
  obtain ⟨position, finished⟩ := Module.finished_ofSource accepted
  have unquoted := (Module.isProgram_ofSource accepted).unquoted
  obtain ⟨found, stop, isStream, keeps⟩ :=
    Source.stream_withReturns (congrArg (TokenStream.mk _) finished) unquoted
  have same : source.SameTokens source.withReturns := by
    refine ⟨?_, ?_⟩
    · rw [Source.shapes, Source.shapes, isStream]
      exact List.forall₂_eq_eq_eq ▸ List.forall₂_map_left_iff.mpr
        (List.forall₂_map_right_iff.mpr (keeps.imp fun _ _ keeps => keeps.shape))
    · rw [finished, isStream]
      exact .finished _ _
  refine ⟨same.accepts accepted, ?_⟩
  rw [isStream]
  exact keeps

/-- A source with newlines after blanks, after a return, after and inside of comments and after
another newline. -/
def brokenSource : Source :=
  .ofText "broken" ("// é\r\nfn f(a: Int) -> Int \x7b \n\n" ++
    "  /* one\ntwo */ g(x: 1) // y\n  return a\n\x7d")

theorem ofSource_withReturns_broken : ∃ program other,
    Module.ofSource brokenSource = .ok program ∧ program.functions ≠ [] ∧
    brokenSource.withReturns.text = "// é\r\r\nfn f(a: Int) -> Int \x7b \r\n\r\n" ++
      "  /* one\r\ntwo */ g(x: 1) // y\r\n  return a\r\n\x7d" ∧
    Module.ofSource brokenSource.withReturns = .ok other ∧ program.spanless = other.spanless ∧
    List.Forall₂ Token.Keeps (TokenStream.ofText brokenSource.characters).tokens
      (TokenStream.ofText brokenSource.withReturns.characters).tokens := by
  obtain ⟨program, accepted, some⟩ := exists_ok_of_any
    (show (Module.ofSource brokenSource).toOption.any (!·.functions.isEmpty) = true by
      decide +kernel)
  obtain ⟨⟨other, acceptedOther, same⟩, keeps⟩ :=
    ofSource_withReturns brokenSource program accepted
  refine ⟨program, other, accepted, by simpa using some, ?_, acceptedOther, same, keeps⟩
  decide +kernel

end ScalarLang
