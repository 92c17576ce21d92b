import ScalarLang.Proofs.Lexing.Separation
import ScalarLang.Proofs.Reading.ProgramOffsets
import ScalarLang.Proofs.Reading.Slices

/-!
# Sources one after the other

Two programs with a newline between them are one program.  The tokens of the first text
end before the newline and those of the second text are the same wherever it stands, so
the functions of the second follow those of the first, further to the right.
-/

set_option autoImplicit false

namespace ScalarLang

open Grammar

/-! ## Tokens of two texts -/

/-- What stops the tokens of a text does not depend on where the text stands. -/
theorem Ends.exists_at {position : Position} {rest : List Char} {ending : Ending}
    (ends : Ends position rest ending) (start : Position) : ∃ other, Ends start rest other := by
  cases ends with
  | finished => exact ⟨_, .finished⟩
  | fault refused => exact ⟨_, .fault refused⟩

theorem Ends.rest_eq_nil {position stop : Position} {rest : List Char}
    (ends : Ends position rest (.finished stop)) : rest = [] := by
  cases ends
  rfl

/-- A text without a fault has the same tokens at every position. -/
theorem exists_tiles_at {text : List Char} {stop : Position}
    (finished : (TokenStream.ofText text).ending = .finished stop) (position : Position) :
    ∃ tokens after, Tiles position text tokens after [] ∧
      List.Forall₂ (Token.Shifted position.offset) (tokens.filter (Lexer.gives false))
        (TokenStream.ofText text).tokens := by
  obtain ⟨tokens, after, rest, ending, tiles, ends⟩ := exists_tiles text position
  obtain ⟨others, otherStop, tilesOthers, shifted⟩ :=
    tiles.shifted .initial (Nat.zero_add _).symm
  obtain ⟨otherEnding, endsOthers⟩ := ends.exists_at otherStop
  have isStream : TokenStream.ofText text = ⟨others.filter (Lexer.gives false), otherEnding⟩ :=
    Lexer.stream_eq tilesOthers endsOthers false
  rw [isStream] at finished ⊢
  dsimp only at finished
  subst finished
  obtain rfl := endsOthers.rest_eq_nil
  refine ⟨tokens, after, tiles, ?_⟩
  refine List.rel_filter ?_ shifted
  intro token other same
  simp [Lexer.gives, same.kind]

theorem stream_append_newline {first second : List Char} {stop secondStop : Position}
    (finished : (TokenStream.ofText first).ending = .finished stop)
    (finishedSecond : (TokenStream.ofText second).ending = .finished secondStop) :
    ∃ newline moved end_, newline.kind = .newline ∧
      TokenStream.ofText (first ++ '\n' :: second) =
        ⟨(TokenStream.ofText first).tokens ++ newline :: moved, .finished end_⟩ ∧
      List.Forall₂ (Token.Shifted (Text.byteLength first + 1)) moved
        (TokenStream.ofText second).tokens := by
  obtain ⟨tokens, after, rest, ending, tiles, ends, isFirst⟩ := Lexer.exists_tiles_ofText first
  rw [isFirst] at finished ⊢
  dsimp only at finished
  subst finished
  obtain rfl := ends.rest_eq_nil
  have isOffset : (after.advance ['\n']).offset = Text.byteLength first + 1 := by
    rw [Position.advance_offset, tiles.offset_eq, ← List.append_nil (charactersOf tokens),
      ← tiles.text_eq]
    rfl
  obtain ⟨moved, end_, tilesMoved, shifted⟩ := exists_tiles_at finishedSecond (after.advance ['\n'])
  rw [isOffset] at shifted
  -- The newline after the first text is a token of its own.
  have scanned : Lexeme.scan '\n' second = .ok ⟨.newline, 0⟩ := rfl
  let newline : Token := Lexeme.token ⟨.newline, 0⟩ after '\n' second
  have tilesNewline : Tiles after ('\n' :: second) (newline :: moved) end_ [] :=
    .next scanned tilesMoved
  have tilesBoth : Tiles .initial (first ++ '\n' :: second) (tokens ++ newline :: moved) end_ [] :=
    Tiles.append_iff.mpr ⟨after, '\n' :: second, tiles.append_newline second, tilesNewline⟩
  refine ⟨newline, moved.filter (Lexer.gives false), end_, rfl, ?_, shifted⟩
  have isStream := Lexer.stream_eq tilesBoth .finished false
  rwa [List.filter_append, List.filter_cons_of_pos rfl] at isStream

/-! ## Programs of two rows of tokens -/

namespace Grammar

theorem AreFunctions.append {functions others : List FunctionDecl}
    {tokens newlines more : List Token} (areFunctions : AreFunctions functions tokens)
    (skipped : Newlines newlines) (ended : newlines ≠ []) (rest : AreFunctions others more) :
    AreFunctions (functions ++ others) (tokens ++ newlines ++ more) := by
  induction areFunctions with
  | @last function tokens trailing isFunction skippedAfter =>
      -- The newlines after the last function and those between the programs are one row.
      have allNewlines : Newlines (trailing ++ newlines) := by
        intro token member
        rcases List.mem_append.mp member with inTrailing | inNewlines
        · exact skippedAfter token inTrailing
        · exact skipped token inNewlines
      have next := AreFunctions.next isFunction allNewlines (by simp [ended]) rest
      simpa using next
  | @next function functions tokens between more' isFunction skippedBetween endedBetween _
      inductionHypothesis =>
      have next := AreFunctions.next isFunction skippedBetween endedBetween inductionHypothesis
      simpa using next

theorem IsProgram.append {first second : Module} {tokens more : List Token} {newline : Token}
    (isFirst : IsProgram first tokens) (isNewline : newline.kind = .newline)
    (isSecond : IsProgram second more) :
    IsProgram ⟨first.functions ++ second.functions⟩ (tokens ++ newline :: more) := by
  obtain ⟨skipped, areFunctions⟩ := isFirst
  obtain @⟨functions, leading, _, skippedSecond, areSecond⟩ := isSecond
  have between : Newlines (newline :: leading) := by
    intro token member
    rcases List.mem_cons.mp member with rfl | member
    · exact isNewline
    · exact skippedSecond token member
  have both := areFunctions.append between (by simp) areSecond
  have isBoth := IsProgram.intro skipped both
  simpa only [List.append_assoc, List.cons_append] using isBoth

end Grammar

/-! ## Sources -/

/-- The text of one source, a newline and the text of another. -/
def Source.followedBy (first second : Source) (name : String) : Source :=
  .ofText name (first.text ++ "\n" ++ second.text)

/-- Two accepted sources with a newline between them are accepted, and the functions are
those of the first and then those of the second, moved to the right of the newline. -/
theorem ofSource_followedBy (first second : Source) (program other : Module)
    (accepted : Module.ofSource first = .ok program)
    (acceptedSecond : Module.ofSource second = .ok other) (name : String) :
    Module.ofSource (first.followedBy second name) =
      .ok ⟨program.functions ++
        other.functions.map (FunctionDecl.mapOffsets (· + (first.byteLength + 1)))⟩ := by
  obtain ⟨stop, finished⟩ := Module.finished_ofSource accepted
  obtain ⟨secondStop, finishedSecond⟩ := Module.finished_ofSource acceptedSecond
  obtain ⟨newline, moved, end_, isNewline, isStream, shifted⟩ :=
    stream_append_newline finished finishedSecond
  have areCharacters : (first.followedBy second name).characters =
      first.characters ++ '\n' :: second.characters := by
    simp [Source.followedBy, Source.characters]
  rw [← areCharacters] at isStream
  have isMoved := (Module.isProgram_ofSource acceptedSecond).moves
    (fun _ _ atMost => Nat.add_le_add_right atMost (first.byteLength + 1))
    (shifted.flip.imp fun _ _ => Token.Shifted.right)
  exact Module.ofSource_of_isProgram isStream
    ((Module.isProgram_ofSource accepted).append isNewline isMoved)

/-- A source that ends inside a comment, which only a newline after it closes. -/
def openCommentSource : Source :=
  .ofText "first" "fn f() \x7b\n  g(x: 1)\n\x7d // é"

def indentedSource : Source :=
  .ofText "second" "\n  fn g(x: Int) -> Int \x7b return -x \x7d"

theorem ofSource_followedBy_open_comment : ∃ program other,
    Module.ofSource openCommentSource = .ok program ∧
    Module.ofSource indentedSource = .ok other ∧ other.functions ≠ [] ∧
    Module.ofSource (openCommentSource.followedBy indentedSource "both") =
      .ok ⟨program.functions ++ other.functions.map (FunctionDecl.mapOffsets (· + 27))⟩ := by
  obtain ⟨program, accepted, -⟩ := exists_ok_of_any
    (show (Module.ofSource openCommentSource).toOption.any (fun _ => true) = true by
      decide +kernel)
  obtain ⟨other, acceptedSecond, some⟩ := exists_ok_of_any
    (show (Module.ofSource indentedSource).toOption.any (!·.functions.isEmpty) = true by
      decide +kernel)
  have both := ofSource_followedBy openCommentSource indentedSource program other accepted
    acceptedSecond "both"
  have isLength : openCommentSource.byteLength = 26 := by decide +kernel
  rw [isLength] at both
  exact ⟨program, other, accepted, acceptedSecond, by simpa using some, both⟩

end ScalarLang
