import ScalarLang.Proofs.Lexing.Gaps
import ScalarLang.Proofs.Lexing.Modes
import ScalarLang.Proofs.Reading.FirstError

/-!
# Reading sees tokens by kind and text only

Blanks and comments between tokens, and with them the places at which the tokens stand, do
not matter to a program.  Two sources whose tokens outside of trivia have the same kinds
and texts, and that end alike, are both accepted with the same program up to spans, or
both rejected for the same fault at the same token.  Such sources are those that differ in
trivia tokens, and those that differ in a gap of their texts are among them.
-/

set_option autoImplicit false

namespace ScalarLang

/-! ## Rows of tokens that differ in trivia -/

/-- One row of tokens comes from another by taking out and putting in trivia; to do both is
to change them. -/
inductive Respaced : List Token → List Token → Prop
  | done : Respaced [] []
  | keep {token other : Token} {tokens others : List Token} (same : token.shape = other.shape)
      (rest : Respaced tokens others) : Respaced (token :: tokens) (other :: others)
  | takeOut {token : Token} {tokens others : List Token} (isTrivia : token.kind.isTrivia = true)
      (rest : Respaced tokens others) : Respaced (token :: tokens) others
  | putIn {token : Token} {tokens others : List Token} (isTrivia : token.kind.isTrivia = true)
      (rest : Respaced tokens others) : Respaced tokens (token :: others)

section Respaced

variable {tokens others : List Token}

theorem Respaced.plainShapes_eq (respaced : Respaced tokens others) :
    plainShapes tokens = plainShapes others := by
  induction respaced with
  | done => rfl
  | @keep token other tokens others same rest inductionHypothesis =>
      have sameKind : token.kind = other.kind := congrArg Prod.fst same
      cases isTrivia : token.kind.isTrivia with
      | true =>
          rw [plainShapes_of_trivia isTrivia, plainShapes_of_trivia (sameKind ▸ isTrivia),
            inductionHypothesis]
      | false =>
          rw [plainShapes_of_plain isTrivia, plainShapes_of_plain (sameKind ▸ isTrivia), same,
            inductionHypothesis]
  | takeOut isTrivia rest inductionHypothesis =>
      rw [plainShapes_of_trivia isTrivia, inductionHypothesis]
  | putIn isTrivia rest inductionHypothesis =>
      rw [plainShapes_of_trivia isTrivia, inductionHypothesis]

theorem respaced_of_plainShapes_eq (same : plainShapes tokens = plainShapes others) :
    Respaced tokens others := by
  induction tokens generalizing others with
  | nil =>
      induction others with
      | nil => exact .done
      | cons other others inductionHypothesis =>
          cases isTrivia : other.kind.isTrivia with
          | true =>
              rw [plainShapes_of_trivia isTrivia] at same
              exact .putIn isTrivia (inductionHypothesis same)
          | false =>
              rw [plainShapes_of_plain isTrivia] at same
              cases same
  | cons token tokens ofTokens =>
      cases isTrivia : token.kind.isTrivia with
      | true =>
          rw [plainShapes_of_trivia isTrivia] at same
          exact .takeOut isTrivia (ofTokens same)
      | false =>
          -- The token is kept, after the trivia before it in the other row.
          rw [plainShapes_of_plain isTrivia] at same
          induction others with
          | nil => cases same
          | cons other others inductionHypothesis =>
              cases otherTrivia : other.kind.isTrivia with
              | true =>
                  rw [plainShapes_of_trivia otherTrivia] at same
                  exact .putIn otherTrivia (inductionHypothesis same)
              | false =>
                  rw [plainShapes_of_plain otherTrivia] at same
                  obtain ⟨sameShape, sameRest⟩ := List.cons.inj same
                  exact .keep sameShape (ofTokens sameRest)

end Respaced

/-! ## Sources of the same tokens -/

theorem Ending.like_iff {ending other : Ending} :
    ending.Like other ↔ ending.fault? = other.fault? := by
  constructor
  · intro like
    cases like with
    | finished _ _ => rfl
    | fault same => exact congrArg some same
  · intro same
    cases ending with
    | finished position =>
        cases other with
        | finished otherPosition => exact .finished position otherPosition
        | fault otherError => cases same
    | fault error =>
        cases other with
        | finished otherPosition => cases same
        | fault otherError => exact .fault (Option.some.inj same)

instance (ending other : Ending) : Decidable (ending.Like other) :=
  decidable_of_iff _ Ending.like_iff.symm

namespace Source

def fullStream (source : Source) : TokenStream :=
  (Lexer.ofText source.characters).withTrivia.stream

/-- Two sources have tokens of the same kinds and texts outside of trivia, and end alike. -/
structure SameTokens (source other : Source) : Prop where
  shapes : source.shapes = other.shapes
  endsAlike : (TokenStream.ofText source.characters).ending.Like
    (TokenStream.ofText other.characters).ending

structure RespacedTo (source other : Source) : Prop where
  tokens : Respaced source.fullStream.tokens other.fullStream.tokens
  endsAlike : source.fullStream.ending.Like other.fullStream.ending

instance (source other : Source) : Decidable (source.SameTokens other) :=
  decidable_of_iff (source.shapes = other.shapes ∧
      (TokenStream.ofText source.characters).ending.Like (TokenStream.ofText other.characters).ending)
    ⟨fun ⟨shapes, endsAlike⟩ => ⟨shapes, endsAlike⟩, fun same => ⟨same.shapes, same.endsAlike⟩⟩

theorem fullStream_eq (source : Source) :
    source.shapes = plainShapes source.fullStream.tokens ∧
      (TokenStream.ofText source.characters).ending = source.fullStream.ending := by
  obtain ⟨tokens, after, rest, ending, tiles, ends⟩ := exists_tiles source.characters .initial
  have isStream : TokenStream.ofText source.characters =
      ⟨tokens.filter (Lexer.gives false), ending⟩ :=
    Lexer.stream_eq tiles ends false
  have isFull : source.fullStream = ⟨tokens.filter (Lexer.gives true), ending⟩ :=
    Lexer.stream_eq tiles ends true
  rw [Lexer.filter_gives_true] at isFull
  rw [Source.shapes, isStream, isFull]
  exact ⟨rfl, rfl⟩

theorem sameTokens_iff_respacedTo {source other : Source} :
    source.SameTokens other ↔ source.RespacedTo other := by
  obtain ⟨areShapes, isEnding⟩ := source.fullStream_eq
  obtain ⟨areOther, isOther⟩ := other.fullStream_eq
  constructor
  · rintro ⟨sameShapes, endsAlike⟩
    rw [areShapes, areOther] at sameShapes
    rw [isEnding, isOther] at endsAlike
    exact ⟨respaced_of_plainShapes_eq sameShapes, endsAlike⟩
  · rintro ⟨respaced, endsAlike⟩
    refine ⟨?_, ?_⟩
    · rw [areShapes, areOther, respaced.plainShapes_eq]
    · rwa [isEnding, isOther]

theorem sameTokens_of_outlines {source other : Source} {shapes : List (TokenKind × String)}
    {fault : Option LexFault} (outlines : Outlines source.characters shapes fault)
    (outlinesOther : Outlines other.characters shapes fault) : source.SameTokens other := by
  obtain ⟨areShapes, isFault⟩ := outlines.of_stream
  obtain ⟨areOthers, isOther⟩ := outlinesOther.of_stream
  exact ⟨areShapes.trans areOthers.symm, Ending.like_iff.mpr (isFault.trans isOther.symm)⟩

/-- Sources that differ in one gap have the same tokens. -/
theorem sameTokens_of_apart {source other : Source} {left right : List Char}
    (apart : Apart left right source.characters)
    (apartOther : Apart left right other.characters) : source.SameTokens other := by
  obtain ⟨shapes, fault, outlines⟩ := exists_outlines right
  exact sameTokens_of_outlines (apart.outlines outlines) (apartOther.outlines outlines)

end Source

/-! ## Places of errors -/

inductive Place where
  | token (index : Nat)
  | endOfText
  | fault
deriving DecidableEq, Repr

inductive SyntaxError.StandsAt (error : SyntaxError) (stream : TokenStream) : Place → Prop
  | token {index : Nat} {token : Token} (isToken : stream.tokens[index]? = some token)
      (isAt : error.IsAt token) : StandsAt error stream (.token index)
  | endOfText {position : Position} (finished : stream.ending = .finished position)
      (isAt : error.span = .empty position.offset ∧ error.line = position.line ∧
        error.column = position.column) : StandsAt error stream .endOfText
  | fault {fault : LexError} (isFault : stream.ending = .fault fault)
      (isAt : error = .ofLexError fault) : StandsAt error stream .fault

def SyntaxFault.place (fault : SyntaxFault) (passed all : Nat) : Place :=
  match fault with
  | .lexical _ => .fault
  | _ => if passed < all then .token passed else .endOfText

def Module.spanless (program : Module) : Module := program.mapOffsets fun _ => 0

/-- Two sources give programs that are the same up to spans, or errors of the same fault at
the same place. -/
inductive Source.ReadsAs (source other : Source) : Prop
  | accepted {program otherProgram : Module} (reads : Module.ofSource source = .ok program)
      (readsOther : Module.ofSource other = .ok otherProgram)
      (same : program.spanless = otherProgram.spanless)
  | rejected {error otherError : SyntaxError} {place : Place}
      (rejects : Module.ofSource source = .error error)
      (rejectsOther : Module.ofSource other = .error otherError)
      (same : error.fault = otherError.fault)
      (stands : error.StandsAt (.ofText source.characters) place)
      (standsOther : otherError.StandsAt (.ofText other.characters) place)

/-! ## Readers of the same tokens -/

namespace Source

variable {source other : Source}

theorem SameTokens.alike (same : source.SameTokens other) (count : Nat) :
    source.reader.Alike (fun _ => 0) True count other.reader :=
  ⟨ahead_of_shapes_eq same.shapes same.endsAlike _, rfl, fun _ => rfl⟩

/-- A fault before the first token is one of both sources. -/
theorem SameTokens.notFault (same : source.SameTokens other)
    (notFault : source.reader.tokens = [] → ∃ position, source.reader.ending = .finished position)
    (noTokens : other.reader.tokens = []) :
    ∃ position, other.reader.ending = .finished position := by
  have noShapes : other.shapes = [] := List.map_eq_nil_iff.mpr noTokens
  obtain ⟨position, finished⟩ := notFault (List.map_eq_nil_iff.mp (same.shapes.trans noShapes))
  exact same.endsAlike.exists_finished finished

theorem SameTokens.accepts (same : source.SameTokens other) {program : Module}
    (accepted : Module.ofSource source = .ok program) :
    ∃ otherProgram, Module.ofSource other = .ok otherProgram ∧
      program.spanless = otherProgram.spanless := by
  obtain ⟨otherProgram, reads, sameTree⟩ := Reader.readProgram_of_shapes_eq
    (Source.readProgram_of_accepted accepted) (same.alike _)
  refine ⟨otherProgram, ?_, sameTree⟩
  have finished := Module.finished_ofSource accepted
  rw [Module.ofSource_eq_readProgram (same.notFault fun _ => finished), reads]

/-! ## Errors of the same tokens -/

namespace Stops

variable {error : SyntaxError} {passed : List Token} {stopped : Reader}

theorem standsAt_token {fault : SyntaxFault} {token : Token}
    (stops : source.Stops (stopped.errorHere fault) passed stopped)
    (present : stopped.current? = some token) (noPeek : fault.peeks = 0) :
    (stopped.errorHere fault).StandsAt (.ofText source.characters)
      (fault.place passed.length source.reader.tokens.length) := by
  obtain ⟨rest, areStopped⟩ := List.head?_eq_some_iff.mp present
  have areTokens := stops.passes.tokens_eq
  rw [areStopped] at areTokens
  have inside : passed.length < source.reader.tokens.length := by
    rw [areTokens, List.length_append, List.length_cons]
    omega
  have isPlace : fault.place passed.length source.reader.tokens.length = .token passed.length := by
    cases fault with
    | lexical _ => cases noPeek
    | _ => exact if_pos inside
  have isToken : source.reader.tokens[passed.length]? = some token := by
    rw [areTokens, List.getElem?_append_right (Nat.le_refl _), Nat.sub_self]
    rfl
  rw [isPlace, Reader.errorHere_of_current present]
  exact .token isToken ⟨rfl, rfl, rfl⟩

/-- Where an error stands follows from its fault and the number of tokens before it. -/
theorem standsAt {seen : List Token} (stops : source.Stops error passed stopped)
    (notFault : source.reader.tokens = [] → ∃ position, source.reader.ending = .finished position)
    (fails : stopped.Fails error seen) :
    error.StandsAt (.ofText source.characters)
      (error.fault.place passed.length source.reader.tokens.length) := by
  cases fails with
  | unexpected wanted =>
      cases present : stopped.current? with
      | some token =>
          rw [present] at stops
          rw [Reader.errorHere_fault]
          exact stops.standsAt_token present rfl
      | none =>
          obtain ⟨allPassed, position, finished⟩ := stops.passed_all notFault present
          rw [Reader.errorHere_fault, allPassed]
          unfold Reader.errorHere
          rw [present, stops.passes.ending_eq, finished]
          simp only [SyntaxFault.place, Nat.lt_irrefl, if_false]
          exact .endOfText finished ⟨rfl, rfl, rfl⟩
  | unsupported construct present =>
      rw [Reader.errorHere_fault]
      exact stops.standsAt_token present rfl
  | literal present isInteger large =>
      rw [Reader.errorHere_fault]
      exact stops.standsAt_token present rfl
  | fault last isFault =>
      rw [stops.passes.ending_eq] at isFault
      exact .fault isFault rfl

end Stops

/-- The other source stops after as many tokens, for the same fault. -/
theorem SameTokens.exists_stops (same : source.SameTokens other) {error : SyntaxError}
    {passed : List Token} {stopped : Reader} (stops : source.Stops error passed stopped)
    (otherNotFault : other.reader.tokens = [] →
      ∃ position, other.reader.ending = .finished position) :
    ∃ otherError otherPassed otherStopped otherSeen, Module.ofSource other = .error otherError ∧
      error.fault = otherError.fault ∧ otherPassed.length = passed.length ∧
      other.Stops otherError otherPassed otherStopped ∧
      otherStopped.Fails otherError otherSeen := by
  obtain ⟨after, -, fails⟩ := stops.fails
  have agree := Reader.readProgram_agree monotone_const (same.alike (passed.length + 1))
  rw [fails] at agree
  obtain ⟨count, drops, follows⟩ := agree
  obtain rfl := drops.unique (stops.drops fails)
  obtain ⟨otherError, otherAfter, otherFails, otherDrops, sameFault⟩ :=
    follows (Nat.add_le_add_left error.fault.peeks_le_one _)
  have rejected : Module.ofSource other = .error otherError := by
    rw [Module.ofSource_eq_readProgram otherNotFault]
    have reads : other.reader.readProgram = (.error otherError, otherAfter) :=
      Read.run_eq_error_iff.mpr otherFails
    rw [reads]
  rcases Module.ofSource_eq_error rejected with ⟨fault, noTokens, isFault, -⟩ |
    ⟨-, otherPassed, otherStopped, otherSeen, otherStops, failsThere, -⟩
  · obtain ⟨position, finished⟩ := otherNotFault noTokens
    cases isFault.symm.trans finished
  · exact ⟨otherError, otherPassed, otherStopped, otherSeen, rejected, sameFault,
      (otherStops.drops otherFails).unique otherDrops, otherStops, failsThere⟩

theorem SameTokens.rejects (same : source.SameTokens other) {error : SyntaxError}
    (rejected : Module.ofSource source = .error error) :
    ∃ otherError place, Module.ofSource other = .error otherError ∧
      error.fault = otherError.fault ∧ error.StandsAt (.ofText source.characters) place ∧
      otherError.StandsAt (.ofText other.characters) place := by
  have sameLength : source.reader.tokens.length = other.reader.tokens.length := by
    have lengths := congrArg List.length same.shapes
    rwa [Source.shapes, Source.shapes, List.length_map, List.length_map] at lengths
  rcases Module.ofSource_eq_error rejected with ⟨fault, noTokens, isFault, rfl⟩ |
    ⟨notFault, passed, stopped, seen, stops, fails, -⟩
  · obtain ⟨otherFault, isOther, sameFault⟩ := same.endsAlike.exists_fault isFault
    have noOthers : other.reader.tokens = [] := by
      rw [← List.length_eq_zero_iff, ← sameLength, noTokens, List.length_nil]
    exact ⟨.ofLexError otherFault, .fault, Module.ofSource_of_fault noOthers isOther,
      congrArg SyntaxFault.lexical sameFault, .fault isFault rfl, .fault isOther rfl⟩
  · have otherNotFault := same.notFault notFault
    obtain ⟨otherError, otherPassed, otherStopped, otherSeen, otherRejected, sameFault, samePassed,
      otherStops, otherFails⟩ := same.exists_stops stops otherNotFault
    have standsOther := otherStops.standsAt otherNotFault otherFails
    rw [← sameFault, samePassed, ← sameLength] at standsOther
    exact ⟨otherError, _, otherRejected, sameFault, stops.standsAt notFault fails, standsOther⟩

theorem SameTokens.readsAs (same : source.SameTokens other) : source.ReadsAs other := by
  cases reads : Module.ofSource source with
  | ok program =>
      obtain ⟨otherProgram, readsOther, sameProgram⟩ := same.accepts reads
      exact .accepted reads readsOther sameProgram
  | error error =>
      obtain ⟨otherError, place, rejectsOther, sameFault, stands, standsOther⟩ := same.rejects reads
      exact .rejected reads rejectsOther sameFault stands standsOther

end Source

/-- Reading sees tokens by kind and text only.  Sources of the same tokens that end alike are
read alike.  So trivia between tokens can be taken out, put in and changed all over a source,
and so can the blanks and the comments in any gap of its text. -/
theorem ofSource_sees_only_tokens (source other : Source) :
    (source.SameTokens other → source.ReadsAs other) ∧
    (source.RespacedTo other → source.ReadsAs other) ∧
    ∀ left right, Apart left right source.characters → Apart left right other.characters →
      source.ReadsAs other := by
  refine ⟨fun same => same.readsAs, ?_, ?_⟩
  · intro respaced
    exact (Source.sameTokens_iff_respacedTo.mpr respaced).readsAs
  · intro left right apart apartOther
    exact (Source.sameTokens_of_apart apart apartOther).readsAs

/-- Sources of the same tokens, with hardly any trivia and with much of it.  The first has a
program; the second ends inside a string, after a keyword that is out of place. -/
def denseSources : Source × Source :=
  (.ofText "dense" "fn f(a:Int)->Int\x7b\nreturn a+1//x\n\x7d",
    .ofText "dense" "fn f(a:Int,fn\"")

@[inherit_doc denseSources]
def airySources : Source × Source :=
  (.ofText "airy" "fn\tf ( a : Int ) -> Int \x7b // é\n\r  return /* b\n */ a + 1\r\n\x7d\t",
    .ofText "airy" "/*é*/fn f(\r a: Int/**/,  fn\t\"open")

def touchingSource : Source := .ofText "touching" "a+b"

def gapSource : Source := .ofText "gap" "a\t/* é\n*/ /**/+b"

theorem gapSource_apart : Apart ['a'] ['+', 'b'] gapSource.characters := by
  have isText : gapSource.characters = ['a'] ++ '\t' ::
      ('/' :: '*' :: ([' ', 'é', '\n', '*', '/'] ++ ' ' :: '/' :: '*' :: (['*', '/'] ++ [])) ++
        ['+', 'b']) := by
    decide +kernel
  have isName : Lexeme.scan 'a' [] = .ok ⟨.identifier, 0⟩ := by decide +kernel
  have tiles : Tiles .initial ['a'] [⟨.identifier, .ofList ['a'], .initial⟩] _ [] :=
    .next isName .none
  rw [isText]
  refine .blank tiles ?_ rfl (.blockComment rfl (.blank rfl (.blockComment rfl .none)))
  intro last isLast
  cases isLast
  decide +kernel

theorem ofSource_sees_only_tokens_airy :
    (denseSources.1.RespacedTo airySources.1 ∧ denseSources.1.ReadsAs airySources.1) ∧
    (denseSources.2.SameTokens airySources.2 ∧ denseSources.2.ReadsAs airySources.2) ∧
    Apart ['a'] ['+', 'b'] touchingSource.characters ∧
      Apart ['a'] ['+', 'b'] gapSource.characters ∧ touchingSource.ReadsAs gapSource := by
  have respaced := Source.sameTokens_iff_respacedTo.mp
    (show denseSources.1.SameTokens airySources.1 by decide +kernel)
  have same : denseSources.2.SameTokens airySources.2 := by decide +kernel
  have isName : Lexeme.scan 'a' ['+', 'b'] = .ok ⟨.identifier, 0⟩ := by decide +kernel
  have touching : Apart ['a'] ['+', 'b'] touchingSource.characters :=
    .split .none (.next isName .none)
  exact ⟨⟨respaced, (ofSource_sees_only_tokens _ _).2.1 respaced⟩,
    ⟨same, (ofSource_sees_only_tokens _ _).1 same⟩, touching, gapSource_apart,
    (ofSource_sees_only_tokens _ _).2.2 _ _ touching gapSource_apart⟩

end ScalarLang
