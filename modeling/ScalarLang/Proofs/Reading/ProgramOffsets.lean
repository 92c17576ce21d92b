import ScalarLang.Proofs.Reading.Offsets

/-!
# Moving the offsets of a program

The types, parameters and functions of a program move with their tokens, as its
expressions do.
-/

set_option autoImplicit false

namespace ScalarLang

open Grammar

def TypePath.mapOffsets (change : Nat → Nat) (path : TypePath) : TypePath :=
  ⟨path.head.mapOffsets change, path.inner.map (Ident.mapOffsets change),
    path.last.mapOffsets change⟩

def Parameter.mapOffsets (change : Nat → Nat) (parameter : Parameter) : Parameter :=
  ⟨parameter.name.mapOffsets change, parameter.type.mapOffsets change⟩

def FunctionDecl.mapOffsets (change : Nat → Nat) (function : FunctionDecl) : FunctionDecl where
  name := function.name.mapOffsets change
  parameters := function.parameters.map (Parameter.mapOffsets change)
  resultType := function.resultType.map (TypePath.mapOffsets change)
  body := function.body.mapOffsets change

def Module.mapOffsets (change : Nat → Nat) (program : Module) : Module :=
  ⟨program.functions.map (FunctionDecl.mapOffsets change)⟩

namespace Grammar

variable {change : Nat → Nat} {tokens moved : List Token}

theorem IsType.moves {path : TypePath} (isType : IsType path tokens) :
    ∀ {moved}, List.Forall₂ (Token.Moves change) tokens moved →
      IsType (path.mapOffsets change) moved := by
  induction isType with
  | name isName =>
      intro moved moves
      obtain ⟨name', movesName, rfl⟩ := forall₂_singleton_left_iff.mp moves
      have isMoved := IsType.name (movesName.kind.trans isName)
      rwa [movesName.ident] at isMoved
  | inner isName isDot rest inductionHypothesis =>
      intro moved moves
      obtain ⟨name', _, movesName, movesRest, rfl⟩ := List.forall₂_cons_left_iff.mp moves
      obtain ⟨dot', _, movesDot, movesTokens, rfl⟩ := List.forall₂_cons_left_iff.mp movesRest
      have isMoved := IsType.inner (movesName.kind.trans isName) (movesDot.kind.trans isDot)
        (inductionHypothesis movesTokens)
      rwa [movesName.ident] at isMoved

theorem IsParameter.moves {parameter : Parameter} (isParameter : IsParameter parameter tokens)
    (moves : List.Forall₂ (Token.Moves change) tokens moved) :
    IsParameter (parameter.mapOffsets change) moved := by
  obtain ⟨isName, isColon, isType⟩ := isParameter
  obtain ⟨name', _, movesName, movesRest, rfl⟩ := List.forall₂_cons_left_iff.mp moves
  obtain ⟨colon', _, movesColon, movesType, rfl⟩ := List.forall₂_cons_left_iff.mp movesRest
  have isMoved := IsParameter.intro (movesName.kind.trans isName) (movesColon.kind.trans isColon)
    (isType.moves movesType)
  rwa [movesName.ident] at isMoved

theorem AreParameters.moves {parameters : List Parameter}
    (areParameters : AreParameters parameters tokens) :
    ∀ {moved}, List.Forall₂ (Token.Moves change) tokens moved →
      AreParameters (parameters.map (Parameter.mapOffsets change)) moved := by
  induction areParameters with
  | none =>
      intro moved moves
      rw [List.forall₂_nil_left_iff.mp moves]
      exact .none
  | last isParameter =>
      intro moved moves
      exact .last (isParameter.moves moves)
  | next isParameter isComma skipped rest inductionHypothesis =>
      intro moved moves
      simp only [List.append_assoc, List.cons_append, forall₂_append_left_iff,
        List.forall₂_cons_left_iff] at moves
      obtain ⟨tokens', _, movesTokens, ⟨comma', _, movesComma, ⟨leading', more', movesLeading,
        movesMore, rfl⟩, rfl⟩, rfl⟩ := moves
      have areMoved := AreParameters.next (isParameter.moves movesTokens)
        (movesComma.kind.trans isComma) (skipped.moves movesLeading)
        (inductionHypothesis movesMore)
      rwa [List.append_assoc, List.cons_append] at areMoved

theorem IsResult.moves {result : Option TypePath} (isResult : IsResult result tokens)
    (moves : List.Forall₂ (Token.Moves change) tokens moved) :
    IsResult (result.map (TypePath.mapOffsets change)) moved := by
  cases isResult with
  | none =>
      rw [List.forall₂_nil_left_iff.mp moves]
      exact .none
  | some isArrow isType =>
      obtain ⟨arrow', _, movesArrow, movesType, rfl⟩ := List.forall₂_cons_left_iff.mp moves
      exact .some (movesArrow.kind.trans isArrow) (isType.moves movesType)

theorem IsFunction.moves (monotone : Monotone change) {function : FunctionDecl}
    (isFunction : IsFunction function tokens)
    (moves : List.Forall₂ (Token.Moves change) tokens moved) :
    IsFunction (function.mapOffsets change) moved := by
  obtain ⟨isStart, isName, opens, skipped, areParameters, closes, isResult, isBody⟩ := isFunction
  simp only [List.append_assoc, List.cons_append, forall₂_append_left_iff,
    List.forall₂_cons_left_iff] at moves
  obtain ⟨start', _, movesStart, ⟨name', _, movesName, ⟨opening', _, movesOpening, ⟨leading', _,
    movesLeading, ⟨list', _, movesList, ⟨closing', _, movesClosing, ⟨arrow', body', movesArrow,
    movesBody, rfl⟩, rfl⟩, rfl⟩, rfl⟩, rfl⟩, rfl⟩, rfl⟩ := moves
  have isMoved := IsFunction.intro (movesStart.kind.trans isStart) (movesName.kind.trans isName)
    (movesOpening.kind.trans opens) (skipped.moves movesLeading) (areParameters.moves movesList)
    (movesClosing.kind.trans closes) (isResult.moves movesArrow)
    (isBody.movable monotone body' movesBody)
  rw [movesName.ident] at isMoved
  simp only [List.append_assoc, List.cons_append] at isMoved
  exact isMoved

theorem AreFunctions.moves (monotone : Monotone change) {functions : List FunctionDecl}
    (areFunctions : AreFunctions functions tokens) :
    ∀ {moved}, List.Forall₂ (Token.Moves change) tokens moved →
      AreFunctions (functions.map (FunctionDecl.mapOffsets change)) moved := by
  induction areFunctions with
  | last isFunction skipped =>
      intro moved moves
      obtain ⟨tokens', trailing', movesTokens, movesTrailing, rfl⟩ :=
        forall₂_append_left_iff.mp moves
      exact .last (isFunction.moves monotone movesTokens) (skipped.moves movesTrailing)
  | next isFunction skipped ended rest inductionHypothesis =>
      intro moved moves
      simp only [forall₂_append_left_iff] at moves
      obtain ⟨_, more', ⟨tokens', newlines', movesTokens, movesNewlines, rfl⟩, movesMore,
        rfl⟩ := moves
      refine .next (isFunction.moves monotone movesTokens) (skipped.moves movesNewlines) ?_
        (inductionHypothesis movesMore)
      rintro rfl
      exact ended (List.forall₂_nil_right_iff.mp movesNewlines)

theorem IsProgram.moves (monotone : Monotone change) {program : Module}
    (isProgram : IsProgram program tokens)
    (moves : List.Forall₂ (Token.Moves change) tokens moved) :
    IsProgram (program.mapOffsets change) moved := by
  obtain ⟨skipped, areFunctions⟩ := isProgram
  obtain ⟨leading', tokens', movesLeading, movesTokens, rfl⟩ := forall₂_append_left_iff.mp moves
  exact .intro (skipped.moves movesLeading) (areFunctions.moves monotone movesTokens)

end Grammar

end ScalarLang
