import ScalarLang.Proofs.Reading.Completeness

/-!
# Reading functions and programs

A source is accepted exactly if its text is made of tokens throughout and the tokens
are a program of the grammar, and the program it gives is the tree of these tokens.
-/

set_option autoImplicit false

namespace ScalarLang

open Grammar

namespace Read

open Reader

/-! ## What is read is in the grammar -/

section Soundness

variable {fuel : Nat} {reader after : Reader}

theorem typeNames_sound (fuel : Nat) : ∀ {name : Token} {reader : Reader} {inner : List Ident},
    name.kind = .typeName → reader.previous = name.span →
    typeNames fuel reader = .ok inner after →
    ∃ tokens, Passes reader tokens after ∧
      IsType ⟨name.ident, inner, after.previous⟩ (name :: tokens) := by
  induction fuel with
  | zero =>
      intro name reader inner isName wasRead succeeds
      cases succeeds
  | succ fuel inductionHypothesis =>
      intro name reader inner isName wasRead succeeds
      rw [typeNames, bind_eq_ok_iff] at succeeds
      obtain ⟨more, middle, eaten, succeeds⟩ := succeeds
      cases more with
      | true =>
          obtain ⟨dot, isDot, passesDot⟩ := eat_eq_true_iff.mp eaten
          simp only [if_true, bind_eq_ok_iff, expect_eq_ok_iff, pure_eq_ok_iff] at succeeds
          obtain ⟨next, later, ⟨isNext, passesNext⟩, others, _, readsOthers, rfl, rfl⟩ := succeeds
          obtain ⟨tokens, passes, isType⟩ :=
            inductionHypothesis isNext passesNext.previous_eq_single readsOthers
          exact ⟨_, passesDot.cons (passesNext.cons passes), .inner isName isDot isType⟩
      | false =>
          obtain ⟨-, rfl⟩ := eat_eq_false_iff.mp eaten
          obtain ⟨rfl, rfl⟩ := pure_eq_ok_iff.mp succeeds
          rw [wasRead]
          exact ⟨[], .none, .name isName⟩

theorem typePath_sound {path : TypePath} (succeeds : typePath fuel reader = .ok path after) :
    ∃ tokens, Passes reader tokens after ∧ IsType path tokens := by
  simp only [typePath, bind_eq_ok_iff, expect_eq_ok_iff, get_eq_ok_iff, pure_eq_ok_iff]
    at succeeds
  obtain ⟨name, middle, ⟨isName, passesName⟩, inner, _, readsInner, _, _, ⟨rfl, rfl⟩, rfl, rfl⟩ :=
    succeeds
  obtain ⟨tokens, passes, isType⟩ :=
    typeNames_sound fuel isName passesName.previous_eq_single readsInner
  exact ⟨name :: tokens, passesName.cons passes, isType⟩

/-- A path goes up to its last name, also where the span is that of the token read last. -/
theorem span_of_typePath {path : TypePath} (succeeds : typePath fuel reader = .ok path after) :
    path.span = path.head.span.union (path.inner.getLastD path.head).span := by
  obtain ⟨tokens, -, isType⟩ := typePath_sound succeeds
  obtain ⟨front, last, -, isSpan, isIdent⟩ := isType.exists_last
  rw [TypePath.span, isSpan, isIdent]
  rfl

theorem parameter_sound {parameter : Parameter}
    (succeeds : Read.parameter fuel reader = .ok parameter after) :
    ∃ tokens, Passes reader tokens after ∧ IsParameter parameter tokens := by
  simp only [Read.parameter, bind_eq_ok_iff, identifier_eq_ok_iff, expect_eq_ok_iff,
    pure_eq_ok_iff] at succeeds
  obtain ⟨_, second, ⟨name, isName, rfl, passesName⟩, colon, third, ⟨isColon, passesColon⟩, type, _,
    readsType, rfl, rfl⟩ := succeeds
  obtain ⟨tokens, passes, isType⟩ := typePath_sound readsType
  exact ⟨_, passesName.cons (passesColon.cons passes), .intro isName isColon isType⟩

theorem parameterList_sound (fuel : Nat) : ∀ {reader : Reader} {parameters : List Parameter},
    parameterList fuel reader = .ok parameters after →
    ∃ tokens, Passes reader tokens after ∧ AreParameters parameters tokens := by
  induction fuel with
  | zero =>
      intro reader parameters succeeds
      cases succeeds
  | succ fuel inductionHypothesis =>
      intro reader parameters succeeds
      rw [parameterList, get_bind] at succeeds
      split at succeeds
      · simp only [bind_eq_ok_iff] at succeeds
        obtain ⟨first, second, readsFirst, more, third, eaten, succeeds⟩ := succeeds
        obtain ⟨tokens, passes, isParameter⟩ := parameter_sound readsFirst
        cases more with
        | true =>
            obtain ⟨comma, isComma, passesComma⟩ := eat_eq_true_iff.mp eaten
            simp only [if_true, bind_eq_ok_iff, skipNewlines_eq_ok_iff, pure_eq_ok_iff] at succeeds
            obtain ⟨_, fourth, ⟨leading, skipped, passesLeading, -⟩, others, _, readsOthers, rfl,
              rfl⟩ := succeeds
            obtain ⟨rest, passesRest, areOthers⟩ := inductionHypothesis readsOthers
            exact ⟨_, (passes.append (passesComma.cons passesLeading)).append passesRest,
              .next isParameter isComma skipped areOthers⟩
        | false =>
            obtain ⟨-, rfl⟩ := eat_eq_false_iff.mp eaten
            obtain ⟨rfl, rfl⟩ := pure_eq_ok_iff.mp succeeds
            exact ⟨tokens, passes, .last isParameter⟩
      · obtain ⟨rfl, rfl⟩ := pure_eq_ok_iff.mp succeeds
        exact ⟨[], .none, .none⟩

theorem resultType_sound {result : Option TypePath}
    (succeeds : resultType fuel reader = .ok result after) :
    ∃ tokens, Passes reader tokens after ∧ IsResult result tokens := by
  rw [resultType, bind_eq_ok_iff] at succeeds
  obtain ⟨more, middle, eaten, succeeds⟩ := succeeds
  cases more with
  | true =>
      obtain ⟨arrow, isArrow, passesArrow⟩ := eat_eq_true_iff.mp eaten
      simp only [if_true, bind_eq_ok_iff, pure_eq_ok_iff] at succeeds
      obtain ⟨type, _, readsType, rfl, rfl⟩ := succeeds
      obtain ⟨tokens, passes, isType⟩ := typePath_sound readsType
      exact ⟨arrow :: tokens, passesArrow.cons passes, .some isArrow isType⟩
  | false =>
      obtain ⟨-, rfl⟩ := eat_eq_false_iff.mp eaten
      obtain ⟨rfl, rfl⟩ := pure_eq_ok_iff.mp succeeds
      exact ⟨[], .none, .none⟩

theorem function_sound {function : FunctionDecl}
    (succeeds : Read.function fuel reader = .ok function after) :
    ∃ tokens, Passes reader tokens after ∧ IsFunction function tokens := by
  simp only [Read.function, bind_eq_ok_iff, expect_eq_ok_iff, identifier_eq_ok_iff,
    skipNewlines_eq_ok_iff, pure_eq_ok_iff] at succeeds
  obtain ⟨start, second, ⟨isStart, passesStart⟩, _, third, ⟨name, isName, rfl, passesName⟩, opening,
    fourth, ⟨opens, passesOpening⟩, _, fifth, ⟨leading, skipped, passesLeading, -⟩, parameters,
    sixth, readsParameters, closing, seventh, ⟨closes, passesClosing⟩, result, eighth, readsResult,
    block, _, readsBlock, rfl, rfl⟩ := succeeds
  obtain ⟨list, passesList, areParameters⟩ := parameterList_sound fuel readsParameters
  obtain ⟨arrow, passesArrow, isResult⟩ := resultType_sound readsResult
  obtain ⟨body, passesBody, isBody⟩ := (sound fuel).block readsBlock
  have passesHead := passesStart.cons (passesName.cons (passesOpening.cons passesLeading))
  have passesResult := passesClosing.cons passesArrow
  exact ⟨_, ((passesHead.append passesList).append passesResult).append passesBody,
    .intro isStart isName opens skipped areParameters closes isResult isBody⟩

theorem item_sound {function : FunctionDecl} (succeeds : item fuel reader = .ok function after) :
    ∃ tokens, Passes reader tokens after ∧ IsFunction function tokens := by
  rw [item, get_bind] at succeeds
  repeat' split at succeeds
  · cases succeeds
  · cases succeeds
  · cases succeeds
  · exact function_sound succeeds

theorem itemList_sound (fuel : Nat) : ∀ {reader : Reader} {functions : List FunctionDecl},
    itemList fuel reader = .ok functions after →
    ∃ tokens, Passes reader tokens after ∧ AreFunctions functions tokens ∧
      after.atEnd = true := by
  induction fuel with
  | zero =>
      intro reader functions succeeds
      cases succeeds
  | succ fuel inductionHypothesis =>
      intro reader functions succeeds
      simp only [itemList, bind_eq_ok_iff, get_eq_ok_iff] at succeeds
      obtain ⟨first, middle, readsFirst, _, _, ⟨rfl, rfl⟩, succeeds⟩ := succeeds
      obtain ⟨tokens, passes, isFunction⟩ := item_sound readsFirst
      split at succeeds
      · rename_i atEnd
        obtain ⟨rfl, rfl⟩ := pure_eq_ok_iff.mp succeeds
        refine ⟨tokens ++ [], passes.append .none, ?_, atEnd⟩
        exact .last isFunction (by simp [Newlines])
      · split at succeeds
        · rename_i atNewline
          simp only [bind_eq_ok_iff, skipNewlines_eq_ok_iff, get_eq_ok_iff] at succeeds
          obtain ⟨_, later, ⟨newlines, skipped, passesNewlines, stopped⟩, _, _, ⟨rfl, rfl⟩,
            succeeds⟩ := succeeds
          have passesLine := passes.append passesNewlines
          split at succeeds
          · rename_i atEnd
            obtain ⟨rfl, rfl⟩ := pure_eq_ok_iff.mp succeeds
            exact ⟨_, passesLine, .last isFunction skipped, atEnd⟩
          · simp only [bind_eq_ok_iff, pure_eq_ok_iff] at succeeds
            obtain ⟨others, _, readsOthers, rfl, rfl⟩ := succeeds
            obtain ⟨more, passesMore, areFunctions, atEnd⟩ := inductionHypothesis readsOthers
            have ended := ne_nil_of_skipped passesNewlines atNewline stopped
            exact ⟨_, passesLine.append passesMore, .next isFunction skipped ended areFunctions,
              atEnd⟩
        · cases succeeds

theorem program_sound {program : Module} (succeeds : Read.program fuel reader = .ok program after) :
    ∃ tokens, Passes reader tokens after ∧ IsProgram program tokens ∧ after.atEnd = true := by
  simp only [Read.program, bind_eq_ok_iff, skipNewlines_eq_ok_iff, pure_eq_ok_iff] at succeeds
  obtain ⟨_, middle, ⟨leading, skipped, passesLeading, -⟩, functions, _, readsFunctions, rfl,
    rfl⟩ := succeeds
  obtain ⟨tokens, passes, areFunctions, atEnd⟩ := itemList_sound fuel readsFunctions
  exact ⟨_, passesLeading.append passes, .intro skipped areFunctions, atEnd⟩

end Soundness

/-! ## What is in the grammar is read -/

section Completeness

variable {reader middle after : Reader} {tokens : List Token}

/-- A type path is read up to a token that is no dot. -/
theorem gives_typeNames {path : TypePath} (isType : IsType path tokens) :
    ∀ {reader after : Reader}, Passes reader tokens after → after.isAt (.symbol .dot) = false →
      ∃ name middle, name.kind = .typeName ∧ name.ident = path.head ∧ Passes reader [name] middle ∧
        Gives typeNames middle path.inner after := by
  induction isType with
  | @name name isName =>
      intro reader after passes noDot
      refine ⟨name, after, isName, rfl, passes, gives_of_succ (.of_forall fun fuel => ?_)⟩
      rw [typeNames, bind_of_ok (eat_eq_false_iff.mpr ⟨noDot, rfl⟩)]
      rfl
  | @inner path name dot tokens isName isDot rest inductionHypothesis =>
      intro reader after passes noDot
      obtain ⟨second, passesName, passes⟩ := passes_cons_iff.mp passes
      obtain ⟨third, passesDot, passesRest⟩ := passes_cons_iff.mp passes
      obtain ⟨next, fourth, isNext, isHead, passesNext, givesRest⟩ :=
        inductionHypothesis passesRest noDot
      refine ⟨name, second, isName, rfl, passesName, gives_of_succ ?_⟩
      filter_upwards [givesRest] with fuel readsRest
      rw [typeNames, bind_of_ok (eat_eq_true_iff.mpr ⟨dot, isDot, passesDot⟩), if_pos rfl,
        bind_of_ok (expect_eq_ok_iff.mpr ⟨isNext, passesNext⟩), bind_of_ok readsRest]
      change EStateM.Result.ok (next.ident :: path.inner) after = _
      rw [isHead]
      rfl

theorem gives_typePath {path : TypePath} (isType : IsType path tokens)
    (passes : Passes reader tokens after) (noDot : after.isAt (.symbol .dot) = false) :
    Gives typePath reader path after := by
  obtain ⟨name, middle, isName, isHead, passesName, givesInner⟩ :=
    gives_typeNames isType passes noDot
  filter_upwards [givesInner] with fuel readsInner
  rw [typePath, bind_of_ok (expect_eq_ok_iff.mpr ⟨isName, passesName⟩), bind_of_ok readsInner]
  change EStateM.Result.ok (TypePath.mk name.ident path.inner after.previous) after = _
  obtain ⟨front, last, rfl, isSpan, -⟩ := isType.exists_last
  rw [isHead, passes.previous_eq, ← isSpan]

theorem gives_parameter {parameter : Parameter} (isParameter : IsParameter parameter tokens)
    (passes : Passes reader tokens after) (noDot : after.isAt (.symbol .dot) = false) :
    Gives Read.parameter reader parameter after := by
  obtain ⟨isName, isColon, isType⟩ := isParameter
  obtain ⟨second, passesName, passes⟩ := passes_cons_iff.mp passes
  obtain ⟨third, passesColon, passesType⟩ := passes_cons_iff.mp passes
  filter_upwards [gives_typePath isType passesType noDot] with fuel readsType
  rw [Read.parameter, bind_of_ok (identifier_eq_ok_iff.mpr ⟨_, isName, rfl, passesName⟩),
    bind_of_ok (expect_eq_ok_iff.mpr ⟨isColon, passesColon⟩), bind_of_ok readsType]
  rfl

/-- Before the list of parameters there is no newline. -/
theorem not_isAt_newline_of_parameters {parameters : List Parameter}
    (areParameters : AreParameters parameters tokens) (passes : Passes reader tokens after)
    (atClosing : after.isAt (.symbol .rightParen) = true) : reader.isAt .newline = false := by
  rcases areParameters.start with rfl | ⟨first, rest, rfl, isName⟩
  · rw [passes_nil_iff.mp passes]
    simp [isAt_eq_of_isAt atClosing]
  · simp [passes.isAt_eq, isName]

theorem gives_parameterList {parameters : List Parameter}
    (areParameters : AreParameters parameters tokens) :
    ∀ {reader after : Reader}, Passes reader tokens after →
      after.isAt (.symbol .rightParen) = true → Gives parameterList reader parameters after := by
  induction areParameters with
  | none =>
      intro reader after passes atClosing
      rw [passes_nil_iff.mp passes]
      refine gives_of_succ (.of_forall fun fuel => ?_)
      rw [parameterList, get_bind, isAt_eq_of_isAt atClosing]
      rfl
  | last isParameter =>
      intro reader after passes atClosing
      have atName : reader.isAt .identifier = true := by
        obtain ⟨isName, _, _⟩ := isParameter
        exact passes.isAt isName
      have noComma : eat (.symbol .comma) after = .ok false after :=
        eat_eq_false_iff.mpr ⟨by simp [isAt_eq_of_isAt atClosing], rfl⟩
      apply gives_of_succ
      filter_upwards [gives_parameter isParameter passes (by simp [isAt_eq_of_isAt atClosing])]
        with fuel readsParameter
      rw [parameterList, get_bind, atName, if_pos rfl, bind_of_ok readsParameter,
        bind_of_ok noComma]
      rfl
  | next isParameter isComma skipped areOthers inductionHypothesis =>
      intro reader after passes atClosing
      simp only [List.append_assoc, List.cons_append] at passes
      have atName : reader.isAt .identifier = true := by
        obtain ⟨isName, _, _⟩ := isParameter
        exact passes.isAt isName
      obtain ⟨second, passesFirst, passes⟩ := passes_append_iff.mp passes
      have atComma : second.isAt (.symbol .comma) = true := passes.isAt isComma
      obtain ⟨third, passesComma, passes⟩ := passes_cons_iff.mp passes
      obtain ⟨fourth, passesLeading, passesOthers⟩ := passes_append_iff.mp passes
      have skips := skipNewlines_of_passes skipped passesLeading
        (not_isAt_newline_of_parameters areOthers passesOthers atClosing)
      apply gives_of_succ
      filter_upwards [gives_parameter isParameter passesFirst (by simp [isAt_eq_of_isAt atComma]),
        inductionHypothesis passesOthers atClosing] with fuel readsParameter readsOthers
      rw [parameterList, get_bind, atName, if_pos rfl, bind_of_ok readsParameter,
        bind_of_ok (eat_eq_true_iff.mpr ⟨_, isComma, passesComma⟩), if_pos rfl, bind_of_ok skips,
        bind_of_ok readsOthers]
      rfl

theorem gives_resultType {result : Option TypePath} (isResult : IsResult result tokens)
    (passes : Passes reader tokens after) (atOpening : after.isAt (.symbol .leftBrace) = true) :
    Gives resultType reader result after := by
  cases isResult with
  | none =>
      rw [passes_nil_iff.mp passes]
      refine .of_forall fun fuel => ?_
      rw [resultType,
        bind_of_ok (eat_eq_false_iff.mpr ⟨by simp [isAt_eq_of_isAt atOpening], rfl⟩)]
      rfl
  | some isArrow isType =>
      obtain ⟨middle, passesArrow, passesType⟩ := passes_cons_iff.mp passes
      filter_upwards [gives_typePath isType passesType (by simp [isAt_eq_of_isAt atOpening])]
        with fuel readsType
      rw [resultType, bind_of_ok (eat_eq_true_iff.mpr ⟨_, isArrow, passesArrow⟩), if_pos rfl,
        bind_of_ok readsType]
      rfl

theorem gives_function {function : FunctionDecl} (isFunction : IsFunction function tokens)
    (passes : Passes reader tokens after) : Gives Read.function reader function after := by
  obtain ⟨isStart, isName, opens, skipped, areParameters, closes, isResult, isBody⟩ := isFunction
  simp only [List.cons_append, List.append_assoc] at passes
  obtain ⟨second, passesStart, passes⟩ := passes_cons_iff.mp passes
  obtain ⟨third, passesName, passes⟩ := passes_cons_iff.mp passes
  obtain ⟨fourth, passesOpening, passes⟩ := passes_cons_iff.mp passes
  obtain ⟨fifth, passesLeading, passes⟩ := passes_append_iff.mp passes
  obtain ⟨sixth, passesList, passes⟩ := passes_append_iff.mp passes
  have atClosing : sixth.isAt (.symbol .rightParen) = true := passes.isAt closes
  obtain ⟨seventh, passesClosing, passes⟩ := passes_cons_iff.mp passes
  obtain ⟨eighth, passesArrow, passesBody⟩ := passes_append_iff.mp passes
  have atBody : eighth.isAt (.symbol .leftBrace) = true := by
    obtain ⟨opening, rest, rfl, opensBody⟩ := isBody.block_opens
    exact passesBody.isAt opensBody
  have skips := skipNewlines_of_passes skipped passesLeading
    (not_isAt_newline_of_parameters areParameters passesList atClosing)
  filter_upwards [gives_parameterList areParameters passesList atClosing,
    gives_resultType isResult passesArrow atBody, complete isBody _ _ passesBody]
    with fuel readsParameters readsResult readsBody
  rw [Read.function, bind_of_ok (expect_eq_ok_iff.mpr ⟨isStart, passesStart⟩),
    bind_of_ok (identifier_eq_ok_iff.mpr ⟨_, isName, rfl, passesName⟩),
    bind_of_ok (expect_eq_ok_iff.mpr ⟨opens, passesOpening⟩), bind_of_ok skips,
    bind_of_ok readsParameters, bind_of_ok (expect_eq_ok_iff.mpr ⟨closes, passesClosing⟩),
    bind_of_ok readsResult, bind_of_ok readsBody]
  rfl

theorem isAt_fn_of_function {function : FunctionDecl} (isFunction : IsFunction function tokens)
    (passes : Passes reader tokens after) : reader.isAt (.keyword .kwFn) = true := by
  obtain ⟨isStart, _, _, _, _, _, _, _⟩ := isFunction
  simp only [List.cons_append] at passes
  exact passes.isAt isStart

theorem isAt_fn_of_functions {functions : List FunctionDecl}
    (areFunctions : AreFunctions functions tokens) (passes : Passes reader tokens after) :
    reader.isAt (.keyword .kwFn) = true := by
  cases areFunctions with
  | last isFunction _ =>
      obtain ⟨middle, passesFirst, -⟩ := passes_append_iff.mp passes
      exact isAt_fn_of_function isFunction passesFirst
  | next isFunction _ _ _ =>
      obtain ⟨later, passesLine, -⟩ := passes_append_iff.mp passes
      obtain ⟨middle, passesFirst, -⟩ := passes_append_iff.mp passesLine
      exact isAt_fn_of_function isFunction passesFirst

theorem gives_item {function : FunctionDecl} (isFunction : IsFunction function tokens)
    (passes : Passes reader tokens after) : Gives item reader function after := by
  have atStart := isAt_fn_of_function isFunction passes
  filter_upwards [gives_function isFunction passes] with fuel readsFunction
  simp only [item, get_bind, isAt_eq_of_isAt atStart]
  exact readsFunction

theorem atEnd_eq_false_of_isAt {kind : TokenKind} (isAt : reader.isAt kind = true) :
    reader.atEnd = false := by
  obtain ⟨token, present, -⟩ := isAt_iff.mp isAt
  rw [Bool.eq_false_iff, Ne, atEnd_iff, present]
  simp

theorem isAt_eq_false_of_atEnd {kind : TokenKind} (atEnd : reader.atEnd = true) :
    reader.isAt kind = false := by
  simp [isAt, atEnd_iff.mp atEnd]

theorem gives_itemList {functions : List FunctionDecl}
    (areFunctions : AreFunctions functions tokens) :
    ∀ {reader after : Reader}, Passes reader tokens after → after.atEnd = true →
      Gives itemList reader functions after := by
  induction areFunctions with
  | @last function tokens trailing isFunction skipped =>
      intro reader after passes atEnd
      obtain ⟨middle, passesFirst, passesTrailing⟩ := passes_append_iff.mp passes
      apply gives_of_succ
      filter_upwards [gives_item isFunction passesFirst] with fuel readsFirst
      rw [itemList, bind_of_ok readsFirst, get_bind]
      by_cases none : trailing = []
      · subst none
        rw [passes_nil_iff.mp passesTrailing, atEnd]
        rfl
      · have atNewline := passesTrailing.isAt_newline skipped none
        have skips := skipNewlines_of_passes skipped passesTrailing (isAt_eq_false_of_atEnd atEnd)
        rw [atEnd_eq_false_of_isAt atNewline, if_neg (by simp), if_pos atNewline,
          bind_of_ok skips, get_bind, if_pos atEnd]
        rfl
  | @next function others tokens newlines more isFunction skipped ended rest inductionHypothesis =>
      intro reader after passes atEnd
      obtain ⟨later, passes, passesRest⟩ := passes_append_iff.mp passes
      obtain ⟨middle, passesFirst, passesNewlines⟩ := passes_append_iff.mp passes
      have atStart := isAt_fn_of_functions rest passesRest
      have atNewline := passesNewlines.isAt_newline skipped ended
      have skips := skipNewlines_of_passes skipped passesNewlines
        (by simp [isAt_eq_of_isAt atStart])
      apply gives_of_succ
      filter_upwards [gives_item isFunction passesFirst, inductionHypothesis passesRest atEnd]
        with fuel readsFirst readsRest
      rw [itemList, bind_of_ok readsFirst, get_bind, atEnd_eq_false_of_isAt atNewline,
        if_neg (by simp), if_pos atNewline, bind_of_ok skips, get_bind,
        atEnd_eq_false_of_isAt atStart, if_neg (by simp), bind_of_ok readsRest]
      rfl

theorem gives_program {program : Module} (isProgram : IsProgram program tokens)
    (passes : Passes reader tokens after) (atEnd : after.atEnd = true) :
    Gives Read.program reader program after := by
  obtain ⟨skipped, areFunctions⟩ := isProgram
  obtain ⟨middle, passesLeading, passesFunctions⟩ := passes_append_iff.mp passes
  have atStart := isAt_fn_of_functions areFunctions passesFunctions
  have skips := skipNewlines_of_passes skipped passesLeading (by simp [isAt_eq_of_isAt atStart])
  filter_upwards [gives_itemList areFunctions passesFunctions atEnd] with fuel readsFunctions
  rw [Read.program, bind_of_ok skips, bind_of_ok readsFunctions]
  rfl

end Completeness

end Read

/-! ## Sources -/

theorem Reader.ofStream_eq_ok_iff {stream : TokenStream} {reader : Reader} :
    Reader.ofStream stream = .ok reader ↔
      reader = ⟨stream.tokens, stream.ending, .empty 0, true⟩ ∧
        (stream.tokens = [] → ∃ position, stream.ending = .finished position) := by
  obtain ⟨tokens, ending⟩ := stream
  cases tokens <;> cases ending <;> simp [Reader.ofStream, eq_comm]

theorem Reader.readProgram_of_isProgram {reader : Reader} {program : Module} {position : Position}
    (isProgram : IsProgram program reader.tokens) (finished : reader.ending = .finished position) :
    reader.readProgram.1 = .ok program := by
  obtain ⟨after, passes, noTokens⟩ := Reader.exists_passes (List.append_nil _).symm finished
  have atEnd : after.atEnd = true := by simp [Reader.atEnd, noTokens]
  have reads := Reader.readProgram_eq_ok_iff.mpr (Read.gives_program isProgram passes atEnd)
  rw [reads]

theorem Reader.isProgram_of_readProgram {reader : Reader} {program : Module}
    (succeeds : reader.readProgram.1 = .ok program) :
    IsProgram program reader.tokens ∧ ∃ position, reader.ending = .finished position := by
  obtain ⟨after, reads⟩ : ∃ after, reader.readProgram = (.ok program, after) :=
    ⟨reader.readProgram.2, by rw [← succeeds]⟩
  unfold Reader.readProgram at reads
  obtain ⟨tokens, passes, isProgram, atEnd⟩ := Read.program_sound (Read.run_eq_ok_iff.mp reads)
  have noTokens : after.tokens = [] := List.isEmpty_iff.mp atEnd
  have areTokens : reader.tokens = tokens := by
    rw [passes.tokens_eq, noTokens, List.append_nil]
  rw [areTokens]
  exact ⟨isProgram, passes.ending_finished isProgram.ne_nil noTokens⟩

/-- A source is accepted exactly if it is made of the tokens of a program. -/
theorem ofSource_eq_ok_iff_isProgram (source : Source) (program : Module) :
    Module.ofSource source = .ok program ↔
      ∃ tokens position, TokenStream.ofText source.characters = ⟨tokens, .finished position⟩ ∧
        IsProgram program tokens := by
  unfold Module.ofSource Reader.ofSource
  constructor
  · intro accepted
    cases started : Reader.ofStream (.ofText source.characters) with
    | error failure =>
        rw [started] at accepted
        cases accepted
    | ok reader =>
        rw [started] at accepted
        obtain ⟨isProgram, position, finished⟩ := Reader.isProgram_of_readProgram accepted
        obtain ⟨rfl, -⟩ := Reader.ofStream_eq_ok_iff.mp started
        refine ⟨_, position, ?_, isProgram⟩
        rw [← finished]
  · rintro ⟨tokens, position, isStream, isProgram⟩
    have started : Reader.ofStream (.ofText source.characters) =
        .ok ⟨tokens, .finished position, .empty 0, true⟩ := by
      rw [isStream, Reader.ofStream_eq_ok_iff]
      simp
    rw [started]
    exact Reader.readProgram_of_isProgram isProgram rfl

end ScalarLang
