import ScalarLang.Proofs.Reading.Viability

/-!
# Where reading a program stops

The functions that read types, parameters, functions and programs could have gone on from
where they fail, as those do that read expressions.  So could reading a whole program.
-/

set_option autoImplicit false

namespace ScalarLang

open Grammar

namespace Read

open Reader TokenKind

/-! ## Types and parameters -/

theorem typeNames_breaks (fuel : Nat) : ∀ {name : Token} (reader : Reader),
    name.kind = .typeName →
    Breaks (fun row => ∃ path, IsType path (name :: row)) (typeNames fuel) reader := by
  induction fuel with
  | zero => exact fun _ _ => breaks_exhausted
  | succ fuel inductionHypothesis =>
      intro name reader isName
      unfold typeNames
      refine .eat ?_ ?_ (fun _ => breaks_pure)
      · intro dot isDot
        exact ⟨[.typeName], by decide, _, .inner isName isDot (.name rfl)⟩
      intro dot second isDot _
      refine .bind (expect_parses rfl) ?_ ?_
      · intro row isRow
        obtain ⟨next, rfl, isNext⟩ := isRow
        exact .done ⟨_, .inner isName isDot (.name isNext)⟩
      intro _ third row _ _ isRow
      obtain ⟨next, rfl, isNext⟩ := isRow
      refine ((inductionHypothesis third isNext).mono ?_).map
      intro more isMore
      obtain ⟨path, isType⟩ := isMore
      exact .done ⟨_, .inner isName isDot isType⟩

theorem typePath_parses (fuel : Nat) (reader : Reader) :
    Parses (fun row => ∃ path, IsType path row) (typePath fuel) reader where
  passes := by
    intro path after succeeds
    obtain ⟨tokens, passes, isType⟩ := typePath_sound succeeds
    exact ⟨tokens, passes, path, isType⟩
  breaks := by
    unfold typePath
    refine .bind (expect_parses rfl) ?_ ?_
    · intro row isRow
      obtain ⟨name, rfl, isName⟩ := isRow
      exact .done ⟨_, .name isName⟩
    intro _ second row _ _ isRow
    obtain ⟨name, rfl, isName⟩ := isRow
    exact (typeNames_breaks fuel second isName).followedBy fun _ _ => ⟨_, _, rfl⟩

theorem parameter_parses (fuel : Nat) (reader : Reader) :
    Parses (fun row => ∃ parameter, IsParameter parameter row) (parameter fuel) reader where
  passes := by
    intro parameter after succeeds
    obtain ⟨tokens, passes, isParameter⟩ := parameter_sound succeeds
    exact ⟨tokens, passes, parameter, isParameter⟩
  breaks := by
    unfold parameter
    refine .bind identifier_parses ?_ ?_
    · intro row isRow
      obtain ⟨name, rfl, isName⟩ := isRow
      exact ⟨[.symbol .colon, .typeName], by decide, _, .intro isName rfl (.name rfl)⟩
    intro _ second row _ _ isRow
    obtain ⟨name, rfl, isName⟩ := isRow
    refine .bind (expect_parses rfl) ?_ ?_
    · intro row isRow
      obtain ⟨colon, rfl, isColon⟩ := isRow
      exact ⟨[.typeName], by decide, _, .intro isName isColon (.name rfl)⟩
    intro _ third row _ _ isRow
    obtain ⟨colon, rfl, isColon⟩ := isRow
    refine ((typePath_parses fuel third).breaks.mono ?_).map
    intro row isRow
    obtain ⟨path, isType⟩ := isRow
    exact .done ⟨_, .intro isName isColon isType⟩

theorem parameterList_breaks (fuel : Nat) : ∀ reader : Reader,
    Breaks (fun row => ∃ parameters, AreParameters parameters row) (parameterList fuel)
      reader := by
  induction fuel with
  | zero => exact fun _ => breaks_exhausted
  | succ fuel inductionHypothesis =>
      intro reader
      unfold parameterList
      apply breaks_get
      split
      · refine .bind (parameter_parses fuel reader) ?_ ?_
        · intro row isRow
          obtain ⟨parameter, isParameter⟩ := isRow
          exact .done ⟨_, .last isParameter⟩
        intro _ second row _ _ isRow
        obtain ⟨parameter, isParameter⟩ := isRow
        have goesOn : ∀ {comma : Token} {leading more : List Token},
            comma.kind = .symbol .comma → Newlines leading →
            (∃ parameters, AreParameters parameters more) →
            ∃ parameters, AreParameters parameters (row ++ comma :: (leading ++ more)) := by
          intro comma leading more isComma skipped areMore
          obtain ⟨others, areOthers⟩ := areMore
          have areAll := AreParameters.next isParameter isComma skipped areOthers
          exact ⟨_, by simpa using areAll⟩
        refine .eat ?_ ?_ (fun _ => breaks_pure)
        · intro comma isComma
          exact .done (goesOn isComma newlines_nil ⟨[], .none⟩)
        intro comma third isComma _
        refine .bind skipNewlines_parses ?_ ?_
        · intro leading skipped
          have areAll := goesOn isComma skipped ⟨[], .none⟩
          rw [List.append_nil] at areAll
          exact .done areAll
        intro _ fourth leading _ _ skipped
        refine ((inductionHypothesis fourth).mono ?_).map
        intro more areMore
        exact .done (goesOn isComma skipped areMore)
      · exact breaks_pure

theorem parameterList_parses (fuel : Nat) (reader : Reader) :
    Parses (fun row => ∃ parameters, AreParameters parameters row) (parameterList fuel)
      reader where
  passes := by
    intro parameters after succeeds
    obtain ⟨tokens, passes, areParameters⟩ := parameterList_sound fuel succeeds
    exact ⟨tokens, passes, parameters, areParameters⟩
  breaks := parameterList_breaks fuel reader

theorem resultType_parses (fuel : Nat) (reader : Reader) :
    Parses (fun row => ∃ result, IsResult result row) (resultType fuel) reader where
  passes := by
    intro result after succeeds
    obtain ⟨tokens, passes, isResult⟩ := resultType_sound succeeds
    exact ⟨tokens, passes, result, isResult⟩
  breaks := by
    unfold resultType
    refine .eat ?_ ?_ (fun _ => breaks_pure)
    · intro arrow isArrow
      exact ⟨[.typeName], by decide, _, .some isArrow (.name rfl)⟩
    intro arrow second isArrow _
    refine ((typePath_parses fuel second).breaks.mono ?_).map
    intro row isRow
    obtain ⟨path, isType⟩ := isRow
    exact .done ⟨_, .some isArrow isType⟩

/-! ## Functions and programs -/

/-- The parts of a function in turn make a function. -/
theorem exists_function {start name opening closing : Token} {leading list arrow body : List Token}
    (isStart : start.kind = .keyword .kwFn) (isName : name.kind = .identifier)
    (opens : opening.kind = .symbol .leftParen) (skipped : Newlines leading)
    (areParameters : ∃ parameters, AreParameters parameters list)
    (closes : closing.kind = .symbol .rightParen) (isResult : ∃ result, IsResult result arrow)
    (isBody : Phrases .block body) :
    ∃ function, IsFunction function
      (start :: name :: opening :: (leading ++ (list ++ closing :: (arrow ++ body)))) := by
  obtain ⟨parameters, areParameters⟩ := areParameters
  obtain ⟨result, isResult⟩ := isResult
  obtain ⟨block, isBody⟩ := isBody
  have isFunction :=
    IsFunction.intro isStart isName opens skipped areParameters closes isResult isBody
  exact ⟨_, by simpa using isFunction⟩

/-- The kinds of the tokens of a function without parameters, result and statements. -/
def functionKinds : List TokenKind :=
  [.keyword .kwFn, .identifier, .symbol .leftParen, .symbol .rightParen, .symbol .leftBrace,
    .symbol .rightBrace]

theorem function_sample : ∃ function, IsFunction function (functionKinds.map sample) :=
  exists_function (sample_kind _) (sample_kind _) (sample_kind _) newlines_nil ⟨[], .none⟩
    (sample_kind (.symbol .rightParen)) ⟨none, .none⟩ block_sample

theorem function_parses (fuel : Nat) (reader : Reader) :
    Parses (fun row => ∃ function, IsFunction function row) (function fuel) reader where
  passes := by
    intro function after succeeds
    obtain ⟨tokens, passes, isFunction⟩ := function_sound succeeds
    exact ⟨tokens, passes, function, isFunction⟩
  breaks := by
    have noParameters : ∃ parameters, AreParameters parameters [] := ⟨[], .none⟩
    have noResult : ∃ result, IsResult result [] := ⟨none, .none⟩
    unfold function
    refine .bind (expect_parses rfl) ?_ ?_
    · intro row isRow
      obtain ⟨start, rfl, isStart⟩ := isRow
      have isFunction := exists_function isStart (sample_kind .identifier)
        (sample_kind (.symbol .leftParen)) newlines_nil noParameters
        (sample_kind (.symbol .rightParen)) noResult block_sample
      exact ⟨functionKinds.drop 1, by decide, isFunction⟩
    intro _ second row _ _ isRow
    obtain ⟨start, rfl, isStart⟩ := isRow
    refine .bind identifier_parses ?_ ?_
    · intro row isRow
      obtain ⟨name, rfl, isName⟩ := isRow
      have isFunction := exists_function isStart isName (sample_kind (.symbol .leftParen))
        newlines_nil noParameters (sample_kind (.symbol .rightParen)) noResult block_sample
      exact ⟨functionKinds.drop 2, by decide, isFunction⟩
    intro _ third row _ _ isRow
    obtain ⟨name, rfl, isName⟩ := isRow
    refine .bind (expect_parses rfl) ?_ ?_
    · intro row isRow
      obtain ⟨opening, rfl, opens⟩ := isRow
      have isFunction := exists_function isStart isName opens newlines_nil noParameters
        (sample_kind (.symbol .rightParen)) noResult block_sample
      exact ⟨functionKinds.drop 3, by decide, isFunction⟩
    intro _ fourth row _ _ isRow
    obtain ⟨opening, rfl, opens⟩ := isRow
    refine .bind skipNewlines_parses ?_ ?_
    · intro leading skipped
      have isFunction := exists_function isStart isName opens skipped noParameters
        (sample_kind (.symbol .rightParen)) noResult block_sample
      exact ⟨functionKinds.drop 3, by decide, isFunction⟩
    intro _ fifth leading _ _ skipped
    refine .bind (parameterList_parses fuel fifth) ?_ ?_
    · intro list areParameters
      have isFunction := exists_function isStart isName opens skipped areParameters
        (sample_kind (.symbol .rightParen)) noResult block_sample
      exact ⟨functionKinds.drop 3, by decide, isFunction⟩
    intro _ sixth list _ _ areParameters
    refine .bind (expect_parses rfl) ?_ ?_
    · intro row isRow
      obtain ⟨closing, rfl, closes⟩ := isRow
      have isFunction := exists_function isStart isName opens skipped areParameters closes noResult
        block_sample
      exact ⟨functionKinds.drop 4, by decide, isFunction⟩
    intro _ seventh row _ _ isRow
    obtain ⟨closing, rfl, closes⟩ := isRow
    refine .bind (resultType_parses fuel seventh) ?_ ?_
    · intro arrow isResult
      have isFunction := exists_function isStart isName opens skipped areParameters closes isResult
        block_sample
      exact ⟨functionKinds.drop 4, by decide, isFunction⟩
    intro _ eighth arrow _ _ isResult
    refine (((breaksWell fuel).block eighth).mono ?_).map
    intro body isBody
    have isFunction :=
      exists_function isStart isName opens skipped areParameters closes isResult isBody
    exact .done isFunction

theorem item_parses (fuel : Nat) (reader : Reader) :
    Parses (fun row => ∃ function, IsFunction function row) (item fuel) reader where
  passes := by
    intro function after succeeds
    obtain ⟨tokens, passes, isFunction⟩ := item_sound succeeds
    exact ⟨tokens, passes, function, isFunction⟩
  breaks := by
    have viable : Completes (fun row => ∃ function, IsFunction function row) [] :=
      ⟨functionKinds, by decide, function_sample⟩
    unfold item
    apply breaks_get
    have refuses : ∀ {kind : TokenKind} {construct : Construct}, reader.isAt kind = true →
        Breaks (fun row => ∃ function, IsFunction function row)
          (fail (.notYetSupported construct) : Read FunctionDecl) reader := by
      intro kind construct isAt
      obtain ⟨token, present, -⟩ := isAt_iff.mp isAt
      exact breaks_unsupported present viable
    split
    · exact refuses (by assumption)
    · split
      · exact refuses (by assumption)
      · split
        · exact refuses (by assumption)
        · exact (function_parses fuel reader).breaks

theorem itemList_breaks (fuel : Nat) : ∀ reader : Reader,
    Breaks (fun row => ∃ functions, AreFunctions functions row) (itemList fuel) reader := by
  induction fuel with
  | zero => exact fun _ => breaks_exhausted
  | succ fuel inductionHypothesis =>
      intro reader
      unfold itemList
      have goesOn : ∀ {row newlines : List Token}, (∃ function, IsFunction function row) →
          Newlines newlines → ∃ functions, AreFunctions functions (row ++ newlines) := by
        intro row newlines isRow skipped
        obtain ⟨function, isFunction⟩ := isRow
        exact ⟨_, .last isFunction skipped⟩
      refine .bind (item_parses fuel reader) ?_ ?_
      · intro row isRow
        have areFunctions := goesOn isRow newlines_nil
        rw [List.append_nil] at areFunctions
        exact .done areFunctions
      intro _ second row _ _ isRow
      apply breaks_get
      split
      · exact breaks_pure
      · split
        · rename_i atNewline
          refine .bind skipNewlines_parses ?_ ?_
          · intro newlines skipped
            exact .done (goesOn isRow skipped)
          intro _ third newlines skips passesNewlines skipped
          obtain ⟨_, -, -, stopped⟩ := skipNewlines_eq_ok_iff.mp skips
          have ended := ne_nil_of_skipped passesNewlines atNewline stopped
          apply breaks_get
          split
          · exact breaks_pure
          · refine ((inductionHypothesis third).mono ?_).map
            intro more areMore
            obtain ⟨function, isFunction⟩ := isRow
            obtain ⟨functions, areFunctions⟩ := areMore
            have areAll := AreFunctions.next isFunction skipped ended areFunctions
            exact .done ⟨_, by simpa using areAll⟩
        · exact breaks_unexpected (.done (goesOn isRow newlines_nil))

/-- Newlines alone can be gone on with to a program. -/
theorem completes_program {leading : List Token} (skipped : Newlines leading) :
    Completes (fun row => ∃ program, IsProgram program row) leading := by
  obtain ⟨function, isFunction⟩ := function_sample
  have areFunctions := AreFunctions.last isFunction newlines_nil
  rw [List.append_nil] at areFunctions
  exact ⟨functionKinds, by decide, _, .intro skipped areFunctions⟩

/-- Where reading a program stops, it could have gone on to a program. -/
theorem program_breaks (fuel : Nat) (reader : Reader) :
    Breaks (fun row => ∃ program, IsProgram program row) (program fuel) reader := by
  unfold program
  refine .bind skipNewlines_parses (fun leading skipped => completes_program skipped) ?_
  intro _ second leading _ _ skipped
  refine ((itemList_breaks fuel second).mono ?_).map
  intro row areRow
  obtain ⟨functions, areFunctions⟩ := areRow
  exact .done ⟨_, .intro skipped areFunctions⟩

end Read

end ScalarLang
