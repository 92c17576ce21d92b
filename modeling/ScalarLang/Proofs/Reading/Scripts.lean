import ScalarLang.Proofs.Reading.Depth
import ScalarLang.Proofs.Reading.Steps

/-!
# Reading functions, call by call

A script says what one call of a reading function does: it looks at the reader, passes single
tokens, fails, or calls a reading function.  A script can pass tokens in no other way, so the
calls that its run makes are all that can take long.  Running the script of a function with the
functions themselves in place of its calls gives back the function.
-/

set_option autoImplicit false

namespace ScalarLang

/-- The functions that read a part of a program, with what they are given.  Each loop over
tokens is a function that calls itself. -/
inductive Reading where
  | program
  | itemList
  | item
  | function
  | parameterList
  | parameter
  | resultType
  | typePath
  | typeNames
  | block
  | statementList
  | statement
  | childList
  | expression (bound : Nat)
  | operations (bound : Nat) (left : Expr)
  | unary
  | primary
  | call (name : Ident)
  | callArguments
  | conditional
  | newlines

namespace Reading

@[reducible]
def Value : Reading → Type
  | .program => Module
  | .itemList => List FunctionDecl
  | .item => FunctionDecl
  | .function => FunctionDecl
  | .parameterList => List Parameter
  | .parameter => Parameter
  | .resultType => Option TypePath
  | .typePath => TypePath
  | .typeNames => List Ident
  | .block => Block
  | .statementList => List Expr
  | .statement => Expr
  | .childList => List Expr
  | .expression _ => Expr
  | .operations _ _ => Expr
  | .unary => Expr
  | .primary => Expr
  | .call _ => Expr
  | .callArguments => List CallArgument
  | .conditional => Expr
  | .newlines => Unit

def action : (reading : Reading) → Nat → Read reading.Value
  | .program => Read.program
  | .itemList => Read.itemList
  | .item => Read.item
  | .function => Read.function
  | .parameterList => Read.parameterList
  | .parameter => Read.parameter
  | .resultType => Read.resultType
  | .typePath => Read.typePath
  | .typeNames => Read.typeNames
  | .block => Read.block
  | .statementList => Read.statementList
  | .statement => fun fuel => Read.expression fuel 0
  | .childList => Read.childList
  | .expression bound => fun fuel => Read.expression fuel bound
  | .operations bound left => fun fuel => Read.operations fuel bound left
  | .unary => Read.unary
  | .primary => Read.primary
  | .call name => fun fuel => Read.call fuel name
  | .callArguments => Read.callArguments
  | .conditional => Read.conditional
  | .newlines => fun _ => Read.skipNewlines

end Reading

/-! ## Scripts -/

/-- One call of a reading function, with the calls it makes left open. -/
inductive Script : Type → Type 1
  | done {α : Type} (value : α) : Script α
  | look {α : Type} (next : Reader → Script α) : Script α
  | pass {α : Type} (next : Script α) : Script α
  | reject {α : Type} (error : SyntaxError) : Script α
  | within {α β : Type} (allowed : Bool) (inner : Script β) (next : β → Script α) : Script α
  | call {α : Type} (reading : Reading) (next : reading.Value → Script α) : Script α

namespace Script

structure Call where
  reading : Reading
  reader : Reader

abbrev Callees := (reading : Reading) → Read reading.Value

variable {α β : Type}

def bind : {α : Type} → Script α → (α → Script β) → Script β
  | _, .done value, next => next value
  | _, .look first, next => .look fun reader => (first reader).bind next
  | _, .pass first, next => .pass (first.bind next)
  | _, .reject error, _ => .reject error
  | _, .within allowed inner first, next =>
    .within allowed inner fun value => (first value).bind next
  | _, .call reading first, next => .call reading fun value => (first value).bind next

instance : Monad Script where
  pure := .done
  bind := .bind

def run (callees : Callees) : {α : Type} → Script α → Read α
  | _, .done value => pure value
  | _, .look next => fun reader => (next reader).run callees reader
  | _, .pass next => Read.advance >>= fun _ => next.run callees
  | _, .reject error => fun reader => .error (.rejected error) reader
  | _, .within allowed inner next =>
    Read.withChildren allowed (inner.run callees) >>= fun value => (next value).run callees
  | _, .call reading next => callees reading >>= fun value => (next value).run callees

def callsAfter (outcome : EStateM.Result ReadFailure Reader α) (next : α → Reader → List Call) :
    List Call :=
  match outcome with
  | .ok value after => next value after
  | .error _ _ => []

def calls (callees : Callees) : {α : Type} → Script α → Reader → List Call
  | _, .done _, _ => []
  | _, .look next, reader => (next reader).calls callees reader
  | _, .pass next, reader => callsAfter (Read.advance reader) fun _ => next.calls callees
  | _, .reject _, _ => []
  | _, .within allowed inner next, reader =>
    inner.calls callees (reader.allow allowed) ++
      callsAfter (Read.withChildren allowed (inner.run callees) reader) fun value =>
        (next value).calls callees
  | _, .call reading next, reader =>
    ⟨reading, reader⟩ :: callsAfter (callees reading reader) fun value =>
      (next value).calls callees

/-! ## Parts of scripts -/

def get : Script Reader := .look .done

def advance : Script Unit := .pass (.done ())

def invoke (reading : Reading) : Script reading.Value := .call reading .done

def withChildren (allowed : Bool) (inner : Script α) : Script α := .within allowed inner .done

def fail (fault : SyntaxFault) : Script α := .look fun reader => .reject (reader.errorHere fault)

def unexpected (wanted : Expectation) : Script α := .look fun reader =>
  let found := reader.current?.map fun token => (token.kind, token.text)
  .reject (reader.errorHere (.expected wanted found))

def expect (kind : TokenKind) : Script Token := do
  match (← get).current? with
  | some token =>
    if token.kind = kind then
      advance
      return token
    else
      unexpected (.token kind)
  | none => unexpected (.token kind)

def eat (kind : TokenKind) : Script Bool := do
  if (← get).isAt kind then
    advance
    return true
  else
    return false

def identifier : Script Ident := do
  let token ← expect .identifier
  return ⟨token.text, token.span⟩

def integerValue (value? : Option Int64) (token : Token) : Script Int64 :=
  match value? with
  | some value => pure value
  | none => fail (.invalidLiteral token.kind token.text)

/-! ## Runs of scripts -/

section Run

variable (callees : Callees)

theorem run_pure (value : α) : (pure value : Script α).run callees = pure value := rfl

theorem run_bind (script : Script α) (next : α → Script β) :
    (script >>= next).run callees =
      script.run callees >>= fun value => (next value).run callees := by
  change (script.bind next).run callees = _
  induction script with
  | done value => rfl
  | look first inductionHypothesis =>
      funext reader
      exact congrFun (inductionHypothesis reader next) reader
  | pass first inductionHypothesis =>
      rw [bind, run, run, inductionHypothesis, bind_assoc]
  | reject error => rfl
  | within allowed inner first _ inductionHypothesis =>
      rw [bind, run, run, bind_assoc]
      exact congrArg _ (funext fun value => inductionHypothesis value next)
  | call reading first inductionHypothesis =>
      rw [bind, run, run, bind_assoc]
      exact congrArg _ (funext fun value => inductionHypothesis value next)

theorem run_get : get.run callees = MonadState.get := rfl

theorem run_advance : advance.run callees = Read.advance := bind_pure _

theorem run_invoke (reading : Reading) : (invoke reading).run callees = callees reading :=
  bind_pure _

theorem run_withChildren (allowed : Bool) (inner : Script α) :
    (withChildren allowed inner).run callees = Read.withChildren allowed (inner.run callees) :=
  bind_pure _

theorem run_fail (fault : SyntaxFault) : (fail fault : Script α).run callees = Read.fail fault :=
  rfl

theorem run_unexpected (wanted : Expectation) :
    (unexpected wanted : Script α).run callees = Read.unexpected wanted := rfl

theorem run_ite (condition : Prop) [Decidable condition] (first second : Script α) :
    (if condition then first else second).run callees =
      if condition then first.run callees else second.run callees := by
  split <;> rfl

theorem run_expect (kind : TokenKind) : (expect kind).run callees = Read.expect kind := by
  rw [expect, Read.expect, run_bind, run_get]
  refine congrArg _ (funext fun reader => ?_)
  cases reader.current? with
  | none => rfl
  | some token =>
      dsimp only
      rw [run_ite, run_bind, run_advance]
      rfl

theorem run_eat (kind : TokenKind) : (eat kind).run callees = Read.eat kind := by
  rw [eat, Read.eat, run_bind, run_get]
  refine congrArg _ (funext fun reader => ?_)
  rw [run_ite, run_bind, run_advance]
  rfl

theorem run_identifier : identifier.run callees = Read.identifier := by
  rw [identifier, Read.identifier, run_bind, run_expect]
  rfl

theorem run_integerValue (value? : Option Int64) (token : Token) :
    (integerValue value? token).run callees = Read.integerValue value? token := by
  cases value? <;> rfl

end Run

/-! ## Calls of scripts -/

section Calls

variable {callees others : Callees} {reader : Reader}

theorem mem_callsAfter_iff {outcome : EStateM.Result ReadFailure Reader α}
    {next : α → Reader → List Call} {call : Call} :
    call ∈ callsAfter outcome next ↔
      ∃ value after, outcome = .ok value after ∧ call ∈ next value after := by
  cases outcome <;> simp [callsAfter]

theorem callsAfter_nil (outcome : EStateM.Result ReadFailure Reader α) :
    callsAfter outcome (fun _ _ => []) = [] := by
  cases outcome <;> rfl

theorem calls_invoke (reading : Reading) (reader : Reader) :
    (invoke reading).calls callees reader = [⟨reading, reader⟩] :=
  congrArg _ (callsAfter_nil (callees reading reader))

theorem calls_withChildren (allowed : Bool) (inner : Script α) (reader : Reader) :
    (withChildren allowed inner).calls callees reader =
      inner.calls callees (reader.allow allowed) := by
  change _ ++ callsAfter (Read.withChildren allowed (inner.run callees) reader) (fun _ _ => []) = _
  rw [callsAfter_nil, List.append_nil]

theorem callsAfter_bind {action : Read α} {step : α → Read β} {first whole : α → Reader → List Call}
    {rest : β → Reader → List Call}
    (parts : ∀ value after, whole value after =
      first value after ++ callsAfter (step value after) rest) :
    callsAfter (action reader) whole =
      callsAfter (action reader) first ++ callsAfter ((action >>= step) reader) rest := by
  cases outcome : action reader with
  | ok value after =>
      rw [bind_of_ok outcome]
      exact parts value after
  | error failure after =>
      rw [bind_of_error outcome]
      rfl

theorem calls_bind (script : Script α) (next : α → Script β) (reader : Reader) :
    (script >>= next).calls callees reader = script.calls callees reader ++
      callsAfter (script.run callees reader) fun value => (next value).calls callees := by
  change (script.bind next).calls callees reader = _
  induction script generalizing reader with
  | done value => rfl
  | look first inductionHypothesis => exact inductionHypothesis reader next reader
  | pass first inductionHypothesis =>
      exact callsAfter_bind fun _ after => inductionHypothesis next after
  | reject error => rfl
  | within allowed inner first _ inductionHypothesis =>
      rw [bind, calls, calls, run, List.append_assoc]
      exact congrArg _ (callsAfter_bind fun value after => inductionHypothesis value next after)
  | call reading first inductionHypothesis =>
      rw [bind, calls, calls, run, List.cons_append]
      exact congrArg _ (callsAfter_bind fun value after => inductionHypothesis value next after)

theorem bind_congr_at {first second : Read α} {next other : α → Read β}
    (same : first reader = second reader)
    (sameNext : ∀ value after, first reader = .ok value after →
      next value after = other value after) :
    (first >>= next) reader = (second >>= other) reader := by
  cases outcome : first reader with
  | ok value after =>
      rw [bind_of_ok outcome, bind_of_ok (same.symm.trans outcome)]
      exact sameNext value after outcome
  | error failure after =>
      rw [bind_of_error outcome, bind_of_error (same.symm.trans outcome)]

theorem withChildren_congr_at {allowed : Bool} {first second : Read α}
    (same : first (reader.allow allowed) = second (reader.allow allowed)) :
    Read.withChildren allowed first reader = Read.withChildren allowed second reader := by
  cases outcome : first (reader.allow allowed) with
  | ok value after =>
      rw [Read.withChildren_of_ok outcome, Read.withChildren_of_ok (same.symm.trans outcome)]
  | error failure after =>
      rw [Read.withChildren_of_error outcome, Read.withChildren_of_error (same.symm.trans outcome)]

/-- A run depends on the functions only at the calls it makes. -/
theorem run_congr (script : Script α) (reader : Reader)
    (agree : ∀ call ∈ script.calls callees reader,
      callees call.reading call.reader = others call.reading call.reader) :
    script.run callees reader = script.run others reader := by
  induction script generalizing reader with
  | done value => rfl
  | look next inductionHypothesis => exact inductionHypothesis reader reader agree
  | pass next inductionHypothesis =>
      refine bind_congr_at rfl fun _ after passed => inductionHypothesis after fun call made => ?_
      exact agree call (mem_callsAfter_iff.mpr ⟨_, after, passed, made⟩)
  | reject error => rfl
  | within allowed inner next inductionInner inductionNext =>
      refine bind_congr_at ?_ fun value after succeeds => ?_
      · refine withChildren_congr_at (inductionInner _ fun call made => ?_)
        exact agree call (List.mem_append_left _ made)
      · refine inductionNext value after fun call made => agree call (List.mem_append_right _ ?_)
        exact mem_callsAfter_iff.mpr ⟨value, after, succeeds, made⟩
  | call reading next inductionHypothesis =>
      refine bind_congr_at (agree _ List.mem_cons_self) fun value after succeeds => ?_
      refine inductionHypothesis value after fun call made => agree call (List.mem_cons_of_mem _ ?_)
      exact mem_callsAfter_iff.mpr ⟨value, after, succeeds, made⟩

def Silent (script : Script α) : Prop :=
  ∀ callees reader, script.calls callees reader = []

theorem silent_pure (value : α) : (pure value : Script α).Silent := fun _ _ => rfl

theorem silent_get : get.Silent := fun _ _ => rfl

theorem silent_unexpected (wanted : Expectation) : (unexpected wanted : Script α).Silent :=
  fun _ _ => rfl

theorem silent_fail (fault : SyntaxFault) : (fail fault : Script α).Silent := fun _ _ => rfl

theorem silent_advance : advance.Silent := fun _ reader => callsAfter_nil (Read.advance reader)

theorem Silent.bind {script : Script α} {next : α → Script β} (first : script.Silent)
    (second : ∀ value, (next value).Silent) : (script >>= next).Silent := by
  intro callees reader
  rw [calls_bind, first, List.nil_append]
  cases script.run callees reader with
  | ok value after => exact second value callees after
  | error failure after => rfl

theorem silent_expect (kind : TokenKind) : (expect kind).Silent := by
  refine silent_get.bind fun reader => ?_
  split
  · split
    · exact silent_advance.bind fun _ => silent_pure _
    · exact silent_unexpected _
  · exact silent_unexpected _

theorem silent_eat (kind : TokenKind) : (eat kind).Silent := by
  refine silent_get.bind fun reader => ?_
  split
  · exact silent_advance.bind fun _ => silent_pure _
  · exact silent_pure _

theorem silent_identifier : identifier.Silent :=
  (silent_expect _).bind fun _ => silent_pure _

end Calls

end Script

/-! ## The scripts of the functions -/

namespace Reading

open Script

def script : (reading : Reading) → Script reading.Value
  | .program => do
    invoke .newlines
    let functions ← invoke .itemList
    return ⟨functions⟩
  | .itemList => do
    let first ← invoke .item
    let reader ← Script.get
    if reader.atEnd then
      return [first]
    else if reader.isAt .newline then
      invoke .newlines
      if (← Script.get).atEnd then
        return [first]
      else
        let others ← invoke .itemList
        return first :: others
    else
      unexpected .newline
  | .item => do
    let reader ← Script.get
    if reader.isAt (.keyword .kwImport) then Script.fail (.notYetSupported .imports)
    else if reader.isAt (.keyword .kwStruct) then Script.fail (.notYetSupported .structures)
    else if reader.isAt (.keyword .kwExport) then Script.fail (.notYetSupported .exports)
    else invoke .function
  | .function => do
    let _ ← expect (.keyword .kwFn)
    let name ← identifier
    let _ ← expect (.symbol .leftParen)
    invoke .newlines
    let parameters ← invoke .parameterList
    let _ ← expect (.symbol .rightParen)
    let resultType ← invoke .resultType
    let body ← invoke .block
    return ⟨name, parameters, resultType, body⟩
  | .parameterList => do
    if (← Script.get).isAt .identifier then
      let first ← invoke .parameter
      if ← eat (.symbol .comma) then
        invoke .newlines
        let others ← invoke .parameterList
        return first :: others
      else
        return [first]
    else
      return []
  | .parameter => do
    let name ← identifier
    let _ ← expect (.symbol .colon)
    let type ← invoke .typePath
    return ⟨name, type⟩
  | .resultType => do
    if ← eat (.symbol .arrow) then
      let type ← invoke .typePath
      return some type
    else
      return none
  | .typePath => do
    let token ← expect .typeName
    let inner ← invoke .typeNames
    return ⟨⟨token.text, token.span⟩, inner, (← Script.get).previous⟩
  | .typeNames => do
    if ← eat (.symbol .dot) then
      let token ← expect .typeName
      let others ← invoke .typeNames
      return ⟨token.text, token.span⟩ :: others
    else
      return []
  | .block => Script.withChildren true do
    let _ ← expect (.symbol .leftBrace)
    invoke .newlines
    let statements ← invoke .statementList
    if ← eat (.keyword .kwReturn) then
      let result ← invoke .statement
      invoke .newlines
      let _ ← expect (.symbol .rightBrace)
      return ⟨statements, some result⟩
    else
      let _ ← expect (.symbol .rightBrace)
      return ⟨statements, none⟩
  | .statementList => do
    if (← Script.get).hasStatement then
      let statement ← invoke .statement
      if (← Script.get).isAt .newline then
        invoke .newlines
        let others ← invoke .statementList
        return statement :: others
      else
        return [statement]
    else
      return []
  | .statement => invoke (.expression 0)
  | .childList => do
    if (← Script.get).hasChild then
      let child ← invoke (.expression 0)
      if (← Script.get).isAt .newline then
        invoke .newlines
        let others ← invoke .childList
        return child :: others
      else
        return [child]
    else
      return []
  | .expression bound => do
    let first ← invoke .unary
    invoke (.operations bound first)
  | .operations bound left => do
    match (← Script.get).binaryOp? bound with
    | none => return left
    | some op =>
      Script.advance
      invoke .newlines
      let right ← invoke (.expression op.precedence)
      invoke (.operations bound (.binary op left right (left.span.union right.span)))
  | .unary => do
    match (← Script.get).unaryOp? with
    | none => invoke .primary
    | some (op, span) =>
      Script.advance
      match (← Script.get).negated? op with
      | some token =>
        let value ← integerValue (Literal.negativeInteger? token.text) token
        Script.advance
        return .literal (.integer value) (span.union token.span)
      | none =>
        let operand ← invoke .primary
        return .unary op operand (span.union operand.span)
  | .primary => do
    match (← Script.get).current? with
    | none => unexpected .expression
    | some token =>
      match token.kind with
      | .identifier =>
        Script.advance
        if (← Script.get).isAt (.symbol .leftParen) then
          invoke (.call ⟨token.text, token.span⟩)
        else
          return .identifier token.text token.span
      | .integer =>
        let value ← integerValue (Literal.positiveInteger? token.text) token
        Script.advance
        return .literal (.integer value) token.span
      | .float =>
        Script.advance
        return .literal (.float (Literal.floatOfText token.text)) token.span
      | .boolean =>
        Script.advance
        return .literal (.boolean (token.text == "true")) token.span
      | .symbol .leftParen =>
        Script.advance
        invoke .newlines
        let inner ← Script.withChildren true (invoke (.expression 0))
        invoke .newlines
        let close ← expect (.symbol .rightParen)
        return inner.withSpan (token.span.union close.span)
      | .keyword .kwIf => invoke .conditional
      | _ => unexpected .expression
  | .call name => do
    let _ ← expect (.symbol .leftParen)
    invoke .newlines
    let arguments ← invoke .callArguments
    let close ← expect (.symbol .rightParen)
    let span := name.span.union close.span
    let reader ← Script.get
    if reader.childrenAllowed && reader.isAt (.symbol .leftBrace) then
      let _ ← expect (.symbol .leftBrace)
      invoke .newlines
      let children ← invoke .childList
      let _ ← expect (.symbol .rightBrace)
      return .call name arguments (some children) (span.union (← Script.get).previous)
    else
      return .call name arguments none span
  | .callArguments => do
    if (← Script.get).isAt .identifier then
      let label ← identifier
      let _ ← expect (.symbol .colon)
      let value ← Script.withChildren true (invoke (.expression 0))
      invoke .newlines
      if ← eat (.symbol .comma) then
        invoke .newlines
        let others ← invoke .callArguments
        return ⟨label, value⟩ :: others
      else
        return [⟨label, value⟩]
    else
      return []
  | .conditional => do
    let start ← expect (.keyword .kwIf)
    let condition ← Script.withChildren false (invoke (.expression 0))
    let thenBlock ← invoke .block
    if ← eat (.keyword .kwElse) then
      let elseBlock ← invoke .block
      return .conditional condition thenBlock (some elseBlock)
        (start.span.union (← Script.get).previous)
    else
      return .conditional condition thenBlock none (start.span.union (← Script.get).previous)
  | .newlines => do
    if (← Script.get).isAt .newline then
      Script.advance
      invoke .newlines
    else
      return ()

/-! ## Functions and their scripts

A function that counts down its bound gives one less to its calls, and any other the same.
-/

variable (fuel : Nat)

abbrev upTo (fuel : Nat) : Callees := fun reading => reading.action fuel

theorem program_unfolds : Reading.program.action fuel = Reading.program.script.run (upTo fuel) := by
  change Read.program fuel = _
  simp only [Read.program, script, run_bind, run_pure, run_invoke _ .newlines,
    run_invoke _ .itemList]
  rfl

theorem itemList_unfolds :
    Reading.itemList.action (fuel + 1) = Reading.itemList.script.run (upTo fuel) := by
  change Read.itemList (fuel + 1) = _
  simp only [Read.itemList, script, run_bind, run_pure, run_get, run_ite, run_unexpected,
    run_invoke _ .item, run_invoke _ .newlines, run_invoke _ .itemList]
  rfl

theorem item_unfolds : Reading.item.action fuel = Reading.item.script.run (upTo fuel) := by
  change Read.item fuel = _
  simp only [Read.item, script, run_bind, run_get, run_ite, run_fail, run_invoke _ .function]
  rfl

theorem function_unfolds :
    Reading.function.action fuel = Reading.function.script.run (upTo fuel) := by
  change Read.function fuel = _
  simp only [Read.function, script, run_bind, run_pure, run_expect, run_identifier,
    run_invoke _ .newlines, run_invoke _ .parameterList, run_invoke _ .resultType,
    run_invoke _ .block]
  rfl

theorem parameterList_unfolds :
    Reading.parameterList.action (fuel + 1) = Reading.parameterList.script.run (upTo fuel) := by
  change Read.parameterList (fuel + 1) = _
  simp only [Read.parameterList, script, run_bind, run_pure, run_get, run_ite, run_eat,
    run_invoke _ .parameter, run_invoke _ .newlines, run_invoke _ .parameterList]
  rfl

theorem parameter_unfolds :
    Reading.parameter.action fuel = Reading.parameter.script.run (upTo fuel) := by
  change Read.parameter fuel = _
  simp only [Read.parameter, script, run_bind, run_pure, run_expect, run_identifier,
    run_invoke _ .typePath]
  rfl

theorem resultType_unfolds :
    Reading.resultType.action fuel = Reading.resultType.script.run (upTo fuel) := by
  change Read.resultType fuel = _
  simp only [Read.resultType, script, run_bind, run_pure, run_ite, run_eat, run_invoke _ .typePath]
  rfl

theorem typePath_unfolds :
    Reading.typePath.action fuel = Reading.typePath.script.run (upTo fuel) := by
  change Read.typePath fuel = _
  simp only [Read.typePath, script, run_bind, run_pure, run_get, run_expect,
    run_invoke _ .typeNames]
  rfl

theorem typeNames_unfolds :
    Reading.typeNames.action (fuel + 1) = Reading.typeNames.script.run (upTo fuel) := by
  change Read.typeNames (fuel + 1) = _
  simp only [Read.typeNames, script, run_bind, run_pure, run_ite, run_eat, run_expect,
    run_invoke _ .typeNames]
  rfl

theorem block_unfolds :
    Reading.block.action (fuel + 1) = Reading.block.script.run (upTo fuel) := by
  change Read.block (fuel + 1) = _
  simp only [Read.block, script, run_withChildren, run_bind, run_pure, run_ite, run_eat, run_expect,
    run_invoke _ .newlines, run_invoke _ .statementList, run_invoke _ .statement]
  rfl

theorem statementList_unfolds :
    Reading.statementList.action (fuel + 1) = Reading.statementList.script.run (upTo fuel) := by
  change Read.statementList (fuel + 1) = _
  simp only [Read.statementList, script, run_bind, run_pure, run_get, run_ite,
    run_invoke _ .statement, run_invoke _ .newlines, run_invoke _ .statementList]
  rfl

theorem statement_unfolds :
    Reading.statement.action fuel = Reading.statement.script.run (upTo fuel) := by
  rw [script, run_invoke _ (.expression 0)]
  rfl

theorem childList_unfolds :
    Reading.childList.action (fuel + 1) = Reading.childList.script.run (upTo fuel) := by
  change Read.childList (fuel + 1) = _
  simp only [Read.childList, script, run_bind, run_pure, run_get, run_ite,
    run_invoke _ (.expression _), run_invoke _ .newlines, run_invoke _ .childList]
  rfl

theorem expression_unfolds (bound : Nat) :
    (Reading.expression bound).action (fuel + 1) =
      (Reading.expression bound).script.run (upTo fuel) := by
  change Read.expression (fuel + 1) bound = _
  simp only [Read.expression, script, run_bind, run_invoke _ .unary, run_invoke _ (.operations _ _)]
  rfl

theorem operations_unfolds (bound : Nat) (left : Expr) :
    (Reading.operations bound left).action (fuel + 1) =
      (Reading.operations bound left).script.run (upTo fuel) := by
  change Read.operations (fuel + 1) bound left = _
  rw [Read.operations, script, run_bind]
  refine congrArg _ (funext fun reader => ?_)
  cases reader.binaryOp? bound with
  | none => rfl
  | some op =>
      simp only [run_bind, run_advance, run_invoke _ .newlines, run_invoke _ (.expression _),
        run_invoke _ (.operations _ _)]
      rfl

theorem unary_unfolds :
    Reading.unary.action (fuel + 1) = Reading.unary.script.run (upTo fuel) := by
  change Read.unary (fuel + 1) = _
  rw [Read.unary, script, run_bind]
  refine congrArg _ (funext fun reader => ?_)
  cases reader.unaryOp? with
  | none => exact (run_invoke (upTo fuel) .primary).symm
  | some sign =>
      simp only [run_bind, run_advance, run_get]
      refine congrArg _ (funext fun _ => congrArg _ (funext fun after => ?_))
      cases after.negated? sign.1 with
      | none =>
          simp only [run_bind, run_pure, run_invoke _ .primary]
          rfl
      | some token =>
          simp only [run_bind, run_pure, run_integerValue, run_advance]

theorem primary_unfolds :
    Reading.primary.action (fuel + 1) = Reading.primary.script.run (upTo fuel) := by
  change Read.primary (fuel + 1) = _
  rw [Read.primary, script, run_bind]
  refine congrArg _ (funext fun reader => ?_)
  cases reader.current? with
  | none => rfl
  | some token =>
      dsimp only
      cases token.kind with
      | identifier =>
          simp only [run_bind, run_pure, run_get, run_ite, run_advance, run_invoke _ (.call _)]
          rfl
      | integer => simp only [run_bind, run_pure, run_integerValue, run_advance]
      | float => simp only [run_bind, run_pure, run_advance]
      | boolean => simp only [run_bind, run_pure, run_advance]
      | symbol sign =>
          cases sign with
          | leftParen =>
              simp only [run_bind, run_pure, run_advance, run_withChildren, run_expect,
                run_invoke _ .newlines, run_invoke _ (.expression _)]
              rfl
          | _ => rfl
      | keyword word =>
          cases word with
          | kwIf => exact (run_invoke (upTo fuel) .conditional).symm
          | _ => rfl
      | _ => rfl

theorem call_unfolds (name : Ident) :
    (Reading.call name).action (fuel + 1) = (Reading.call name).script.run (upTo fuel) := by
  change Read.call (fuel + 1) name = _
  simp only [Read.call, script, run_bind, run_pure, run_get, run_ite, run_expect,
    run_invoke _ .newlines, run_invoke _ .callArguments, run_invoke _ .childList]
  rfl

theorem callArguments_unfolds :
    Reading.callArguments.action (fuel + 1) = Reading.callArguments.script.run (upTo fuel) := by
  change Read.callArguments (fuel + 1) = _
  simp only [Read.callArguments, script, run_bind, run_pure, run_get, run_ite, run_eat, run_expect,
    run_identifier, run_withChildren, run_invoke _ (.expression _), run_invoke _ .newlines,
    run_invoke _ .callArguments]
  rfl

theorem conditional_unfolds :
    Reading.conditional.action (fuel + 1) = Reading.conditional.script.run (upTo fuel) := by
  change Read.conditional (fuel + 1) = _
  simp only [Read.conditional, script, run_bind, run_pure, run_get, run_ite, run_eat, run_expect,
    run_withChildren, run_invoke _ (.expression _), run_invoke _ .block]
  rfl

theorem newlines_unfolds :
    Reading.newlines.action fuel = Reading.newlines.script.run (upTo fuel) := by
  change Read.skipNewlines = _
  funext reader
  simp only [script, run_bind, run_pure, run_get, run_ite, run_advance, run_invoke _ .newlines]
  change Read.skipNewlinesOf reader.tokens reader = (if reader.isAt .newline then
    Read.advance >>= fun _ => Read.skipNewlines else pure ()) reader
  cases areTokens : reader.tokens with
  | nil => simp [Reader.isAt, Reader.current?, areTokens, Read.skipNewlinesOf]
  | cons token rest =>
      have present : reader.current? = some token := by simp [Reader.current?, areTokens]
      simp only [Read.skipNewlinesOf, Reader.isAt_of_current present, beq_iff_eq]
      split
      · -- After the step the rest of the tokens are the tokens of the reader again.
        refine bind_congr_at rfl fun _ after passed => ?_
        obtain ⟨others, same, -, rfl⟩ := Reader.advance_eq_ok present passed
        obtain rfl : rest = others := by simpa [areTokens] using same
        rfl
      · rfl

/-- With a bound to spare, a function does what its script says, with at least the rest of the
bound for its calls. -/
theorem action_unfolds (reading : Reading) (fuel : Nat) :
    ∃ less, fuel ≤ less ∧ reading.action (fuel + 1) = reading.script.run (upTo less) := by
  cases reading with
  | program => exact ⟨fuel + 1, Nat.le_succ fuel, program_unfolds (fuel + 1)⟩
  | itemList => exact ⟨fuel, le_rfl, itemList_unfolds fuel⟩
  | item => exact ⟨fuel + 1, Nat.le_succ fuel, item_unfolds (fuel + 1)⟩
  | function => exact ⟨fuel + 1, Nat.le_succ fuel, function_unfolds (fuel + 1)⟩
  | parameterList => exact ⟨fuel, le_rfl, parameterList_unfolds fuel⟩
  | parameter => exact ⟨fuel + 1, Nat.le_succ fuel, parameter_unfolds (fuel + 1)⟩
  | resultType => exact ⟨fuel + 1, Nat.le_succ fuel, resultType_unfolds (fuel + 1)⟩
  | typePath => exact ⟨fuel + 1, Nat.le_succ fuel, typePath_unfolds (fuel + 1)⟩
  | typeNames => exact ⟨fuel, le_rfl, typeNames_unfolds fuel⟩
  | block => exact ⟨fuel, le_rfl, block_unfolds fuel⟩
  | statementList => exact ⟨fuel, le_rfl, statementList_unfolds fuel⟩
  | statement => exact ⟨fuel + 1, Nat.le_succ fuel, statement_unfolds (fuel + 1)⟩
  | childList => exact ⟨fuel, le_rfl, childList_unfolds fuel⟩
  | expression bound => exact ⟨fuel, le_rfl, expression_unfolds fuel bound⟩
  | operations bound left => exact ⟨fuel, le_rfl, operations_unfolds fuel bound left⟩
  | unary => exact ⟨fuel, le_rfl, unary_unfolds fuel⟩
  | primary => exact ⟨fuel, le_rfl, primary_unfolds fuel⟩
  | call name => exact ⟨fuel, le_rfl, call_unfolds fuel name⟩
  | callArguments => exact ⟨fuel, le_rfl, callArguments_unfolds fuel⟩
  | conditional => exact ⟨fuel, le_rfl, conditional_unfolds fuel⟩
  | newlines => exact ⟨fuel + 1, Nat.le_succ fuel, newlines_unfolds (fuel + 1)⟩

end Reading

end ScalarLang
