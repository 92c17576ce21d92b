import ScalarLang.Proofs.Lexing.Streams
import ScalarLang.Proofs.Reading.Endings
import ScalarLang.Proofs.Reading.Programs
import ScalarLang.Proofs.Tree

/-!
# Reading goes on after any history

A reader may be asked for expressions, blocks and functions in any order, and go on after
each of them, also after a failure.  What it gives next depends on the token where it stands
and on the lexer behind that token, and not on what was read before: the only memory of
that, the span of the last token, is never looked at before another token was passed.
-/

set_option autoImplicit false

namespace ScalarLang

/-! ## Offsets that do not change -/

section Identity

theorem linesMapOffsets_id {lines : List Expr}
    (each : ∀ line ∈ lines, line.mapOffsets id = line) : linesMapOffsets id lines = lines := by
  induction lines with
  | nil => rfl
  | cons first rest inductionHypothesis =>
      obtain ⟨ofFirst, ofRest⟩ := List.forall_mem_cons.mp each
      rw [linesMapOffsets, ofFirst, inductionHypothesis ofRest]

theorem argumentsMapOffsets_id {arguments : List CallArgument}
    (each : ∀ argument ∈ arguments, argument.value.mapOffsets id = argument.value) :
    argumentsMapOffsets id arguments = arguments := by
  induction arguments with
  | nil => rfl
  | cons first rest inductionHypothesis =>
      obtain ⟨label, value⟩ := first
      obtain ⟨ofFirst, ofRest⟩ := List.forall_mem_cons.mp each
      rw [argumentsMapOffsets, ofFirst, inductionHypothesis ofRest]
      rfl

theorem Block.mapOffsets_id_of {block : Block}
    (each : ∀ part ∈ block.expressions, part.mapOffsets id = part) :
    block.mapOffsets id = block := by
  obtain ⟨statements, result⟩ := block
  obtain ⟨ofStatements, ofResult⟩ := List.forall_mem_append.mp each
  rw [Block.mapOffsets, linesMapOffsets_id ofStatements]
  cases result with
  | none => rfl
  | some result => rw [resultMapOffsets, ofResult result List.mem_cons_self]

theorem Expr.mapOffsets_id (expr : Expr) : expr.mapOffsets id = expr := by
  induction expr using Expr.induction with
  | literal value span => rfl
  | identifier name span => rfl
  | unary op operand span ofOperand =>
      rw [Expr.mapOffsets, ofOperand]
      rfl
  | binary op lhs rhs span ofLeft ofRight =>
      rw [Expr.mapOffsets, ofLeft, ofRight]
      rfl
  | call name arguments children span ofArguments ofChildren =>
      rw [Expr.mapOffsets, argumentsMapOffsets_id ofArguments]
      cases children with
      | none => rfl
      | some list =>
          have ofList : linesMapOffsets id list = list := linesMapOffsets_id ofChildren
          rw [childrenMapOffsets, ofList]
          rfl
  | conditional condition thenBlock elseBlock span ofCondition ofThen ofElse =>
      rw [Expr.mapOffsets, ofCondition, Block.mapOffsets_id_of ofThen]
      cases elseBlock with
      | none => rfl
      | some block =>
          rw [elseMapOffsets, Block.mapOffsets_id_of (ofElse block rfl)]
          rfl

theorem Block.mapOffsets_id (block : Block) : block.mapOffsets id = block :=
  Block.mapOffsets_id_of fun part _ => part.mapOffsets_id

theorem FunctionDecl.mapOffsets_id (function : FunctionDecl) :
    function.mapOffsets id = function := by
  have ofSpan : Span.mapOffsets id = id := rfl
  have ofIdent : Ident.mapOffsets id = id := rfl
  have ofType : TypePath.mapOffsets id = id := by
    funext path
    simp [TypePath.mapOffsets, ofSpan, ofIdent]
  have ofParameter : Parameter.mapOffsets id = id := by
    funext parameter
    simp [Parameter.mapOffsets, ofIdent, ofType]
  simp [FunctionDecl.mapOffsets, ofIdent, ofType, ofParameter, Block.mapOffsets_id]

end Identity

/-! ## The same view -/

namespace Reader

variable {reader other after otherAfter : Reader}

/-- Two readers with the same tokens before them, which may remember different ones. -/
structure SameView (reader other : Reader) : Prop where
  tokens : other.tokens = reader.tokens
  ending : other.ending = reader.ending
  childrenAllowed : other.childrenAllowed = reader.childrenAllowed

namespace SameView

theorem errorHere_eq (same : reader.SameView other) (fault : SyntaxFault) :
    other.errorHere fault = reader.errorHere fault := by
  simp only [errorHere, current?, same.tokens, same.ending]

/-- Two readers of one view look alike at all places. -/
theorem alike (same : reader.SameView other) :
    reader.Alike id False (reader.tokens.length + 1) other := by
  refine ⟨?_, same.childrenAllowed.symm, False.elim⟩
  rw [same.tokens, same.ending]
  exact .refl _ _ _ _

end SameView

theorem Drops.length_le {count : Nat} (drops : reader.Drops count after) :
    count ≤ reader.tokens.length := by
  obtain ⟨passed, rfl, areTokens⟩ := drops
  simp [areTokens]

theorem Drops.tokens_eq {count : Nat} (same : other.tokens = reader.tokens)
    (drops : reader.Drops count after) (dropsOther : other.Drops count otherAfter) :
    otherAfter.tokens = after.tokens := by
  obtain ⟨passed, rfl, areTokens⟩ := drops
  obtain ⟨otherPassed, sameLength, areOther⟩ := dropsOther
  rw [same, areTokens] at areOther
  exact (List.append_inj areOther sameLength.symm).2.symm

theorem Ends.ending_eq (ends : reader.Ends none after) : after.ending = reader.ending := by
  cases ends with
  | done passes => exact passes.ending_eq

/-- The kind of a fault and the tokens that are left decide an error. -/
theorem Ends.error_unique {error otherError : SyntaxError} (same : reader.SameView other)
    (ends : reader.Ends (some error) after) (endsOther : other.Ends (some otherError) otherAfter)
    (sameFault : error.fault = otherError.fault) (sameTokens : otherAfter.tokens = after.tokens) :
    otherError = error ∧ after.SameView otherAfter := by
  have sameAllowed : otherAfter.childrenAllowed = after.childrenAllowed := by
    rw [ends.childrenAllowed_eq, endsOther.childrenAllowed_eq, same.childrenAllowed]
  cases ends with
  | stopped passes notLexical =>
      rw [errorHere_fault] at sameFault
      cases endsOther with
      | stopped passesOther notLexicalOther =>
          rw [errorHere_fault] at sameFault
          have sameAfter : after.SameView otherAfter :=
            ⟨sameTokens, by rw [passes.ending_eq, passesOther.ending_eq, same.ending], sameAllowed⟩
          rw [← sameFault]
          exact ⟨sameAfter.errorHere_eq _, sameAfter⟩
      | fault _ _ _ => exact absurd sameFault (notLexical _)
  | fault passes last isFault =>
      cases endsOther with
      | stopped _ notLexicalOther =>
          rw [errorHere_fault] at sameFault
          exact absurd sameFault.symm (notLexicalOther _)
      | fault passesOther lastOther isFaultOther =>
          rw [passes.ending_eq] at isFault
          rw [passesOther.ending_eq, same.ending, isFault] at isFaultOther
          cases isFaultOther
          exact ⟨rfl, sameTokens, rfl, sameAllowed⟩

end Reader

namespace Read

open Reader

variable {α γ : Type} {view : α → γ} {action : Read α} {reader other after : Reader}

/-- A step that looks at tokens only gives the same for the same view. -/
theorem same_of_ok (steady : Steady action) (isLocal : Local id view action action)
    (injective : Function.Injective view) (same : reader.SameView other) {value : α}
    (succeeds : action reader = .ok value after) :
    ∃ otherAfter, action other = .ok value otherAfter ∧ after.SameView otherAfter := by
  have follows := isLocal same.alike
  unfold Follows at follows
  rw [succeeds] at follows
  obtain ⟨passed, drops, sees⟩ := follows
  obtain ⟨otherValue, otherAfter, isOther, dropsOther, sameValue, alike⟩ :=
    sees (Nat.le_succ_of_le drops.length_le)
  obtain rfl := injective sameValue
  refine ⟨otherAfter, isOther, drops.tokens_eq same.tokens dropsOther, ?_, ?_⟩
  · rw [(steady.ok succeeds).ending_eq, (steady.ok isOther).ending_eq, same.ending]
  · exact alike.childrenAllowed.symm

theorem same_of_error (steady : Steady action) (isLocal : Local id view action action)
    (same : reader.SameView other) {error : SyntaxError}
    (fails : action reader = .error (.rejected error) after) :
    ∃ otherAfter, action other = .error (.rejected error) otherAfter ∧
      after.SameView otherAfter := by
  have follows := isLocal same.alike
  unfold Follows at follows
  rw [fails] at follows
  obtain ⟨passed, drops, sees⟩ := follows
  obtain ⟨otherError, otherAfter, isOther, dropsOther, sameFault⟩ :=
    sees (Nat.add_le_add drops.length_le error.fault.peeks_le_one)
  obtain ⟨rfl, sameAfter⟩ := Ends.error_unique same (steady.error fails) (steady.error isOther)
    sameFault (drops.tokens_eq same.tokens dropsOther)
  exact ⟨otherAfter, isOther, sameAfter⟩

def errorOf? (outcome : Except SyntaxError α) : Option SyntaxError :=
  match outcome with
  | .ok _ => none
  | .error error => some error

section Run

variable {limit : Nat} {leaves : Leaves limit action reader}

theorem run_ends (steady : Steady action) :
    reader.Ends (errorOf? (run action reader leaves).1) (run action reader leaves).2 := by
  rcases outcome : run action reader leaves with ⟨_ | _, after⟩
  · exact steady.error (run_eq_error_iff.mp outcome)
  · exact steady.ok (run_eq_ok_iff.mp outcome)

theorem run_same {otherLimit : Nat} {otherAction : Read α}
    {otherLeaves : Leaves otherLimit otherAction other} (sameAction : action = otherAction)
    (steady : Steady action) (isLocal : Local id view action action)
    (injective : Function.Injective view) (same : reader.SameView other) :
    (run otherAction other otherLeaves).1 = (run action reader leaves).1 ∧
      (run action reader leaves).2.SameView (run otherAction other otherLeaves).2 := by
  subst sameAction
  rcases outcome : run action reader leaves with ⟨_ | _, after⟩
  · obtain ⟨otherAfter, fails, sameAfter⟩ :=
      same_of_error steady isLocal same (run_eq_error_iff.mp outcome)
    rw [run_eq_error_iff.mpr fails]
    exact ⟨rfl, sameAfter⟩
  · obtain ⟨otherAfter, succeeds, sameAfter⟩ :=
      same_of_ok steady isLocal injective same (run_eq_ok_iff.mp outcome)
    rw [run_eq_ok_iff.mpr succeeds]
    exact ⟨rfl, sameAfter⟩

end Run

end Read

/-! ## Calls -/

namespace Reader

inductive Call where
  | expression
  | block
  | function
  | refusal (construct : Construct)
deriving DecidableEq, Repr

inductive Answer where
  | expression (outcome : Except SyntaxError Expr)
  | block (outcome : Except SyntaxError Block)
  | function (outcome : Except SyntaxError FunctionDecl)
  | refusal (error : SyntaxError)

def Answer.error? : Answer → Option SyntaxError
  | .expression outcome => Read.errorOf? outcome
  | .block outcome => Read.errorOf? outcome
  | .function outcome => Read.errorOf? outcome
  | .refusal error => some error

def perform (reader : Reader) : Call → Answer × Reader
  | .expression => (.expression reader.readExpression.1, reader.readExpression.2)
  | .block => (.block reader.readBlock.1, reader.readBlock.2)
  | .function => (.function reader.readFunction.1, reader.readFunction.2)
  | .refusal construct => (.refusal (reader.refuse construct).1, (reader.refuse construct).2)

def afterCalls (reader : Reader) (calls : List Call) : Reader :=
  calls.foldl (fun reader call => (reader.perform call).2) reader

variable {reader other : Reader}

theorem perform_ends (reader : Reader) (call : Call) :
    reader.Ends (reader.perform call).1.error? (reader.perform call).2 := by
  cases call with
  | expression => exact Read.run_ends ((Read.allSteady _).expression 0)
  | block => exact Read.run_ends (Read.allSteady _).block
  | function => exact Read.run_ends (Read.function_steady _)
  | refusal construct => exact .stopped .none nofun

theorem perform_same (same : reader.SameView other) (call : Call) :
    (other.perform call).1 = (reader.perform call).1 ∧
      (reader.perform call).2.SameView (other.perform call).2 := by
  have sameBudget : other.budget = reader.budget := by
    simp only [budget, remaining, same.tokens]
  -- Every answer is the whole outcome of a run, so it is enough that the runs are the same.
  have answers {α : Type} {outcome otherOutcome : Except SyntaxError α × Reader}
      (toAnswer : Except SyntaxError α → Answer)
      (sameRun : otherOutcome.1 = outcome.1 ∧ outcome.2.SameView otherOutcome.2) :
      toAnswer otherOutcome.1 = toAnswer outcome.1 ∧ outcome.2.SameView otherOutcome.2 :=
    ⟨congrArg toAnswer sameRun.1, sameRun.2⟩
  cases call with
  | expression =>
      refine answers .expression (Read.run_same (by rw [sameBudget])
        ((Read.allSteady _).expression 0) ((Read.lockstep monotone_id _).expression 0) ?_ same)
      intro tree otherTree sameTree
      rwa [tree.mapOffsets_id, otherTree.mapOffsets_id] at sameTree
  | block =>
      refine answers .block (Read.run_same (by rw [sameBudget]) (Read.allSteady _).block
        (Read.lockstep monotone_id _).block.local ?_ same)
      intro block otherBlock sameBlock
      rwa [block.mapOffsets_id, otherBlock.mapOffsets_id] at sameBlock
  | function =>
      refine answers .function (Read.run_same (by rw [sameBudget]) (Read.function_steady _)
        (Read.function_lockstep monotone_id _) ?_ same)
      intro function otherFunction sameFunction
      rwa [function.mapOffsets_id, otherFunction.mapOffsets_id] at sameFunction
  | refusal construct => exact ⟨congrArg Answer.refusal (same.errorHere_eq _), same⟩

end Reader

/-! ## Readers of a lexer -/

namespace Reader

variable {reader other after : Reader} {current : Option Token} {lexer : Lexer}

/-- A reader stands before a token, with a lexer right behind it; before no token it stands
only once the lexer is over. -/
structure LooksAt (reader : Reader) (current : Option Token) (lexer : Lexer) : Prop where
  tokens : reader.tokens = current.toList ++ lexer.stream.tokens
  ending : reader.ending = lexer.stream.ending
  isOver : current = none → lexer.finished = true

namespace LooksAt

theorem sameView (looks : reader.LooksAt current lexer) (looksOther : other.LooksAt current lexer)
    (sameAllowed : other.childrenAllowed = reader.childrenAllowed) : reader.SameView other :=
  ⟨looksOther.tokens.trans looks.tokens.symm, looksOther.ending.trans looks.ending.symm,
    sameAllowed⟩

theorem congr (looks : reader.LooksAt current lexer) (same : reader.SameView other) :
    other.LooksAt current lexer :=
  ⟨same.tokens.trans looks.tokens, same.ending.trans looks.ending, looks.isOver⟩

theorem current?_eq (looks : reader.LooksAt current lexer) : reader.current? = current := by
  rw [Reader.current?, looks.tokens]
  cases current with
  | some token => rfl
  | none => rw [Lexer.stream_of_finished (looks.isOver rfl)]; rfl

/-- A reader right before a fault stands at the last token, as before no token there is no
fault. -/
theorem tokens_of_fault (looks : reader.LooksAt current lexer) {error : LexError}
    (few : reader.tokens.length ≤ 1) (isFault : reader.ending = .fault error) :
    ∃ token, reader.tokens = [token] := by
  have some : reader.tokens ≠ [] := by
    intro noTokens
    have isNone : current = none := by
      rw [← looks.current?_eq, Reader.current?, noTokens]
      rfl
    rw [looks.ending, Lexer.stream_of_finished (looks.isOver isNone)] at isFault
    cases isFault
  exact List.length_eq_one_iff.mp (Nat.le_antisymm few (List.length_pos_iff.mpr some))

/-- A reader of everything that a lexer gives stands before its first token. -/
theorem of_stream (areTokens : reader.tokens = lexer.stream.tokens)
    (isEnding : reader.ending = lexer.stream.ending)
    (finished : reader.tokens = [] → ∃ position, reader.ending = .finished position) :
    ∃ next, reader.LooksAt next lexer.next.2 := by
  rcases result : lexer.next with ⟨_ | _ | next, behind⟩
  · have isFinished := Lexer.finished_of_next_none result
    rw [Lexer.stream_of_next_none result] at areTokens isEnding
    refine ⟨none, ?_, ?_, fun _ => isFinished⟩
    · rw [Lexer.stream_of_finished isFinished]
      exact areTokens
    · rw [Lexer.stream_of_finished isFinished]
      exact isEnding
  · rw [Lexer.stream_of_next_error result] at areTokens isEnding
    obtain ⟨position, isFinished⟩ := finished areTokens
    rw [isEnding] at isFinished
    cases isFinished
  · rw [Lexer.stream_of_next_ok result] at areTokens isEnding
    exact ⟨some next, areTokens, isEnding, nofun⟩

/-- A step over a token is one call of the lexer. -/
theorem advance {token : Token} (looks : reader.LooksAt (some token) lexer)
    (passed : Read.advance reader = .ok () after) : ∃ next, after.LooksAt next lexer.next.2 := by
  obtain ⟨rest, areTokens, finished, rfl⟩ := advance_eq_ok looks.current?_eq passed
  obtain ⟨-, isRest⟩ := List.cons.inj (looks.tokens.symm.trans areTokens)
  exact of_stream isRest.symm looks.ending finished

theorem passes {tokens : List Token} (looks : reader.LooksAt current lexer)
    (passes : Passes reader tokens after) :
    ∃ next count, after.LooksAt next (lexer.after count) := by
  induction passes generalizing current lexer with
  | none => exact ⟨current, 0, looks⟩
  | next present passed _ inductionHypothesis =>
      obtain rfl := looks.current?_eq.symm.trans present
      obtain ⟨next, looksNext⟩ := looks.advance passed
      obtain ⟨last, count, looksLast⟩ := inductionHypothesis looksNext
      exact ⟨last, count + 1, by rwa [Lexer.after_succ]⟩

/-- A step that fails at a fault of the text is one call of the lexer too, and the reader
stays before its token. -/
theorem fault {token : Token} {error : LexError} (looks : reader.LooksAt (some token) lexer)
    (isLast : reader.tokens = [token]) (isFault : reader.ending = .fault error) :
    ({ reader with ending := .finished error.position } : Reader).LooksAt (some token)
      lexer.next.2 := by
  have noMore : lexer.stream.tokens = [] := by
    simpa using (looks.tokens.symm.trans isLast)
  have isEnding := looks.ending.symm.trans isFault
  rcases result : lexer.next with ⟨_ | error | next, behind⟩
  · rw [Lexer.stream_of_next_none result] at isEnding
    cases isEnding
  · rw [Lexer.stream_of_next_error result] at isEnding
    cases isEnding
    obtain ⟨isFinished, isPosition⟩ := Lexer.finished_of_next_error result
    refine ⟨?_, ?_, nofun⟩
    · rw [Lexer.stream_of_finished isFinished]
      exact isLast
    · rw [Lexer.stream_of_finished isFinished, isPosition]
  · rw [Lexer.stream_of_next_ok result] at noMore
    cases noMore

/-- However a step ends, the lexer was called a number of times. -/
theorem ends {error? : Option SyntaxError} (looks : reader.LooksAt current lexer)
    (ends : reader.Ends error? after) : ∃ next count, after.LooksAt next (lexer.after count) := by
  cases ends with
  | done passes => exact looks.passes passes
  | stopped passes _ => exact looks.passes passes
  | fault passes few isFault =>
      obtain ⟨next, count, looksNext⟩ := looks.passes passes
      obtain ⟨token, isLast⟩ := looksNext.tokens_of_fault few isFault
      obtain rfl : next = some token := by
        rw [← looksNext.current?_eq, Reader.current?, isLast]
        rfl
      exact ⟨some token, count + 1, looksNext.fault isLast isFault⟩

end LooksAt

/-! ## Histories -/

theorem afterCalls_cons (reader : Reader) (call : Call) (calls : List Call) :
    reader.afterCalls (call :: calls) = (reader.perform call).2.afterCalls calls := rfl

theorem afterCalls_childrenAllowed (calls : List Call) : ∀ reader : Reader,
    (reader.afterCalls calls).childrenAllowed = reader.childrenAllowed := by
  induction calls with
  | nil => exact fun _ => rfl
  | cons call calls inductionHypothesis =>
      intro reader
      rw [afterCalls_cons, inductionHypothesis, (reader.perform_ends call).childrenAllowed_eq]

theorem LooksAt.afterCalls (calls : List Call) : ∀ {reader current lexer},
    LooksAt reader current lexer →
      ∃ next count, (reader.afterCalls calls).LooksAt next (lexer.after count) := by
  induction calls with
  | nil => exact fun looks => ⟨_, 0, looks⟩
  | cons call calls inductionHypothesis =>
      intro reader current lexer looks
      obtain ⟨next, count, looksNext⟩ := looks.ends (reader.perform_ends call)
      obtain ⟨last, more, looksLast⟩ := inductionHypothesis looksNext
      exact ⟨last, count + more, by rwa [Lexer.after_add]⟩

theorem looksAt_of_ofSource {source : Source} (opened : ofSource source = .ok reader) :
    reader.childrenAllowed = true ∧
      ∃ current, reader.LooksAt current ((Lexer.ofText source.characters).after 1) := by
  obtain ⟨rfl, finished⟩ := ofStream_eq_ok_iff.mp opened
  exact ⟨rfl, LooksAt.of_stream rfl rfl finished⟩

/-! ## After a fault of the text -/

/-- A reader stands before or behind the last token before a fault, the text is over at the
position of the fault, and all errors are at this token or at this position. -/
structure PastFault (token : Token) (position : Position) (reader : Reader) : Prop where
  tokens : reader.tokens = [token] ∨ reader.tokens = []
  ending : reader.ending = .finished position
  errors : ∀ call error, (reader.perform call).1.error? = some error →
    ((reader.perform call).2.current? = some token ∧
      error = ⟨error.fault, token.span, token.position.line, token.position.column⟩) ∨
    ((reader.perform call).2.current? = none ∧
      error = ⟨error.fault, .empty position.offset, position.line, position.column⟩)

section PastFault

variable {token : Token} {position : Position}

theorem Passes.singleton_suffix {passed : List Token} (passes : Passes reader passed after)
    (few : reader.tokens = [token] ∨ reader.tokens = []) :
    after.tokens = [token] ∨ after.tokens = [] := by
  have areTokens := passes.tokens_eq
  rcases few with single | none
  · rw [single, List.cons_eq_append_iff] at areTokens
    rcases areTokens with ⟨-, isAll⟩ | ⟨others, -, isNone⟩
    · exact .inl isAll
    · exact .inr (List.append_eq_nil_iff.mp isNone.symm).2
  · rw [none] at areTokens
    exact .inr (List.append_eq_nil_iff.mp areTokens.symm).2

theorem errorHere_eq_or (few : reader.tokens = [token] ∨ reader.tokens = [])
    (finished : reader.ending = .finished position) (fault : SyntaxFault) :
    (reader.current? = some token ∧ reader.errorHere fault =
        ⟨fault, token.span, token.position.line, token.position.column⟩) ∨
      (reader.current? = none ∧ reader.errorHere fault =
        ⟨fault, .empty position.offset, position.line, position.column⟩) := by
  rcases few with single | none
  · have present : reader.current? = some token := by rw [current?, single]; rfl
    exact .inl ⟨present, by simp only [errorHere, present]⟩
  · have absent : reader.current? = Option.none := by rw [current?, none]; rfl
    exact .inr ⟨absent, by simp only [errorHere, absent, finished, Ending.position]⟩

/-- Where the text is over, a step ends in the same place. -/
theorem Ends.singleton_suffix {error? : Option SyntaxError} (ends : reader.Ends error? after)
    (few : reader.tokens = [token] ∨ reader.tokens = [])
    (finished : reader.ending = .finished position) :
    (after.tokens = [token] ∨ after.tokens = []) ∧ after.ending = .finished position ∧
      ∀ error ∈ error?, error = after.errorHere error.fault := by
  cases ends with
  | done passes =>
      refine ⟨passes.singleton_suffix few, passes.ending_eq.trans finished, ?_⟩
      simp
  | stopped passes _ =>
      refine ⟨passes.singleton_suffix few, passes.ending_eq.trans finished, ?_⟩
      simp [errorHere_fault]
  | fault passes _ isFault =>
      rw [passes.ending_eq, finished] at isFault
      cases isFault

theorem pastFault_of_tokens (few : reader.tokens = [token] ∨ reader.tokens = [])
    (finished : reader.ending = .finished position) : reader.PastFault token position := by
  refine ⟨few, finished, ?_⟩
  intro call error isError
  obtain ⟨fewAfter, finishedAfter, atHere⟩ :=
    (reader.perform_ends call).singleton_suffix few finished
  rw [atHere error isError, errorHere_fault]
  exact errorHere_eq_or fewAfter finishedAfter error.fault

theorem PastFault.afterCalls (calls : List Call) : ∀ {reader : Reader},
    reader.PastFault token position → (reader.afterCalls calls).PastFault token position := by
  induction calls with
  | nil => exact fun past => past
  | cons call calls inductionHypothesis =>
      intro reader past
      obtain ⟨few, finished, -⟩ :=
        (reader.perform_ends call).singleton_suffix past.tokens past.ending
      exact inductionHypothesis (pastFault_of_tokens few finished)

/-- An error of the text leaves a reader before the last token, and the text is over
there. -/
theorem LooksAt.lexical (looks : reader.LooksAt current lexer) {error : SyntaxError}
    {lexFault : LexFault} (ends : reader.Ends (some error) after)
    (isLexical : error.fault = .lexical lexFault) :
    ∃ token position, reader.tokens.getLast? = some token ∧ after.current? = some token ∧
      error.span.start = position.offset ∧ error.line = position.line ∧
      error.column = position.column ∧ after.PastFault token position := by
  cases ends with
  | stopped _ notLexical =>
      rw [errorHere_fault] at isLexical
      exact absurd isLexical (notLexical lexFault)
  | @fault passed stopped lexError passes few isFault =>
      obtain ⟨next, count, looksNext⟩ := looks.passes passes
      obtain ⟨token, isLast⟩ := looksNext.tokens_of_fault few isFault
      refine ⟨token, lexError.position, ?_, ?_, rfl, rfl, rfl,
        pastFault_of_tokens (.inl isLast) rfl⟩
      · rw [passes.tokens_eq, isLast, List.getLast?_append]
        rfl
      · rw [current?, isLast]
        rfl

end PastFault

end Reader

/-- A reader can be resumed after any history: it stands somewhere in the tokens of the
source with children allowed, and the next answer and the place that it leaves are those of
every reader that stands there.  An error of the text leaves the reader before the token
that it is behind, and from then on the text is over at the position of the error. -/
theorem reading_resumes {source : Source} {reader : Reader}
    (opened : Reader.ofSource source = .ok reader) (calls : List Reader.Call) :
    let state := reader.afterCalls calls
    let lexer := Lexer.ofText source.characters
    state.childrenAllowed = true ∧
    ∃ current count, state.LooksAt current (lexer.after count) ∧ ∀ call,
      (∃ next more, (state.perform call).2.LooksAt next (lexer.after (count + more)) ∧
        ∀ other : Reader, other.LooksAt current (lexer.after count) →
          other.childrenAllowed = true →
          (other.perform call).1 = (state.perform call).1 ∧
          (other.perform call).2.LooksAt next (lexer.after (count + more))) ∧
      ∀ error lexFault, (state.perform call).1.error? = some error →
        error.fault = .lexical lexFault →
        ∃ token position, state.tokens.getLast? = some token ∧
          (state.perform call).2.current? = some token ∧
          error.span.start = position.offset ∧ error.line = position.line ∧
          error.column = position.column ∧
          ∀ more, ((state.perform call).2.afterCalls more).PastFault token position := by
  intro state lexer
  obtain ⟨allowed, first, looksFirst⟩ := Reader.looksAt_of_ofSource opened
  have stateAllowed : state.childrenAllowed = true :=
    (reader.afterCalls_childrenAllowed calls).trans allowed
  obtain ⟨current, count, looks⟩ := looksFirst.afterCalls calls
  rw [← Lexer.after_add] at looks
  refine ⟨stateAllowed, current, 1 + count, looks, fun call => ⟨?_, ?_⟩⟩
  · obtain ⟨next, more, looksNext⟩ := looks.ends (state.perform_ends call)
    rw [← Lexer.after_add] at looksNext
    refine ⟨next, more, looksNext, ?_⟩
    intro other looksOther otherAllowed
    obtain ⟨sameAnswer, sameAfter⟩ := Reader.perform_same
      (looks.sameView looksOther (otherAllowed.trans stateAllowed.symm)) call
    exact ⟨sameAnswer, looksNext.congr sameAfter⟩
  · intro error lexFault isError isLexical
    have ends := state.perform_ends call
    rw [isError] at ends
    obtain ⟨token, position, isLast, inPlace, isOffset, isLine, isColumn, past⟩ :=
      looks.lexical ends isLexical
    exact ⟨token, position, isLast, inPlace, isOffset, isLine, isColumn,
      fun more => past.afterCalls more⟩

def strayCharacter : Source := .ofText "stray" "f(a: 1 $ 2)"

/-- After a block that is not there, the call is read up to the number, which stays. -/
theorem reading_resumes_before_stray : ∃ reader token position,
    Reader.ofSource strayCharacter = .ok reader ∧
    ((reader.afterCalls [.block]).perform .expression).1.error? =
      some ⟨.lexical (.unexpectedChar '$'), ⟨7, 8⟩, 1, 8⟩ ∧
    (reader.afterCalls [.block]).childrenAllowed = true ∧
    ((reader.afterCalls [.block]).perform .expression).2.current? = some token ∧
    ∀ more, (((reader.afterCalls [.block]).perform .expression).2.afterCalls more).PastFault
      token position := by
  have found : (Reader.ofSource strayCharacter).toOption.any (fun reader =>
      ((reader.afterCalls [.block]).perform .expression).1.error? ==
        some ⟨.lexical (.unexpectedChar '$'), ⟨7, 8⟩, 1, 8⟩) = true := by
    decide +kernel
  obtain ⟨reader, opened, isError⟩ := exists_ok_of_any found
  rw [beq_iff_eq] at isError
  obtain ⟨allowed, current, count, -, resumes⟩ := reading_resumes opened [.block]
  obtain ⟨token, position, -, inPlace, -, -, -, past⟩ :=
    (resumes .expression).2 _ (.unexpectedChar '$') isError rfl
  exact ⟨reader, token, position, opened, isError, allowed, inPlace, past⟩

end ScalarLang
