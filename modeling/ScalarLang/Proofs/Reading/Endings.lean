import ScalarLang.Proofs.Reading.Lockstep

/-!
# How a step of reading ends

However a reading function ends, it has passed some tokens and remembers whether children
are allowed as before.  It fails at the token where it stands, or at a fault of the text
behind that token: then it stands before the token, and the text is over at the position
of the fault.
-/

set_option autoImplicit false

namespace ScalarLang

namespace Reader

variable {reader middle after : Reader} {error? : Option SyntaxError}

inductive Ends (reader : Reader) : Option SyntaxError → Reader → Prop
  | done {passed : List Token} {after : Reader} (passes : Passes reader passed after) :
      Ends reader none after
  | stopped {passed : List Token} {after : Reader} {fault : SyntaxFault}
      (passes : Passes reader passed after)
      (notLexical : ∀ lexFault, fault ≠ .lexical lexFault) :
      Ends reader (some (after.errorHere fault)) after
  | fault {passed : List Token} {stopped : Reader} {error : LexError}
      (passes : Passes reader passed stopped) (last : stopped.tokens.length ≤ 1)
      (isFault : stopped.ending = .fault error) :
      Ends reader (some (.ofLexError error)) { stopped with ending := .finished error.position }

namespace Ends

theorem refl (reader : Reader) : reader.Ends none reader := .done .none

theorem trans (first : reader.Ends none middle) (second : middle.Ends error? after) :
    reader.Ends error? after := by
  cases first with
  | done passes =>
      cases second with
      | done passesMore => exact .done (passes.append passesMore)
      | stopped passesMore notLexical => exact .stopped (passes.append passesMore) notLexical
      | fault passesMore last isFault => exact .fault (passes.append passesMore) last isFault

theorem allow (ends : reader.Ends error? after) (allowed : Bool) :
    (reader.allow allowed).Ends error? (after.allow allowed) := by
  cases ends with
  | done passes => exact .done (passes.allow allowed)
  | stopped passes notLexical => exact .stopped (passes.allow allowed) notLexical
  | fault passes last isFault => exact .fault (passes.allow allowed) last isFault

theorem childrenAllowed_eq (ends : reader.Ends error? after) :
    after.childrenAllowed = reader.childrenAllowed := by
  cases ends with
  | done passes => exact passes.childrenAllowed_eq
  | stopped passes _ => exact passes.childrenAllowed_eq
  | fault passes _ _ => exact passes.childrenAllowed_eq

end Ends

end Reader

namespace Read

open Reader

variable {α β : Type} {action : Read α} {next : α → Read β}

structure Steady (action : Read α) : Prop where
  ok : ∀ {reader value after}, action reader = .ok value after → reader.Ends none after
  error : ∀ {reader error after}, action reader = .error (.rejected error) after →
    reader.Ends (some error) after

/-! ## Rules -/

theorem steady_pure (value : α) : Steady (pure value) where
  ok := by
    intro reader result after succeeds
    obtain ⟨-, rfl⟩ := pure_eq_ok_iff.mp succeeds
    exact .refl reader
  error := nofun

theorem steady_get : Steady get where
  ok := by
    intro reader result after succeeds
    obtain ⟨-, rfl⟩ := get_eq_ok_iff.mp succeeds
    exact .refl reader
  error := nofun

theorem steady_exhausted : Steady (exhausted : Read α) := ⟨nofun, nofun⟩

theorem Steady.bind (first : Steady action) (second : ∀ value, Steady (next value)) :
    Steady (action >>= next) where
  ok := by
    intro reader value after succeeds
    obtain ⟨found, middle, ofFirst, ofSecond⟩ := bind_eq_ok_iff.mp succeeds
    exact (first.ok ofFirst).trans ((second found).ok ofSecond)
  error := by
    intro reader error after fails
    rcases bind_eq_error_iff.mp fails with ofFirst | ⟨found, middle, ofFirst, ofSecond⟩
    · exact first.error ofFirst
    · exact (first.ok ofFirst).trans ((second found).error ofSecond)

theorem Steady.ite {condition : Prop} [Decidable condition] {other : Read α}
    (first : Steady action) (second : Steady other) :
    Steady (if condition then action else other) := by
  split
  · exact first
  · exact second

theorem Steady.withChildren (steady : Steady action) (allowed : Bool) :
    Steady (withChildren allowed action) where
  ok := by
    intro reader value after succeeds
    obtain ⟨inner, ofAction, rfl⟩ := withChildren_eq_ok_iff.mp succeeds
    exact (steady.ok ofAction).allow reader.childrenAllowed
  error := by
    intro reader error after fails
    cases outcome : action (reader.allow allowed) with
    | ok value inner =>
        rw [withChildren_of_ok outcome] at fails
        cases fails
    | error failure inner =>
        rw [withChildren_of_error outcome] at fails
        cases fails
        exact (steady.error outcome).allow reader.childrenAllowed

theorem steady_fail {fault : SyntaxFault} (notLexical : ∀ lexFault, fault ≠ .lexical lexFault) :
    Steady (fail fault : Read α) where
  ok := nofun
  error := by
    intro reader error after fails
    cases fails
    exact .stopped .none notLexical

theorem steady_unexpected (wanted : Expectation) : Steady (unexpected wanted : Read α) where
  ok := nofun
  error := by
    intro reader error after fails
    cases fails
    exact .stopped .none nofun

/-! ## Single steps -/

theorem steady_advance : Steady advance where
  ok := by
    intro reader done after succeeds
    cases present : reader.current? with
    | some token => exact .done (passes_singleton_iff.mpr ⟨present, succeeds⟩)
    | none =>
        obtain ⟨tokens, ending, previous, childrenAllowed⟩ := reader
        obtain rfl : tokens = [] := List.head?_eq_none_iff.mp present
        cases ending <;> cases succeeds
        exact .refl _
  error := by
    rintro ⟨tokens, ending, previous, childrenAllowed⟩ error after fails
    cases ending with
    | finished position => rcases tokens with _ | ⟨token, _ | ⟨next, rest⟩⟩ <;> cases fails
    | fault fault =>
        rcases tokens with _ | ⟨token, _ | ⟨next, rest⟩⟩ <;> cases fails
        · exact .fault .none (by simp) rfl
        · exact .fault .none (by simp) rfl

theorem steady_expect (kind : TokenKind) : Steady (expect kind) := by
  refine steady_get.bind fun reader => ?_
  split
  · exact .ite (steady_advance.bind fun _ => steady_pure _) (steady_unexpected _)
  · exact steady_unexpected _

theorem steady_identifier : Steady identifier :=
  (steady_expect _).bind fun _ => steady_pure _

theorem steady_eat (kind : TokenKind) : Steady (eat kind) :=
  steady_get.bind fun _ => .ite (steady_advance.bind fun _ => steady_pure _) (steady_pure _)

theorem steady_skipNewlines : Steady skipNewlines := by
  refine steady_get.bind fun reader => ?_
  generalize reader.tokens = tokens
  induction tokens with
  | nil => exact steady_pure ()
  | cons token rest inductionHypothesis =>
      exact .ite (steady_advance.bind fun _ => inductionHypothesis) (steady_pure ())

theorem steady_integerValue (value? : Option Int64) (token : Token) :
    Steady (integerValue value? token) := by
  cases value? with
  | some value => exact steady_pure value
  | none => exact steady_fail nofun

/-! ## Expressions and blocks -/

structure AllSteady (fuel : Nat) : Prop where
  expression : ∀ bound, Steady (expression fuel bound)
  operations : ∀ bound left, Steady (operations fuel bound left)
  unary : Steady (unary fuel)
  primary : Steady (primary fuel)
  call : ∀ name, Steady (call fuel name)
  callArguments : Steady (callArguments fuel)
  childList : Steady (childList fuel)
  conditional : Steady (conditional fuel)
  block : Steady (block fuel)
  statementList : Steady (statementList fuel)

section Step

variable {fuel : Nat}

theorem operations_steady (all : AllSteady fuel) (bound : Nat) (left : Expr) :
    Steady (operations (fuel + 1) bound left) := by
  unfold operations
  refine steady_get.bind fun reader => ?_
  split
  · exact steady_pure left
  · refine steady_advance.bind fun _ => steady_skipNewlines.bind fun _ => ?_
    exact (all.expression _).bind fun right => all.operations bound _

/-- The constant of an integer token. -/
theorem steady_constant (value? : Option Int64) (token : Token) (span : Span) :
    Steady (do
      let value ← integerValue value? token
      advance
      return Expr.literal (.integer value) span) :=
  (steady_integerValue value? token).bind fun _ => steady_advance.bind fun _ => steady_pure _

theorem unary_steady (all : AllSteady fuel) : Steady (unary (fuel + 1)) := by
  unfold unary
  refine steady_get.bind fun reader => ?_
  split
  · exact all.primary
  · refine steady_advance.bind fun _ => steady_get.bind fun next => ?_
    split
    · exact steady_constant _ _ _
    · exact all.primary.bind fun operand => steady_pure _

theorem primary_steady (all : AllSteady fuel) : Steady (primary (fuel + 1)) := by
  unfold primary
  refine steady_get.bind fun reader => ?_
  split
  · exact steady_unexpected _
  split
  · refine steady_advance.bind fun _ => steady_get.bind fun next => ?_
    exact .ite (all.call _) (steady_pure _)
  · exact steady_constant _ _ _
  · exact steady_advance.bind fun _ => steady_pure _
  · exact steady_advance.bind fun _ => steady_pure _
  · refine steady_advance.bind fun _ => steady_skipNewlines.bind fun _ => ?_
    refine ((all.expression 0).withChildren true).bind fun inner => ?_
    exact steady_skipNewlines.bind fun _ => (steady_expect _).bind fun close => steady_pure _
  · exact all.conditional
  · exact steady_unexpected _

theorem call_steady (all : AllSteady fuel) (name : Ident) : Steady (call (fuel + 1) name) := by
  unfold call
  refine (steady_expect _).bind fun _ => steady_skipNewlines.bind fun _ => ?_
  refine all.callArguments.bind fun arguments => (steady_expect _).bind fun close => ?_
  refine steady_get.bind fun reader => .ite ?_ (steady_pure _)
  refine (steady_expect _).bind fun _ => steady_skipNewlines.bind fun _ => ?_
  refine all.childList.bind fun children => (steady_expect _).bind fun _ => ?_
  exact steady_get.bind fun last => steady_pure _

theorem callArguments_steady (all : AllSteady fuel) : Steady (callArguments (fuel + 1)) := by
  unfold callArguments
  refine steady_get.bind fun reader => .ite ?_ (steady_pure [])
  refine steady_identifier.bind fun label => (steady_expect _).bind fun _ => ?_
  refine ((all.expression 0).withChildren true).bind fun value => ?_
  refine steady_skipNewlines.bind fun _ => (steady_eat _).bind fun more => ?_
  refine .ite ?_ (steady_pure _)
  exact steady_skipNewlines.bind fun _ => all.callArguments.bind fun others => steady_pure _

/-- A line and the rest of the lines, as children and as statements of a block. -/
theorem line_steady (all : AllSteady fuel) {rest : Read (List Expr)} (ofRest : Steady rest) :
    Steady (line fuel rest) := by
  refine (all.expression 0).bind fun tree => steady_get.bind fun reader => ?_
  refine .ite ?_ (steady_pure _)
  exact steady_skipNewlines.bind fun _ => ofRest.bind fun others => steady_pure _

theorem conditional_steady (all : AllSteady fuel) : Steady (conditional (fuel + 1)) := by
  unfold conditional
  refine (steady_expect _).bind fun start => ?_
  refine ((all.expression 0).withChildren false).bind fun condition => ?_
  refine all.block.bind fun thenBlock => (steady_eat _).bind fun other => .ite ?_ ?_
  · exact all.block.bind fun elseBlock => steady_get.bind fun last => steady_pure _
  · exact steady_get.bind fun last => steady_pure _

theorem block_steady (all : AllSteady fuel) : Steady (block (fuel + 1)) := by
  unfold block
  refine Steady.withChildren ?_ true
  refine (steady_expect _).bind fun _ => steady_skipNewlines.bind fun _ => ?_
  refine all.statementList.bind fun statements => (steady_eat _).bind fun returns => .ite ?_ ?_
  · refine (all.expression 0).bind fun result => steady_skipNewlines.bind fun _ => ?_
    exact (steady_expect _).bind fun _ => steady_pure _
  · exact (steady_expect _).bind fun _ => steady_pure _

end Step

theorem allSteady (fuel : Nat) : AllSteady fuel := by
  induction fuel with
  | zero => constructor <;> intros <;> exact steady_exhausted
  | succ fuel inductionHypothesis =>
      exact {
        expression := fun bound =>
          inductionHypothesis.unary.bind fun first => inductionHypothesis.operations bound first
        operations := operations_steady inductionHypothesis
        unary := unary_steady inductionHypothesis
        primary := primary_steady inductionHypothesis
        call := call_steady inductionHypothesis
        callArguments := callArguments_steady inductionHypothesis
        childList := steady_get.bind fun _ =>
          .ite (line_steady inductionHypothesis inductionHypothesis.childList) (steady_pure [])
        conditional := conditional_steady inductionHypothesis
        block := block_steady inductionHypothesis
        statementList := steady_get.bind fun _ =>
          .ite (line_steady inductionHypothesis inductionHypothesis.statementList)
            (steady_pure []) }

/-! ## Functions -/

theorem typeNames_steady (fuel : Nat) : Steady (typeNames fuel) := by
  induction fuel with
  | zero => exact steady_exhausted
  | succ fuel inductionHypothesis =>
      refine (steady_eat _).bind fun more => .ite ?_ (steady_pure [])
      refine (steady_expect _).bind fun token => ?_
      exact inductionHypothesis.bind fun others => steady_pure _

theorem typePath_steady (fuel : Nat) : Steady (typePath fuel) :=
  (steady_expect _).bind fun _ => (typeNames_steady fuel).bind fun _ =>
    steady_get.bind fun _ => steady_pure _

theorem parameter_steady (fuel : Nat) : Steady (parameter fuel) :=
  steady_identifier.bind fun _ => (steady_expect _).bind fun _ =>
    (typePath_steady fuel).bind fun _ => steady_pure _

theorem parameterList_steady (fuel : Nat) : Steady (parameterList fuel) := by
  induction fuel with
  | zero => exact steady_exhausted
  | succ fuel inductionHypothesis =>
      refine steady_get.bind fun reader => .ite ?_ (steady_pure [])
      refine (parameter_steady fuel).bind fun first => (steady_eat _).bind fun more => ?_
      refine .ite ?_ (steady_pure _)
      exact steady_skipNewlines.bind fun _ => inductionHypothesis.bind fun others => steady_pure _

theorem resultType_steady (fuel : Nat) : Steady (resultType fuel) :=
  (steady_eat _).bind fun _ =>
    .ite ((typePath_steady fuel).bind fun _ => steady_pure _) (steady_pure none)

theorem function_steady (fuel : Nat) : Steady (function fuel) := by
  refine (steady_expect _).bind fun _ => steady_identifier.bind fun name => ?_
  refine (steady_expect _).bind fun _ => steady_skipNewlines.bind fun _ => ?_
  refine (parameterList_steady fuel).bind fun parameters => (steady_expect _).bind fun _ => ?_
  refine (resultType_steady fuel).bind fun result => ?_
  exact (allSteady fuel).block.bind fun body => steady_pure _

end Read

end ScalarLang
