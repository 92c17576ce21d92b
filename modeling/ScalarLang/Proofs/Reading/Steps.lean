import ScalarLang.Proofs.Outcome
import ScalarLang.Proofs.Reading.Grammar

/-!
# Steps over tokens

What it takes for each step of a reader to succeed, said by the tokens it passes.
-/

set_option autoImplicit false

namespace ScalarLang

open Grammar

namespace Reader

variable {reader middle after : Reader} {token : Token} {kind : TokenKind}

/-! ## Looking ahead -/

theorem isAt_iff : reader.isAt kind = true ↔
    ∃ token, reader.current? = some token ∧ token.kind = kind := by
  unfold isAt
  cases reader.current? <;> simp

theorem isAt_of_current (present : reader.current? = some token) :
    reader.isAt kind = (token.kind == kind) := by
  simp [isAt, present]

theorem atEnd_iff : reader.atEnd = true ↔ reader.current? = none := by
  simp [atEnd, current?]

/-! ## Passing tokens -/

/-- The tokens are those that steps of the reader pass, one after the other. -/
inductive Passes : Reader → List Token → Reader → Prop
  | none {reader : Reader} : Passes reader [] reader
  | next {reader middle after : Reader} {token : Token} {others : List Token}
      (present : reader.current? = some token) (passed : Read.advance reader = .ok () middle)
      (rest : Passes middle others after) : Passes reader (token :: others) after

theorem advance_eq_ok (present : reader.current? = some token)
    (passed : Read.advance reader = .ok () after) :
    ∃ rest, reader.tokens = token :: rest ∧
      (rest = [] → ∃ position, reader.ending = .finished position) ∧
      after = { reader with tokens := rest, previous := token.span } := by
  obtain ⟨tokens, ending, previous, childrenAllowed⟩ := reader
  cases tokens with
  | nil => simp [current?] at present
  | cons first rest =>
      obtain rfl : first = token := by simpa [current?] using present
      refine ⟨rest, rfl, ?_⟩
      cases rest <;> cases ending <;> simp_all [Read.advance]

@[simp]
theorem passes_nil_iff : Passes reader [] after ↔ reader = after := by
  constructor
  · intro passes
    cases passes
    rfl
  · intro same
    rw [same]
    exact .none

theorem passes_singleton_iff : Passes reader [token] after ↔
    reader.current? = some token ∧ Read.advance reader = .ok () after := by
  constructor
  · intro passes
    cases passes with
    | next present passed none =>
        cases none
        exact ⟨present, passed⟩
  · rintro ⟨present, passed⟩
    exact .next present passed .none

theorem passes_cons_iff {others : List Token} : Passes reader (token :: others) after ↔
    ∃ middle, Passes reader [token] middle ∧ Passes middle others after := by
  constructor
  · intro passes
    cases passes with
    | next present passed rest => exact ⟨_, .next present passed .none, rest⟩
  · rintro ⟨middle, passes, rest⟩
    cases passes with
    | next present passed none =>
        cases none
        exact .next present passed rest

theorem passes_append_iff {tokens others : List Token} : Passes reader (tokens ++ others) after ↔
    ∃ middle, Passes reader tokens middle ∧ Passes middle others after := by
  induction tokens generalizing reader with
  | nil => simp
  | cons token tokens inductionHypothesis =>
      rw [List.cons_append, passes_cons_iff]
      constructor
      · rintro ⟨second, passesFirst, passesRest⟩
        obtain ⟨third, passesTokens, passesOthers⟩ := inductionHypothesis.mp passesRest
        exact ⟨third, passes_cons_iff.mpr ⟨second, passesFirst, passesTokens⟩, passesOthers⟩
      · rintro ⟨third, passes, passesOthers⟩
        obtain ⟨second, passesFirst, passesTokens⟩ := passes_cons_iff.mp passes
        exact ⟨second, passesFirst, inductionHypothesis.mpr ⟨third, passesTokens, passesOthers⟩⟩

namespace Passes

variable {tokens others : List Token}

theorem append (first : Passes reader tokens middle) (second : Passes middle others after) :
    Passes reader (tokens ++ others) after :=
  passes_append_iff.mpr ⟨middle, first, second⟩

theorem cons (first : Passes reader [token] middle) (second : Passes middle others after) :
    Passes reader (token :: others) after :=
  passes_cons_iff.mpr ⟨middle, first, second⟩

theorem current?_eq (passes : Passes reader (token :: others) after) :
    reader.current? = some token := by
  cases passes
  assumption

theorem childrenAllowed_eq (passes : Passes reader tokens after) :
    after.childrenAllowed = reader.childrenAllowed := by
  induction passes with
  | none => rfl
  | next present passed rest inductionHypothesis =>
      obtain ⟨_, -, -, rfl⟩ := advance_eq_ok present passed
      exact inductionHypothesis

theorem tokens_eq (passes : Passes reader tokens after) :
    reader.tokens = tokens ++ after.tokens := by
  induction passes with
  | none => rfl
  | next present passed rest inductionHypothesis =>
      obtain ⟨_, areTokens, -, rfl⟩ := advance_eq_ok present passed
      rw [areTokens, List.cons_append, ← inductionHypothesis]

theorem previous_eq_single (passes : Passes reader [token] after) :
    after.previous = token.span := by
  obtain ⟨present, passed⟩ := passes_singleton_iff.mp passes
  obtain ⟨_, -, -, rfl⟩ := advance_eq_ok present passed
  rfl

theorem previous_eq (passes : Passes reader (tokens ++ [token]) after) :
    after.previous = token.span := by
  obtain ⟨middle, -, passesLast⟩ := passes_append_iff.mp passes
  exact passesLast.previous_eq_single

/-- A reader that passed its last token is not before a fault. -/
theorem ending_finished (passes : Passes reader tokens after) (some : tokens ≠ [])
    (atEnd : after.tokens = []) : ∃ position, reader.ending = .finished position := by
  induction passes with
  | none => exact absurd rfl some
  | next present passed rest inductionHypothesis =>
      obtain ⟨left, -, finished, rfl⟩ := advance_eq_ok present passed
      cases rest with
      | none => exact finished atEnd
      | next _ _ _ => exact inductionHypothesis (by simp) atEnd

end Passes

theorem exists_passes {tokens rest : List Token} {position : Position}
    (areTokens : reader.tokens = tokens ++ rest) (finished : reader.ending = .finished position) :
    ∃ after, Passes reader tokens after ∧ after.tokens = rest := by
  induction tokens generalizing reader with
  | nil => exact ⟨reader, .none, areTokens⟩
  | cons token tokens inductionHypothesis =>
      have present : reader.current? = some token := by simp [current?, areTokens]
      have passed : Read.advance reader =
          .ok () { reader with tokens := tokens ++ rest, previous := token.span } := by
        unfold Read.advance
        rw [areTokens, finished, List.cons_append]
        cases tokens ++ rest <;> rfl
      obtain ⟨after, passes, isRest⟩ := @inductionHypothesis
        { reader with tokens := tokens ++ rest, previous := token.span } rfl finished
      exact ⟨after, .next present passed passes, isRest⟩

def allow (reader : Reader) (allowed : Bool) : Reader := { reader with childrenAllowed := allowed }

theorem allow_self (reader : Reader) : reader.allow reader.childrenAllowed = reader := rfl

theorem allow_allow (reader : Reader) (inner outer : Bool) :
    (reader.allow inner).allow outer = reader.allow outer := rfl

theorem Passes.allow {tokens : List Token} (passes : Passes reader tokens after)
    (allowed : Bool) : Passes (reader.allow allowed) tokens (after.allow allowed) := by
  induction passes with
  | none => exact .none
  | @next reader middle _ token _ present passed _ inductionHypothesis =>
      refine .next present ?_ inductionHypothesis
      obtain ⟨rest, areTokens, finished, rfl⟩ := advance_eq_ok present passed
      obtain ⟨tokens, ending, previous, childrenAllowed⟩ := reader
      subst areTokens
      cases rest <;> cases ending <;> simp_all [Read.advance, Reader.allow]

end Reader

namespace Read

variable {α : Type} {reader after : Reader} {token : Token} {kind : TokenKind}

open Reader

/-! ## Single steps -/

theorem expect_eq_ok_iff : expect kind reader = .ok token after ↔
    token.kind = kind ∧ Passes reader [token] after := by
  unfold expect
  rw [get_bind]
  cases present : reader.current? with
  | none =>
      constructor
      · intro succeeds
        cases succeeds
      · rintro ⟨-, passes⟩
        rw [passes.current?_eq] at present
        cases present
  | some found =>
      by_cases same : found.kind = kind
      · simp only [same, if_true, bind_eq_ok_iff, pure_eq_ok_iff]
        constructor
        · rintro ⟨_, middle, passed, rfl, rfl⟩
          exact ⟨same, .next present passed .none⟩
        · rintro ⟨-, passes⟩
          cases passes with
          | next isNext passed none =>
              cases none
              rw [present] at isNext
              cases isNext
              exact ⟨(), after, passed, rfl, rfl⟩
      · simp only [same, if_false]
        constructor
        · intro succeeds
          cases succeeds
        · rintro ⟨isKind, passes⟩
          rw [passes.current?_eq] at present
          cases present
          exact absurd isKind same

theorem identifier_eq_ok_iff {name : Ident} : identifier reader = .ok name after ↔
    ∃ token, token.kind = .identifier ∧ name = token.ident ∧ Passes reader [token] after := by
  unfold identifier
  simp only [bind_eq_ok_iff, pure_eq_ok_iff, expect_eq_ok_iff]
  constructor
  · rintro ⟨token, middle, ⟨isName, passes⟩, rfl, rfl⟩
    exact ⟨token, isName, rfl, passes⟩
  · rintro ⟨token, isName, rfl, passes⟩
    exact ⟨token, after, ⟨isName, passes⟩, rfl, rfl⟩

theorem eat_eq_true_iff : eat kind reader = .ok true after ↔
    ∃ token, token.kind = kind ∧ Passes reader [token] after := by
  unfold eat
  rw [get_bind]
  by_cases isAt : reader.isAt kind = true
  · rw [if_pos isAt]
    simp only [bind_eq_ok_iff, pure_eq_ok_iff]
    obtain ⟨token, present, isKind⟩ := isAt_iff.mp isAt
    constructor
    · rintro ⟨_, middle, passed, -, rfl⟩
      exact ⟨token, isKind, .next present passed .none⟩
    · rintro ⟨other, -, passes⟩
      cases passes with
      | next _ passed none =>
          cases none
          exact ⟨(), after, passed, trivial, rfl⟩
  · rw [if_neg isAt]
    simp only [pure_eq_ok_iff, Bool.false_eq_true, false_and, false_iff]
    rintro ⟨token, isKind, passes⟩
    exact isAt (isAt_iff.mpr ⟨token, passes.current?_eq, isKind⟩)

theorem eat_eq_false_iff : eat kind reader = .ok false after ↔
    reader.isAt kind = false ∧ reader = after := by
  unfold eat
  rw [get_bind]
  cases reader.isAt kind with
  | true =>
      rw [if_pos rfl]
      simp only [bind_eq_ok_iff, pure_eq_ok_iff]
      simp
  | false => simp [pure_eq_ok_iff]

theorem skipNewlinesOf_eq_ok_iff (tokens : List Token) : ∀ {reader : Reader},
    reader.tokens = tokens → (skipNewlinesOf tokens reader = .ok () after ↔
      ∃ newlines, Newlines newlines ∧ Passes reader newlines after ∧
        after.isAt .newline = false) := by
  induction tokens with
  | nil =>
      intro reader noTokens
      simp only [skipNewlinesOf, pure_eq_ok_iff, true_and]
      constructor
      · rintro rfl
        exact ⟨[], by simp [Newlines], .none, by simp [isAt, current?, noTokens]⟩
      · rintro ⟨newlines, -, passes, -⟩
        have areTokens := passes.tokens_eq
        rw [noTokens] at areTokens
        obtain rfl : newlines = [] := (List.append_eq_nil_iff.mp areTokens.symm).1
        exact passes_nil_iff.mp passes
  | cons token rest inductionHypothesis =>
      intro reader areTokens
      have present : reader.current? = some token := by simp [current?, areTokens]
      unfold skipNewlinesOf
      by_cases isNewline : token.kind = .newline
      · rw [if_pos isNewline, bind_eq_ok_iff]
        constructor
        · rintro ⟨_, middle, passed, skipped⟩
          obtain ⟨_, isRest, -, isMiddle⟩ := advance_eq_ok present passed
          have middleTokens : middle.tokens = rest := by simp_all
          obtain ⟨newlines, allNewlines, passes, stopped⟩ :=
            (inductionHypothesis middleTokens).mp skipped
          refine ⟨token :: newlines, ?_, .next present passed passes, stopped⟩
          simpa [Newlines, isNewline] using allNewlines
        · rintro ⟨newlines, allNewlines, passes, stopped⟩
          cases passes with
          | none => simp [isAt_of_current present, isNewline] at stopped
          | @next _ middle _ first newlines _ passed passesRest =>
              obtain ⟨_, isRest, -, isMiddle⟩ := advance_eq_ok present passed
              have middleTokens : middle.tokens = rest := by simp_all
              refine ⟨(), middle, passed, (inductionHypothesis middleTokens).mpr ?_⟩
              exact ⟨newlines, fun other member => allNewlines other (.tail _ member), passesRest,
                stopped⟩
      · rw [if_neg isNewline, pure_eq_ok_iff]
        constructor
        · rintro ⟨-, rfl⟩
          refine ⟨[], by simp [Newlines], .none, ?_⟩
          simp [isAt_of_current present, isNewline]
        · rintro ⟨newlines, allNewlines, passes, -⟩
          cases passes with
          | none => exact ⟨rfl, rfl⟩
          | next isNext =>
              rw [present] at isNext
              cases isNext
              exact absurd (allNewlines token (.head _)) isNewline

theorem skipNewlines_eq_ok_iff {done : Unit} : skipNewlines reader = .ok done after ↔
    ∃ newlines, Newlines newlines ∧ Passes reader newlines after ∧
      after.isAt .newline = false := by
  unfold skipNewlines
  rw [get_bind]
  exact skipNewlinesOf_eq_ok_iff reader.tokens rfl

section WithChildren

variable {allowed : Bool} {action : Read α} {value : α} {inner : Reader}

theorem withChildren_of_ok (outcome : action (reader.allow allowed) = .ok value inner) :
    withChildren allowed action reader = .ok value (inner.allow reader.childrenAllowed) := by
  unfold withChildren
  unfold Reader.allow at outcome
  rw [outcome]
  rfl

theorem withChildren_of_error {failure : ReadFailure}
    (outcome : action (reader.allow allowed) = .error failure inner) :
    withChildren allowed action reader = .error failure (inner.allow reader.childrenAllowed) := by
  unfold withChildren
  unfold Reader.allow at outcome
  rw [outcome]
  rfl

theorem withChildren_eq_ok_iff :
    withChildren allowed action reader = .ok value after ↔
      ∃ inner, action (reader.allow allowed) = .ok value inner ∧
        after = inner.allow reader.childrenAllowed := by
  cases outcome : action (reader.allow allowed) with
  | ok result inner =>
      rw [withChildren_of_ok outcome]
      simp only [EStateM.Result.ok.injEq]
      constructor
      · rintro ⟨rfl, rfl⟩
        exact ⟨inner, ⟨rfl, rfl⟩, rfl⟩
      · rintro ⟨_, ⟨rfl, rfl⟩, rfl⟩
        exact ⟨rfl, rfl⟩
  | error failure inner =>
      rw [withChildren_of_error outcome]
      simp

end WithChildren

theorem integerValue_eq_ok_iff {value? : Option Int64} {value : Int64} :
    integerValue value? token reader = .ok value after ↔ value? = some value ∧ reader = after := by
  cases value? with
  | none => simp [integerValue, fail]
  | some found => simp [integerValue, pure_eq_ok_iff]

end Read

end ScalarLang
