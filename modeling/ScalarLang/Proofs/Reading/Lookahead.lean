import ScalarLang.Proofs.Reading.ProgramOffsets

/-!
# How far reading looks ahead

A reading function looks at one token behind those that it passes, at the kind and the
text of tokens only, and at the span of the last token only after it passed one.  So two
readers that look alike for some places do the same as long as no more than these places
are looked at: both give the same tree, up to the offsets of the tokens, or both fail in
the same way at the same token.
-/

set_option autoImplicit false

namespace ScalarLang

/-! ## Readers that look alike -/

structure Token.Like (change : Nat → Nat) (token other : Token) : Prop where
  kind : token.kind = other.kind
  text : token.text = other.text
  span : token.span.mapOffsets change = other.span.mapOffsets change

theorem Token.Like.refl (change : Nat → Nat) (token : Token) : token.Like change token :=
  ⟨rfl, rfl, rfl⟩

def Token.outline (change : Nat → Nat) (token : Token) : TokenKind × String × Span :=
  (token.kind, token.text, token.span.mapOffsets change)

theorem Token.Like.outline_eq {change : Nat → Nat} {token other : Token}
    (like : token.Like change other) : token.outline change = other.outline change := by
  simp only [outline, like.kind, like.text, like.span]

theorem Token.like_of_outline_eq {change : Nat → Nat} {token other : Token}
    (same : token.outline change = other.outline change) : token.Like change other := by
  simp only [outline, Prod.mk.injEq] at same
  exact ⟨same.1, same.2.1, same.2.2⟩

theorem Token.Like.ident_eq {change : Nat → Nat} {token other : Token}
    (like : token.Like change other) :
    token.ident.mapOffsets change = other.ident.mapOffsets change := by
  simp only [ident, Ident.mapOffsets, like.text, like.span]

inductive Ending.Like : Ending → Ending → Prop
  | finished (position other : Position) : Like (.finished position) (.finished other)
  | fault {error other : LexError} (same : error.fault = other.fault) :
      Like (.fault error) (.fault other)

theorem Ending.Like.refl (ending : Ending) : ending.Like ending := by
  cases ending with
  | finished position => exact .finished position position
  | fault error => exact .fault rfl

section Like

variable {ending other : Ending}

theorem Ending.Like.exists_finished (like : ending.Like other) {position : Position}
    (finished : ending = .finished position) :
    ∃ otherPosition, other = .finished otherPosition := by
  subst finished
  cases like with
  | finished _ otherPosition => exact ⟨otherPosition, rfl⟩

theorem Ending.Like.exists_fault (like : ending.Like other) {error : LexError}
    (isFault : ending = .fault error) :
    ∃ otherError, other = .fault otherError ∧ error.fault = otherError.fault := by
  subst isFault
  cases like with
  | fault same => exact ⟨_, rfl, same⟩

end Like

/-- Two rows of tokens look alike for a number of places; the ending is the place after the
last token. -/
inductive Ahead (change : Nat → Nat) :
    Nat → List Token → Ending → List Token → Ending → Prop
  | unseen {tokens others : List Token} {ending other : Ending} :
      Ahead change 0 tokens ending others other
  | ended {count : Nat} {ending other : Ending} (like : ending.Like other) :
      Ahead change (count + 1) [] ending [] other
  | token {count : Nat} {token other : Token} {tokens others : List Token}
      {ending otherEnding : Ending} (like : token.Like change other)
      (rest : Ahead change count tokens ending others otherEnding) :
      Ahead change (count + 1) (token :: tokens) ending (other :: others) otherEnding

theorem Ahead.refl (change : Nat → Nat) (ending : Ending) :
    ∀ (tokens : List Token) (count : Nat), Ahead change count tokens ending tokens ending := by
  intro tokens
  induction tokens with
  | nil =>
      intro count
      cases count with
      | zero => exact .unseen
      | succ count => exact .ended (.refl ending)
  | cons token tokens inductionHypothesis =>
      intro count
      cases count with
      | zero => exact .unseen
      | succ count => exact .token (.refl change token) (inductionHypothesis count)

/-- Two readers look alike for the next token and a number of places after it.  Whether
the spans of the tokens that they passed last are alike is known or not. -/
structure Reader.Alike (change : Nat → Nat) (known : Prop) (count : Nat)
    (reader other : Reader) : Prop where
  ahead : Ahead change (count + 1) reader.tokens reader.ending other.tokens other.ending
  childrenAllowed : reader.childrenAllowed = other.childrenAllowed
  previous : known → reader.previous.mapOffsets change = other.previous.mapOffsets change

def Reader.Drops (reader : Reader) (count : Nat) (after : Reader) : Prop :=
  ∃ passed, passed.length = count ∧ reader.tokens = passed ++ after.tokens

namespace Reader

variable {change : Nat → Nat} {known : Prop} {count : Nat} {reader middle after other : Reader}

theorem errorHere_fault (reader : Reader) (fault : SyntaxFault) :
    (reader.errorHere fault).fault = fault := by
  unfold errorHere
  split <;> rfl

theorem Drops.none (reader : Reader) : reader.Drops 0 reader := ⟨[], rfl, rfl⟩

theorem Drops.trans {more : Nat} (first : reader.Drops count middle)
    (second : middle.Drops more after) : reader.Drops (count + more) after := by
  obtain ⟨passed, rfl, areTokens⟩ := first
  obtain ⟨others, rfl, areMiddle⟩ := second
  refine ⟨passed ++ others, List.length_append, ?_⟩
  rw [areTokens, areMiddle, List.append_assoc]

namespace Alike

theorem refl (reader : Reader) : reader.Alike change known count reader :=
  ⟨.refl _ _ _ _, rfl, fun _ => rfl⟩

theorem forget (alike : reader.Alike change True count other) :
    reader.Alike change known count other :=
  ⟨alike.ahead, alike.childrenAllowed, fun _ => alike.previous trivial⟩

theorem allow (alike : reader.Alike change known count other) (allowed : Bool) :
    (reader.allow allowed).Alike change known count (other.allow allowed) :=
  ⟨alike.ahead, rfl, alike.previous⟩

theorem current? (alike : reader.Alike change known count other) :
    Option.Rel (Token.Like change) reader.current? other.current? := by
  have ahead := alike.ahead
  unfold Reader.current?
  generalize reader.tokens = tokens at ahead ⊢
  generalize other.tokens = others at ahead ⊢
  cases ahead with
  | ended like => exact .none
  | token like rest => exact .some like

theorem current_of_none (alike : reader.Alike change known count other)
    (absent : reader.current? = none) : other.current? = none := by
  have related := alike.current?
  rw [absent] at related
  cases isOther : other.current? with
  | none => rfl
  | some token =>
      rw [isOther] at related
      cases related

theorem current_of_some (alike : reader.Alike change known count other) {token : Token}
    (present : reader.current? = some token) :
    ∃ otherToken, other.current? = some otherToken ∧ token.Like change otherToken := by
  have related := alike.current?
  rw [present] at related
  cases isOther : other.current? with
  | none =>
      rw [isOther] at related
      cases related
  | some otherToken =>
      rw [isOther] at related
      cases related with
      | some like => exact ⟨otherToken, rfl, like⟩

theorem isAt_eq (alike : reader.Alike change known count other) (kind : TokenKind) :
    reader.isAt kind = other.isAt kind := by
  unfold Reader.isAt
  cases present : reader.current? with
  | none => rw [alike.current_of_none present]
  | some token =>
      obtain ⟨otherToken, isOther, like⟩ := alike.current_of_some present
      simp only [isOther, like.kind]

theorem atEnd_eq (alike : reader.Alike change known count other) :
    reader.atEnd = other.atEnd := by
  rw [Bool.eq_iff_iff, atEnd_iff, atEnd_iff]
  constructor
  · exact alike.current_of_none
  · intro absent
    by_contra present
    obtain ⟨token, isToken⟩ := Option.ne_none_iff_exists'.mp present
    obtain ⟨otherToken, isOther, -⟩ := alike.current_of_some isToken
    rw [absent] at isOther
    cases isOther

theorem binaryOp?_eq (alike : reader.Alike change known count other) (bound : Nat) :
    reader.binaryOp? bound = other.binaryOp? bound := by
  unfold Reader.binaryOp?
  cases present : reader.current? with
  | none => rw [alike.current_of_none present]
  | some token =>
      obtain ⟨otherToken, isOther, like⟩ := alike.current_of_some present
      obtain ⟨kind, text, position⟩ := token
      obtain ⟨otherKind, otherText, otherPosition⟩ := otherToken
      obtain rfl : kind = otherKind := like.kind
      rw [isOther]
      cases kind <;> rfl

theorem unaryOp?_of_none (alike : reader.Alike change known count other)
    (absent : reader.unaryOp? = none) : other.unaryOp? = none := by
  unfold Reader.unaryOp? at absent ⊢
  cases present : reader.current? with
  | none => rw [alike.current_of_none present]
  | some token =>
      obtain ⟨otherToken, isOther, like⟩ := alike.current_of_some present
      simp only [present, isOther, ← like.kind] at absent ⊢
      cases isKind : token.kind <;> simp_all

theorem unaryOp?_of_some (alike : reader.Alike change known count other) {op : UnaryOp}
    {span : Span} (found : reader.unaryOp? = some (op, span)) :
    ∃ otherSpan, other.unaryOp? = some (op, otherSpan) ∧
      span.mapOffsets change = otherSpan.mapOffsets change := by
  obtain ⟨sign, present, isSign, rfl⟩ := unaryOp?_eq_some_iff.mp found
  obtain ⟨otherSign, isOther, like⟩ := alike.current_of_some present
  exact ⟨otherSign.span,
    unaryOp?_eq_some_iff.mpr ⟨otherSign, isOther, like.kind.symm.trans isSign, rfl⟩, like.span⟩

theorem negated?_of_none (alike : reader.Alike change known count other) {op : UnaryOp}
    (absent : reader.negated? op = none) : other.negated? op = none := by
  cases op with
  | not => rfl
  | negate =>
      unfold Reader.negated? at absent ⊢
      cases present : reader.current? with
      | none => rw [alike.current_of_none present]; rfl
      | some token =>
          obtain ⟨otherToken, isOther, like⟩ := alike.current_of_some present
          simp_all [Option.filter, like.kind]

theorem negated?_of_some (alike : reader.Alike change known count other) {op : UnaryOp}
    {digits : Token} (found : reader.negated? op = some digits) :
    ∃ otherDigits, other.negated? op = some otherDigits ∧ digits.Like change otherDigits := by
  obtain ⟨rfl, present, isInteger⟩ := negated?_eq_some_iff.mp found
  obtain ⟨otherDigits, isOther, like⟩ := alike.current_of_some present
  exact ⟨otherDigits,
    negated?_eq_some_iff.mpr ⟨rfl, isOther, like.kind.symm.trans isInteger⟩, like⟩

theorem hasStatement_eq (alike : reader.Alike change known count other) :
    reader.hasStatement = other.hasStatement := by
  simp only [Reader.hasStatement, alike.atEnd_eq, alike.isAt_eq]

theorem hasChild_eq (alike : reader.Alike change known count other) :
    reader.hasChild = other.hasChild := by
  simp only [Reader.hasChild, alike.atEnd_eq, alike.isAt_eq]

end Alike

end Reader

/-! ## Steps that do the same -/

/-- The places behind the next token that a fault was found at. -/
def SyntaxFault.peeks : SyntaxFault → Nat
  | .lexical _ => 1
  | _ => 0

theorem SyntaxFault.peeks_le_one (fault : SyntaxFault) : fault.peeks ≤ 1 := by
  cases fault <;> simp [peeks]

namespace Read

open Reader

variable {α β γ δ : Type} {change : Nat → Nat} {known : Prop} {count : Nat}
  {reader other : Reader}

/-- An outcome on another reader is the same, if the places that were looked at are among
those where the readers look alike: the value is the same as far as the view shows it, or
the same fault was found at the same token. -/
def Agree (change : Nat → Nat) (view : α → γ) (known : Prop) (count : Nat)
    (reader other : Reader) (outcome otherOutcome : EStateM.Result ReadFailure Reader α) : Prop :=
  match outcome with
  | .ok value after => ∃ passed, reader.Drops passed after ∧ (passed ≤ count →
      ∃ otherValue otherAfter, otherOutcome = .ok otherValue otherAfter ∧
        other.Drops passed otherAfter ∧ view value = view otherValue ∧
        after.Alike change known (count - passed) otherAfter)
  | .error (.rejected error) after => ∃ passed, reader.Drops passed after ∧
      (passed + error.fault.peeks ≤ count →
        ∃ otherError otherAfter, otherOutcome = .error (.rejected otherError) otherAfter ∧
          other.Drops passed otherAfter ∧ error.fault = otherError.fault)
  | .error .exhausted _ => True

def Follows (change : Nat → Nat) (view : α → γ) (known : Prop) (count : Nat)
    (action otherAction : Read α) (reader other : Reader) : Prop :=
  Agree change view known count reader other (action reader) (otherAction other)

def Local (change : Nat → Nat) (view : α → γ) (action otherAction : Read α) : Prop :=
  ∀ ⦃known : Prop⦄ ⦃count : Nat⦄ ⦃reader other : Reader⦄,
    reader.Alike change known count other →
    Follows change view known count action otherAction reader other

/-- A step that does the same on all readers that look alike, and passes a token. -/
def LocalPast (change : Nat → Nat) (view : α → γ) (action otherAction : Read α) : Prop :=
  ∀ ⦃known : Prop⦄ ⦃count : Nat⦄ ⦃reader other : Reader⦄,
    reader.Alike change known count other →
    Follows change view True count action otherAction reader other

section Rules

variable {view : α → γ} {viewNext : β → δ} {action otherAction : Read α}
  {next otherNext : α → Read β}

theorem follows_pure {value otherValue : α} (same : view value = view otherValue)
    (alike : reader.Alike change known count other) :
    Follows change view known count (pure value) (pure otherValue) reader other :=
  ⟨0, .none reader, fun _ => ⟨otherValue, other, rfl, .none other, same, alike⟩⟩

theorem follows_get {next otherNext : Reader → Read α}
    (follows : Follows change view known count (next reader) (otherNext other) reader other) :
    Follows change view known count (get >>= next) (get >>= otherNext) reader other := follows

theorem Follows.forget (follows : Follows change view True count action otherAction reader other) :
    Follows change view known count action otherAction reader other := by
  unfold Follows at follows ⊢
  generalize action reader = outcome at follows ⊢
  rcases outcome with ⟨value, after⟩ | ⟨error | _, after⟩
  · obtain ⟨passed, drops, same⟩ := follows
    refine ⟨passed, drops, fun seen => ?_⟩
    obtain ⟨otherValue, otherAfter, isOther, dropsOther, sameValue, alike⟩ := same seen
    exact ⟨otherValue, otherAfter, isOther, dropsOther, sameValue, alike.forget⟩
  · exact follows
  · trivial

theorem LocalPast.local (past : LocalPast change view action otherAction) :
    Local change view action otherAction := fun _ _ _ _ alike => (past alike).forget

/-- What the readers passed before counts too.  Nothing is said of the other reader, if it
looks different already there. -/
theorem Agree.drop {passed : Nat} {middle otherMiddle : Reader}
    {outcome otherOutcome compared : EStateM.Result ReadFailure Reader α}
    (drops : reader.Drops passed middle)
    (seen : passed ≤ count → other.Drops passed otherMiddle ∧ otherOutcome = compared)
    (agree : Agree change view known (count - passed) middle otherMiddle outcome compared) :
    Agree change view known count reader other outcome otherOutcome := by
  rcases outcome with ⟨value, after⟩ | ⟨error | _, after⟩
  · obtain ⟨more, dropsMore, same⟩ := agree
    refine ⟨passed + more, drops.trans dropsMore, fun seenBoth => ?_⟩
    obtain ⟨dropsOther, rfl⟩ := seen (by omega)
    obtain ⟨otherValue, otherAfter, isOther, dropsRest, sameValue, alike⟩ := same (by omega)
    rw [Nat.sub_sub] at alike
    exact ⟨otherValue, otherAfter, isOther, dropsOther.trans dropsRest, sameValue, alike⟩
  · obtain ⟨more, dropsMore, same⟩ := agree
    refine ⟨passed + more, drops.trans dropsMore, fun seenBoth => ?_⟩
    obtain ⟨dropsOther, rfl⟩ := seen (by omega)
    obtain ⟨otherError, otherAfter, isOther, dropsRest, sameFault⟩ := same (by omega)
    exact ⟨otherError, otherAfter, isOther, dropsOther.trans dropsRest, sameFault⟩
  · trivial

/-- Two steps in turn.  Behind the places where the readers look alike, the second step is
compared with itself, which says how many tokens it passes. -/
theorem Follows.bind_of_ok {after : Prop}
    (first : Follows change view known count action otherAction reader other)
    (second : ∀ {value otherValue count middle otherMiddle}, action reader = .ok value middle →
      view value = view otherValue → middle.Alike change known count otherMiddle →
      Follows change viewNext after count (next value) (otherNext otherValue)
        middle otherMiddle) :
    Follows change viewNext after count (action >>= next) (otherAction >>= otherNext)
      reader other := by
  unfold Follows at first ⊢
  cases outcome : action reader with
  | error failure middle =>
      rw [bind_of_error outcome]
      rw [outcome] at first
      cases failure with
      | exhausted => trivial
      | rejected error =>
          obtain ⟨passed, drops, same⟩ := first
          refine ⟨passed, drops, fun seen => ?_⟩
          obtain ⟨otherError, otherAfter, isOther, dropsOther, sameFault⟩ := same seen
          exact ⟨otherError, otherAfter, bind_of_error isOther, dropsOther, sameFault⟩
  | ok value middle =>
      rw [ScalarLang.bind_of_ok outcome]
      rw [outcome] at first
      obtain ⟨passed, drops, same⟩ := first
      by_cases seen : passed ≤ count
      · obtain ⟨otherValue, otherMiddle, isOther, dropsOther, sameValue, alike⟩ := same seen
        rw [ScalarLang.bind_of_ok isOther]
        exact .drop drops (fun _ => ⟨dropsOther, rfl⟩) (second outcome sameValue alike)
      · exact .drop drops (fun seenFirst => absurd seenFirst seen)
          (@second value value _ middle middle outcome rfl (.refl middle))

theorem Follows.bind {after : Prop}
    (first : Follows change view known count action otherAction reader other)
    (second : ∀ {value otherValue count reader other}, view value = view otherValue →
      reader.Alike change known count other →
      Follows change viewNext after count (next value) (otherNext otherValue) reader other) :
    Follows change viewNext after count (action >>= next) (otherAction >>= otherNext)
      reader other :=
  first.bind_of_ok fun _ => second

/-- Two steps in turn, where the first gives the same value. -/
theorem Follows.bind_same {after : Prop}
    (first : Follows change id known count action otherAction reader other)
    (second : ∀ {value count reader other}, reader.Alike change known count other →
      Follows change viewNext after count (next value) (otherNext value) reader other) :
    Follows change viewNext after count (action >>= next) (otherAction >>= otherNext)
      reader other := by
  refine first.bind fun {value otherValue} _ _ _ same alike => ?_
  obtain rfl : value = otherValue := same
  exact second alike

theorem Local.bind (first : Local change view action otherAction)
    (second : ∀ {value otherValue}, view value = view otherValue →
      Local change viewNext (next value) (otherNext otherValue)) :
    Local change viewNext (action >>= next) (otherAction >>= otherNext) :=
  fun _ _ _ _ alike => (first alike).bind fun same alike => second same alike

theorem follows_withChildren (allowed : Bool) (alike : reader.Alike change known count other)
    {after : Prop} (follows : Follows change view after count action otherAction
      (reader.allow allowed) (other.allow allowed)) :
    Follows change view after count (withChildren allowed action)
      (withChildren allowed otherAction) reader other := by
  unfold Follows at follows ⊢
  cases outcome : action (reader.allow allowed) with
  | ok value inner =>
      rw [outcome] at follows
      rw [withChildren_of_ok outcome]
      obtain ⟨passed, drops, same⟩ := follows
      refine ⟨passed, drops, fun seen => ?_⟩
      obtain ⟨otherValue, otherAfter, isOther, dropsOther, sameValue, alikeInner⟩ := same seen
      refine ⟨otherValue, _, withChildren_of_ok isOther, dropsOther, sameValue, ?_⟩
      rw [alike.childrenAllowed]
      exact alikeInner.allow _
  | error failure inner =>
      rw [outcome] at follows
      rw [withChildren_of_error outcome]
      cases failure with
      | exhausted => trivial
      | rejected error =>
          obtain ⟨passed, drops, same⟩ := follows
          refine ⟨passed, drops, fun seen => ?_⟩
          obtain ⟨otherError, otherAfter, isOther, dropsOther, sameFault⟩ := same seen
          exact ⟨otherError, _, withChildren_of_error isOther, dropsOther, sameFault⟩

theorem Local.withChildren (allowed : Bool) (follows : Local change view action otherAction) :
    Local change view (withChildren allowed action) (withChildren allowed otherAction) :=
  fun _ _ _ _ alike => follows_withChildren allowed alike (follows (alike.allow allowed))

theorem past_fail {fault : SyntaxFault} : LocalPast change view (fail fault) (fail fault) := by
  intro known count reader other alike
  refine ⟨0, .none reader, fun _ => ⟨other.errorHere fault, other, rfl, .none other, ?_⟩⟩
  rw [errorHere_fault, errorHere_fault]

theorem past_unexpected {wanted : Expectation} :
    LocalPast change view (unexpected wanted) (unexpected wanted) := by
  intro known count reader other alike
  refine ⟨0, .none reader, fun _ => ⟨_, other, rfl, .none other, ?_⟩⟩
  rw [errorHere_fault, errorHere_fault]
  cases present : reader.current? with
  | none => rw [alike.current_of_none present]
  | some token =>
      obtain ⟨otherToken, isOther, like⟩ := alike.current_of_some present
      simp only [isOther, Option.map_some, like.kind, like.text]

end Rules

/-! ## Single steps -/

/-- A step over a token looks at the place after it, where a fault may be. -/
theorem follows_advance {token : Token} (present : reader.current? = some token)
    (alike : reader.Alike change known count other) :
    Follows change id True count advance advance reader other := by
  obtain ⟨tokens, ending, previous, childrenAllowed⟩ := reader
  obtain ⟨others, otherEnding, otherPrevious, otherAllowed⟩ := other
  obtain ⟨ahead, sameAllowed, -⟩ := alike
  simp only [Reader.current?] at present ahead sameAllowed
  subst sameAllowed
  unfold Follows
  cases ahead with
  | ended like => cases present
  | @token _ first otherFirst tokens others _ _ like rest =>
      cases tokens with
      | cons second tokens =>
          refine ⟨1, ⟨[first], rfl, rfl⟩, fun seen => ?_⟩
          obtain ⟨count, rfl⟩ := Nat.exists_eq_add_of_le' seen
          cases rest with
          | token likeSecond rest =>
              exact ⟨(), _, rfl, ⟨[otherFirst], rfl, rfl⟩, rfl, .token likeSecond rest, rfl,
                fun _ => like.span⟩
      | nil =>
          cases ending with
          | finished position =>
              refine ⟨1, ⟨[first], rfl, rfl⟩, fun seen => ?_⟩
              obtain ⟨count, rfl⟩ := Nat.exists_eq_add_of_le' seen
              cases rest with
              | ended likeEnding =>
                  cases likeEnding with
                  | finished position otherPosition =>
                      exact ⟨(), _, rfl, ⟨[otherFirst], rfl, rfl⟩, rfl,
                        .ended (.finished position otherPosition), rfl, fun _ => like.span⟩
          | fault error =>
              refine ⟨0, ⟨[], rfl, rfl⟩, fun seen => ?_⟩
              obtain ⟨count, rfl⟩ := Nat.exists_eq_add_of_le' seen
              cases rest with
              | ended likeEnding =>
                  cases likeEnding with
                  | fault same =>
                      refine ⟨_, _, rfl, ⟨[], rfl, rfl⟩, ?_⟩
                      simp only [SyntaxError.ofLexError, same]

theorem past_expect (kind : TokenKind) :
    LocalPast change (Token.outline change) (expect kind) (expect kind) := by
  intro known count reader other alike
  unfold expect
  apply follows_get
  cases present : reader.current? with
  | none =>
      rw [alike.current_of_none present]
      exact past_unexpected alike
  | some token =>
      obtain ⟨otherToken, isOther, like⟩ := alike.current_of_some present
      simp only [isOther, ← like.kind]
      by_cases isKind : token.kind = kind
      · simp only [isKind, if_true]
        exact (follows_advance present alike).bind_same
          fun alike => follows_pure like.outline_eq alike
      · simp only [isKind, if_false]
        exact past_unexpected alike

theorem past_identifier :
    LocalPast change (Ident.mapOffsets change) identifier identifier := by
  intro known count reader other alike
  refine (past_expect .identifier alike).bind fun same alike => follows_pure ?_ alike
  exact (Token.like_of_outline_eq same).ident_eq

theorem local_eat (kind : TokenKind) : Local change id (eat kind) (eat kind) := by
  intro known count reader other alike
  unfold eat
  apply follows_get
  rw [← alike.isAt_eq]
  cases isAt : reader.isAt kind with
  | false => exact follows_pure rfl alike
  | true =>
      obtain ⟨token, present, -⟩ := isAt_iff.mp isAt
      exact ((follows_advance present alike).bind_same fun alike => follows_pure rfl alike).forget

theorem skipNewlines_step (reader : Reader) : skipNewlines reader =
    if reader.isAt .newline then (advance >>= fun _ => skipNewlines) reader
    else .ok () reader := by
  unfold skipNewlines
  rw [get_bind]
  cases areTokens : reader.tokens with
  | nil => simp [skipNewlinesOf, isAt, current?, areTokens, pure, EStateM.pure]
  | cons token rest =>
      have present : reader.current? = some token := by simp [current?, areTokens]
      rw [isAt_of_current present, skipNewlinesOf]
      by_cases isNewline : token.kind = .newline
      · simp only [isNewline, if_true, beq_self_eq_true]
        cases outcome : advance reader with
        | error failure after => rw [bind_of_error outcome, bind_of_error outcome]
        | ok done after =>
            obtain ⟨_, isRest, -, rfl⟩ := advance_eq_ok present outcome
            obtain ⟨-, rfl⟩ := List.cons.inj (areTokens.symm.trans isRest)
            rw [bind_of_ok outcome, bind_of_ok outcome, get_bind]
      · simp [isNewline, pure, EStateM.pure]

theorem local_skipNewlines : Local change id skipNewlines skipNewlines := by
  intro known count reader other alike
  generalize areTokens : reader.tokens = tokens
  induction tokens generalizing known count reader other with
  | nil =>
      have away : reader.isAt .newline = false := by simp [isAt, current?, areTokens]
      unfold Follows
      rw [skipNewlines_step, skipNewlines_step, ← alike.isAt_eq, away]
      exact follows_pure rfl alike
  | cons token tokens inductionHypothesis =>
      unfold Follows
      rw [skipNewlines_step, skipNewlines_step, ← alike.isAt_eq]
      cases isAt : reader.isAt .newline with
      | false => exact follows_pure rfl alike
      | true =>
          have present : reader.current? = some token := by simp [current?, areTokens]
          refine ((follows_advance present alike).bind_of_ok fun passed _ alike => ?_).forget
          obtain ⟨_, isRest, -, rfl⟩ := advance_eq_ok present passed
          exact inductionHypothesis alike (List.cons.inj (isRest.symm.trans areTokens)).2

theorem local_integerValue (value? : Option Int64) {token otherToken : Token}
    (like : token.Like change otherToken) :
    Local change id (integerValue value? token) (integerValue value? otherToken) := by
  cases value? with
  | some value => exact fun _ _ _ _ alike => follows_pure rfl alike
  | none =>
      unfold integerValue
      simp only [like.kind, like.text]
      exact past_fail.local

end Read

end ScalarLang
