import Mathlib.Data.List.Infix
import ScalarLang.Scope.Table

/-!
# Lexical scoping over whole runs

A history is what was asked of a table of scopes since it was new.  Which bindings are in
force can be said of the history alone: a scope that was innermost at some time is still
open if what came after has never left more scopes than it opened, and a binding is in force
until its name is bound again in the same scope or the scope is left.  The table answers
every step of a run as its history demands.
-/

set_option autoImplicit false

namespace ScalarLang

inductive ScopeStep (α : Type) where
  | enter
  | exit
  | insert (name : String) (value : α)
  | lookup (name : String)
  | lookupWhere (name : String) (accepts : α → Bool)

namespace ScopeTable

variable {α : Type}

/-- What a step answers, and the table it leaves; a binding answers with the one that it
replaces. -/
def perform (table : ScopeTable α) : ScopeStep α → Except ScopeError (Option α × ScopeTable α)
  | .enter => .ok (none, table.enter)
  | .exit => table.exit.map fun outer => (none, outer)
  | .insert name value => .ok (table.replaced? name, table.insert name value)
  | .lookup name => .ok (table.lookup? name, table)
  | .lookupWhere name accepts => .ok (table.lookupWhere? name accepts, table)

def run (table : ScopeTable α) :
    List (ScopeStep α) → Except ScopeError (List (Option α) × ScopeTable α)
  | [] => .ok ([], table)
  | step :: rest =>
    match table.perform step with
    | .error error => .error error
    | .ok (answer, next) => (next.run rest).map fun last => (answer :: last.1, last.2)

end ScopeTable

/-! ## Histories -/

namespace ScopeStep

variable {α : Type}

def isEnter : ScopeStep α → Bool
  | .enter => true
  | _ => false

def isExit : ScopeStep α → Bool
  | .exit => true
  | _ => false

def enters (steps : List (ScopeStep α)) : Nat := steps.countP isEnter

def exits (steps : List (ScopeStep α)) : Nat := steps.countP isExit

/-- The scope that was innermost before some steps is open all the time. -/
def StaysOpen (steps : List (ScopeStep α)) : Prop :=
  ∀ first, first <+: steps → exits first ≤ enters first

structure Balanced (steps : List (ScopeStep α)) : Prop where
  staysOpen : StaysOpen steps
  exits_eq : exits steps = enters steps

def NotRebound (name : String) (steps : List (ScopeStep α)) : Prop :=
  ∀ between value rest, steps = between ++ .insert name value :: rest →
    exits between ≠ enters between

/-- A value is the latest binding of a name in an open scope that has a number of open scopes
inside it. -/
def BoundAt (history : List (ScopeStep α)) (name : String) (inward : Nat) (value : α) : Prop :=
  ∃ before after, history = before ++ .insert name value :: after ∧ StaysOpen after ∧
    NotRebound name after ∧ enters after = exits after + inward

/-- A value is the most recent binding of a name whose scope is still open. -/
def MostRecent (history : List (ScopeStep α)) (name : String) (value : α) : Prop :=
  ∃ before after, history = before ++ .insert name value :: after ∧ StaysOpen after ∧
    ∀ between other rest, after = between ++ .insert name other :: rest → ¬ StaysOpen rest

/-- Of the latest bindings of a name in the open scopes, a value is the innermost one that is
accepted. -/
def InnermostAccepted (history : List (ScopeStep α)) (name : String) (accepts : α → Bool)
    (value : α) : Prop :=
  ∃ inward, BoundAt history name inward value ∧ accepts value = true ∧
    ∀ level other, BoundAt history name level other → accepts other = true → inward ≤ level

/-- What lexical scoping demands as the answer of a step after a history. -/
def Demands (history : List (ScopeStep α)) : ScopeStep α → Option α → Prop
  | .enter, answer => answer = none
  | .exit, answer => answer = none
  | .insert name _, answer => ∀ value, answer = some value ↔ BoundAt history name 0 value
  | .lookup name, answer => ∀ value, answer = some value ↔ MostRecent history name value
  | .lookupWhere name accepts, answer =>
    ∀ value, answer = some value ↔ InnermostAccepted history name accepts value

/-! ### Counting scopes -/

@[simp]
theorem enters_append (first second : List (ScopeStep α)) :
    enters (first ++ second) = enters first + enters second := List.countP_append

@[simp]
theorem exits_append (first second : List (ScopeStep α)) :
    exits (first ++ second) = exits first + exits second := List.countP_append

@[simp]
theorem enters_cons (step : ScopeStep α) (rest : List (ScopeStep α)) :
    enters (step :: rest) = enters rest + if step.isEnter then 1 else 0 := List.countP_cons

@[simp]
theorem exits_cons (step : ScopeStep α) (rest : List (ScopeStep α)) :
    exits (step :: rest) = exits rest + if step.isExit then 1 else 0 := List.countP_cons

@[simp]
theorem enters_nil : enters ([] : List (ScopeStep α)) = 0 := rfl

@[simp]
theorem exits_nil : exits ([] : List (ScopeStep α)) = 0 := rfl

theorem staysOpen_nil : StaysOpen ([] : List (ScopeStep α)) := by
  intro first isPrefix
  rw [List.prefix_nil.mp isPrefix]
  exact Nat.le_refl _

theorem staysOpen_concat {steps : List (ScopeStep α)} {step : ScopeStep α} :
    StaysOpen (steps ++ [step]) ↔
      StaysOpen steps ∧ exits (steps ++ [step]) ≤ enters (steps ++ [step]) := by
  constructor
  · intro stays
    exact ⟨fun first isPrefix => stays first (isPrefix.trans (List.prefix_append _ _)),
      stays _ (List.prefix_refl _)⟩
  · rintro ⟨stays, whole⟩ first isPrefix
    rcases List.prefix_concat_iff.mp isPrefix with rfl | isPrefix
    · exact whole
    · exact stays first isPrefix

theorem StaysOpen.exits_le {steps : List (ScopeStep α)} (stays : StaysOpen steps) :
    exits steps ≤ enters steps := stays steps (List.prefix_refl _)

theorem StaysOpen.left {first second : List (ScopeStep α)} (stays : StaysOpen (first ++ second)) :
    StaysOpen first := fun part isPrefix => stays part (isPrefix.trans (List.prefix_append _ _))

/-- A scope that is open after some steps and innermost then is the innermost one before. -/
theorem StaysOpen.right {first second : List (ScopeStep α)} (stays : StaysOpen (first ++ second))
    (closed : exits first = enters first) : StaysOpen second := by
  intro part isPrefix
  have counts := stays (first ++ part) ((List.prefix_append_right_inj first).mpr isPrefix)
  rw [exits_append, enters_append] at counts
  omega

/-! ### One more step -/

section Concat

variable {history after : List (ScopeStep α)} {name : String} {step : ScopeStep α}

theorem concat_eq_append_cons {before : List (ScopeStep α)} {found : ScopeStep α}
    (isSplit : history ++ [step] = before ++ found :: after) :
    (after = [] ∧ history = before ∧ step = found) ∨
      ∃ earlier, after = earlier ++ [step] ∧ history = before ++ found :: earlier := by
  rcases List.eq_nil_or_concat after with rfl | ⟨earlier, last, rfl⟩
  · obtain ⟨rfl, isStep⟩ := List.append_inj' isSplit rfl
    exact .inl ⟨rfl, rfl, (List.cons_eq_cons.mp isStep).1⟩
  · rw [List.concat_eq_append, ← List.cons_append, ← List.append_assoc] at isSplit
    obtain ⟨rfl, isStep⟩ := List.append_inj' isSplit rfl
    cases isStep
    exact .inr ⟨earlier, List.concat_eq_append, rfl⟩

theorem notRebound_concat : NotRebound name (after ++ [step]) ↔
    NotRebound name after ∧ ∀ value, step = .insert name value → exits after ≠ enters after := by
  constructor
  · intro notRebound
    refine ⟨?_, ?_⟩
    · rintro between value rest rfl
      exact notRebound between value (rest ++ [step]) (by simp)
    · rintro value rfl
      exact notRebound after value [] rfl
  · rintro ⟨notRebound, notNow⟩ between value rest isSplit
    rcases concat_eq_append_cons isSplit with ⟨-, rfl, isStep⟩ | ⟨earlier, -, rfl⟩
    · exact notNow value isStep
    · exact notRebound between value earlier rfl

/-- Whether a step keeps a binding of a name in a scope, and how many scopes are inside that
scope before and after the step. -/
def Keeps (name : String) (level inward : Nat) : ScopeStep α → Prop
  | .enter => inward = level + 1
  | .exit => level = inward + 1
  | .insert other _ => inward = level ∧ (other = name → level ≠ 0)
  | .lookup _ => inward = level
  | .lookupWhere _ _ => inward = level

theorem keeps_iff {level inward : Nat} (stays : StaysOpen after)
    (isLevel : enters after = exits after + level) :
    Keeps name level inward step ↔ StaysOpen (after ++ [step]) ∧
      (∀ value, step = .insert name value → exits after ≠ enters after) ∧
      enters (after ++ [step]) = exits (after ++ [step]) + inward := by
  have counts := stays.exits_le
  rw [staysOpen_concat, exits_append, enters_append, exits_cons, enters_cons]
  cases step with
  | insert other value =>
      simp only [Keeps, isEnter, isExit, stays, true_and, insert.injEq, enters_nil, exits_nil]
      constructor
      · rintro ⟨rfl, notInnermost⟩
        refine ⟨by simpa using counts, ?_, by simpa using isLevel⟩
        rintro value ⟨rfl, -⟩
        have inside := notInnermost rfl
        omega
      · rintro ⟨-, notInnermost, isInward⟩
        have isSame : inward = level := by
          simp only [Bool.false_eq_true, if_false, Nat.add_zero] at isInward
          omega
        refine ⟨isSame, ?_⟩
        rintro rfl
        have inside := notInnermost value ⟨rfl, rfl⟩
        omega
  | _ =>
      simp [Keeps, isEnter, isExit, stays]
      omega

/-- After one more step a binding is in force if the step makes it, or keeps it. -/
theorem boundAt_concat {inward : Nat} {value : α} :
    BoundAt (history ++ [step]) name inward value ↔
      (step = .insert name value ∧ inward = 0) ∨
      ∃ level, BoundAt history name level value ∧ Keeps name level inward step := by
  constructor
  · rintro ⟨before, after, isSplit, stays, notRebound, isInward⟩
    rcases concat_eq_append_cons isSplit with ⟨rfl, -, isStep⟩ | ⟨earlier, rfl, rfl⟩
    · refine .inl ⟨isStep, ?_⟩
      simpa using isInward.symm
    · obtain ⟨notReboundEarlier, notNow⟩ := notRebound_concat.mp notRebound
      have isLevel : enters earlier = exits earlier + (enters earlier - exits earlier) := by
        have counts := stays.left.exits_le
        omega
      exact .inr ⟨_, ⟨before, earlier, rfl, stays.left, notReboundEarlier, isLevel⟩,
        (keeps_iff stays.left isLevel).mpr ⟨stays, notNow, isInward⟩⟩
  · rintro (⟨rfl, rfl⟩ | ⟨level, ⟨before, after, rfl, stays, notRebound, isLevel⟩, keeps⟩)
    · exact ⟨history, [], rfl, staysOpen_nil, fun between value rest isSplit => by simp at isSplit,
        rfl⟩
    · obtain ⟨staysOpen, notNow, isInward⟩ := (keeps_iff stays isLevel).mp keeps
      exact ⟨before, after ++ [step], by simp, staysOpen,
        notRebound_concat.mpr ⟨notRebound, notNow⟩, isInward⟩

end Concat

/-! ### The most recent binding -/

section Recent

variable {history before after : List (ScopeStep α)} {name : String} {value : α}

/-- A scope that is still open and has got a binding of a name has a latest one. -/
theorem exists_boundAt (isSplit : history = before ++ .insert name value :: after)
    (stays : StaysOpen after) :
    ∃ latest, BoundAt history name (enters after - exits after) latest := by
  induction isSize : after.length using Nat.strong_induction_on generalizing before value after with
  | _ size inductionHypothesis =>
  by_cases notRebound : NotRebound name after
  · have counts := stays.exits_le
    exact ⟨value, before, after, isSplit, stays, notRebound, by omega⟩
  · -- The scope gets the name again, so the binding that is asked for is one of those after.
    simp only [NotRebound, not_forall, not_not] at notRebound
    obtain ⟨between, other, rest, rfl, closed⟩ := notRebound
    have staysInsert : StaysOpen ([.insert name other] ++ rest) := stays.right closed
    have isLater : history =
        (before ++ .insert name value :: between) ++ .insert name other :: rest := by
      rw [isSplit, List.append_assoc]
      rfl
    have isShorter : rest.length < size := by
      rw [← isSize, List.length_append, List.length_cons]
      omega
    have sameLevel : enters (between ++ insert name other :: rest) -
        exits (between ++ insert name other :: rest) = enters rest - exits rest := by
      simp [isEnter, isExit]
      omega
    rw [sameLevel]
    exact inductionHypothesis _ isShorter isLater (staysInsert.right rfl) rfl

/-- Of two places in a list, one is the other, or comes after it. -/
theorem append_cons_cases {earlier later : List (ScopeStep α)} {step found : ScopeStep α}
    (same : before ++ step :: after = earlier ++ found :: later) :
    (step = found ∧ after = later) ∨ (∃ between, after = between ++ found :: later) ∨
      ∃ between, later = between ++ step :: after := by
  rcases List.append_eq_append_iff.mp same with ⟨middle, -, isRest⟩ | ⟨middle, -, isRest⟩
  · cases middle with
    | nil => exact .inl (List.cons_eq_cons.mp isRest)
    | cons first between => exact .inr (.inl ⟨between, (List.cons_eq_cons.mp isRest).2⟩)
  · cases middle with
    | nil => exact .inl ((List.cons_eq_cons.mp isRest).imp Eq.symm Eq.symm)
    | cons first between => exact .inr (.inr ⟨between, (List.cons_eq_cons.mp isRest).2⟩)

/-- The most recent binding in an open scope is the one of the innermost scope that has one. -/
theorem mostRecent_iff : MostRecent history name value ↔
    InnermostAccepted history name (fun _ => true) value := by
  constructor
  · rintro ⟨before, after, rfl, stays, noLater⟩
    have counts := stays.exits_le
    have isInward : enters after = exits after + (enters after - exits after) := by omega
    refine ⟨_, ⟨before, after, rfl, stays, ?_, isInward⟩, rfl, ?_⟩
    · rintro between other rest rfl closed
      have staysInsert : StaysOpen ([.insert name other] ++ rest) := stays.right closed
      exact noLater between other rest rfl (staysInsert.right rfl)
    · rintro level other ⟨earlier, later, isSplit, staysLater, -, isLevel⟩ -
      rcases append_cons_cases isSplit with ⟨-, rfl⟩ | ⟨between, rfl⟩ | ⟨between, rfl⟩
      · omega
      · exact absurd staysLater (noLater between other later rfl)
      · -- The scope of an earlier binding is open all the time, so it is not further in.
        have countsBetween := staysLater.left.exits_le
        simp [isEnter, isExit] at isLevel
        omega
  · rintro ⟨inward, ⟨before, after, rfl, stays, notRebound, isInward⟩, -, innermost⟩
    refine ⟨before, after, rfl, stays, ?_⟩
    rintro between other rest rfl staysRest
    -- A later binding in an open scope is in a scope further in, which has a latest binding.
    have isLater : before ++ .insert name value :: (between ++ .insert name other :: rest) =
        (before ++ .insert name value :: between) ++ .insert name other :: rest := by simp
    obtain ⟨latest, isLatest⟩ := exists_boundAt isLater staysRest
    have atMost := innermost _ latest isLatest rfl
    have notClosed := notRebound between other rest rfl
    have countsBetween := stays.left.exits_le
    have countsRest := staysRest.exits_le
    simp [isEnter, isExit] at isInward
    omega

end Recent

end ScopeStep

/-! ## Tables -/

namespace ScopeTable

open ScopeStep

variable {α : Type}

def bound? (table : ScopeTable α) (name : String) (inward : Nat) : Option α :=
  table.scopes[inward]?.bind fun scope => scope.find? name

section Bound

variable {table : ScopeTable α} {name other : String} {value : α} {inward : Nat}

theorem scopes_eq_cons (table : ScopeTable α) :
    ∃ outer, table.scopes = table.innermost :: outer := by
  unfold scopes innermost
  cases table.inner with
  | nil => exact ⟨[], rfl⟩
  | cons scope rest => exact ⟨rest ++ [table.outermost], rfl⟩

theorem scopes_enter (table : ScopeTable α) : table.enter.scopes = [] :: table.scopes := rfl

theorem scopes_exit {outer : ScopeTable α} (exits : table.exit = .ok outer) :
    table.scopes = table.innermost :: outer.scopes := by
  obtain ⟨inner, outermost⟩ := table
  cases inner with
  | nil => cases exits
  | cons scope rest =>
      cases exits
      rfl

theorem scopes_insert {outer : List (Scope α)} (isCons : table.scopes = table.innermost :: outer)
    (name : String) (value : α) :
    (table.insert name value).scopes = table.innermost.insert name value :: outer := by
  obtain ⟨inner, outermost⟩ := table
  cases inner with
  | nil =>
      cases isCons
      rfl
  | cons scope rest =>
      cases isCons
      rfl

theorem replaced?_eq (table : ScopeTable α) (name : String) :
    table.replaced? name = table.bound? name 0 := by
  obtain ⟨outer, isCons⟩ := table.scopes_eq_cons
  rw [bound?, isCons]
  rfl

theorem bound?_insert (inward : Nat) : (table.insert name value).bound? other inward =
    if inward = 0 ∧ other = name then some value else table.bound? other inward := by
  obtain ⟨outer, isCons⟩ := table.scopes_eq_cons
  rw [bound?, bound?, scopes_insert isCons, isCons]
  cases inward with
  | zero => simp [Scope.find?_insert]
  | succ inward => simp

/-- The first accepted value that is found in a list is the one of the least index. -/
theorem find?_filterMap_eq_some_iff {β : Type} {find : β → Option α} {accepts : α → Bool}
    (scopes : List β) : (scopes.filterMap find).find? accepts = some value ↔
      ∃ inward : Nat, scopes[inward]?.bind find = some value ∧ accepts value = true ∧
        ∀ (level : Nat) (other : α), scopes[level]?.bind find = some other →
          accepts other = true → inward ≤ level := by
  induction scopes with
  | nil => simp
  | cons scope rest inductionHypothesis =>
      by_cases isFirst : ∃ found, find scope = some found ∧ accepts found = true
      · obtain ⟨found, isFound, isAccepted⟩ := isFirst
        rw [List.filterMap_cons_some isFound, List.find?_cons_of_pos isAccepted,
          Option.some.injEq]
        constructor
        · rintro rfl
          exact ⟨0, isFound, isAccepted, fun _ _ _ _ => Nat.zero_le _⟩
        · rintro ⟨inward, isBound, -, innermost⟩
          cases Nat.le_zero.mp (innermost 0 found isFound isAccepted)
          exact Option.some.inj (isFound.symm.trans isBound)
      · have inRest : ((scope :: rest).filterMap find).find? accepts =
            (rest.filterMap find).find? accepts := by
          cases isFound : find scope with
          | none => rw [List.filterMap_cons_none isFound]
          | some found =>
              rw [List.filterMap_cons_some isFound, List.find?_cons_of_neg]
              exact fun isAccepted => isFirst ⟨found, isFound, isAccepted⟩
        rw [inRest, inductionHypothesis]
        constructor
        · rintro ⟨inward, isBound, isAccepted, innermost⟩
          refine ⟨inward + 1, isBound, isAccepted, ?_⟩
          intro level other isOther accepted
          cases level with
          | zero => exact absurd ⟨other, isOther, accepted⟩ isFirst
          | succ level => exact Nat.succ_le_succ (innermost level other isOther accepted)
        · rintro ⟨inward, isBound, isAccepted, innermost⟩
          cases inward with
          | zero => exact absurd ⟨value, isBound, isAccepted⟩ isFirst
          | succ inward =>
              exact ⟨inward, isBound, isAccepted, fun level other isOther accepted =>
                Nat.le_of_succ_le_succ (innermost (level + 1) other isOther accepted)⟩

theorem lookupWhere?_eq_some_iff {accepts : α → Bool} :
    table.lookupWhere? name accepts = some value ↔
      ∃ inward, table.bound? name inward = some value ∧ accepts value = true ∧
        ∀ level other, table.bound? name level = some other → accepts other = true →
          inward ≤ level :=
  find?_filterMap_eq_some_iff table.scopes

end Bound

/-! ## Runs -/

structure Follows (table : ScopeTable α) (history : List (ScopeStep α)) : Prop where
  depth_eq : table.depth + exits history = 1 + enters history
  bound_iff : ∀ name inward value,
    table.bound? name inward = some value ↔ BoundAt history name inward value

theorem Follows.empty : (ScopeTable.empty : ScopeTable α).Follows [] where
  depth_eq := rfl
  bound_iff := by
    intro name inward value
    constructor
    · intro isBound
      cases inward with
      | zero => cases isBound
      | succ inward => cases isBound
    · rintro ⟨before, after, isSplit, -⟩
      simp at isSplit

section Step

variable {table next : ScopeTable α} {history : List (ScopeStep α)} {step : ScopeStep α}
  {answer : Option α}

theorem perform_exit_eq_ok (performed : table.perform .exit = .ok (answer, next)) :
    answer = none ∧ table.scopes = table.innermost :: next.scopes := by
  unfold perform at performed
  cases outcome : table.exit with
  | error error =>
      rw [outcome] at performed
      cases performed
  | ok outer =>
      rw [outcome] at performed
      cases performed
      exact ⟨rfl, scopes_exit outcome⟩

/-- What a table binds after a step is what the step makes or keeps. -/
theorem bound?_perform (performed : table.perform step = .ok (answer, next)) {name : String}
    {inward : Nat} {value : α} : next.bound? name inward = some value ↔
      (step = .insert name value ∧ inward = 0) ∨
      ∃ level, table.bound? name level = some value ∧ Keeps name level inward step := by
  cases step with
  | enter =>
      cases performed
      cases inward <;> simp [bound?, scopes_enter, Keeps]
  | exit =>
      obtain ⟨-, isCons⟩ := perform_exit_eq_ok performed
      simp [bound?, isCons, Keeps]
  | insert other bound =>
      cases performed
      rw [bound?_insert]
      by_cases isHere : inward = 0 ∧ name = other
      · obtain ⟨rfl, rfl⟩ := isHere
        simp [Keeps]
      · rw [if_neg isHere]
        constructor
        · intro isBound
          exact .inr ⟨inward, isBound, rfl, fun same isZero => isHere ⟨isZero, same.symm⟩⟩
        · rintro (⟨isInsert, isZero⟩ | ⟨level, isBound, rfl, -⟩)
          · cases isInsert
            exact absurd ⟨isZero, rfl⟩ isHere
          · exact isBound
  | lookup other =>
      cases performed
      simp [Keeps]
  | lookupWhere other accepts =>
      cases performed
      simp [Keeps]

theorem depth_eq_length (table : ScopeTable α) : table.depth = table.scopes.length := by
  simp [depth, scopes]

theorem depth_perform (performed : table.perform step = .ok (answer, next)) :
    next.depth + exits [step] = table.depth + enters [step] := by
  cases step with
  | exit =>
      obtain ⟨-, isCons⟩ := perform_exit_eq_ok performed
      simp [depth_eq_length, isCons, isEnter, isExit]
  | _ =>
      cases performed
      simp [isEnter, isExit]

/-- Only the outermost scope cannot be left. -/
theorem exists_perform (stays : exits [step] < table.depth) :
    ∃ answer next, table.perform step = .ok (answer, next) := by
  cases step with
  | exit =>
      obtain ⟨inner, outermost⟩ := table
      cases inner with
      | nil => simp [depth, isExit] at stays
      | cons scope rest => exact ⟨_, _, rfl⟩
  | _ => exact ⟨_, _, rfl⟩

theorem Follows.exits_lt_depth (follows : table.Follows history)
    (stays : StaysOpen (history ++ [step])) : exits [step] < table.depth := by
  have counts := stays.exits_le
  have countsBefore := stays.left.exits_le
  have isDepth := follows.depth_eq
  cases step <;> simp [isEnter, isExit] at counts ⊢ <;> omega

theorem Follows.perform (follows : table.Follows history)
    (performed : table.perform step = .ok (answer, next)) : next.Follows (history ++ [step]) where
  depth_eq := by
    have before := follows.depth_eq
    have after := depth_perform performed
    rw [exits_append, enters_append]
    omega
  bound_iff := by
    intro name inward value
    rw [bound?_perform performed, boundAt_concat]
    simp only [follows.bound_iff]

theorem Follows.lookupWhere?_iff (follows : table.Follows history) {name : String}
    {accepts : α → Bool} {value : α} : table.lookupWhere? name accepts = some value ↔
      InnermostAccepted history name accepts value := by
  rw [lookupWhere?_eq_some_iff]
  simp only [follows.bound_iff]
  rfl

/-- A table that follows its history answers as the history demands. -/
theorem Follows.demands (follows : table.Follows history)
    (performed : table.perform step = .ok (answer, next)) : step.Demands history answer := by
  cases step with
  | enter =>
      cases performed
      rfl
  | exit => exact (perform_exit_eq_ok performed).1
  | insert name bound =>
      cases performed
      intro value
      rw [replaced?_eq, follows.bound_iff]
  | lookup name =>
      cases performed
      intro value
      rw [lookup?, follows.lookupWhere?_iff, mostRecent_iff]
  | lookupWhere name accepts =>
      cases performed
      exact fun _ => follows.lookupWhere?_iff

end Step

section Run

variable {table : ScopeTable α} {history : List (ScopeStep α)}

theorem run_cons_eq_ok_iff {step : ScopeStep α} {rest : List (ScopeStep α)}
    {answers : List (Option α)} {last : ScopeTable α} :
    table.run (step :: rest) = .ok (answers, last) ↔ ∃ answer next others,
      table.perform step = .ok (answer, next) ∧ next.run rest = .ok (others, last) ∧
        answers = answer :: others := by
  rw [run]
  constructor
  · intro runs
    cases performed : table.perform step with
    | error error =>
        rw [performed] at runs
        cases runs
    | ok result =>
        rw [performed] at runs
        obtain ⟨answer, next⟩ := result
        dsimp only at runs
        cases outcome : next.run rest with
        | error error =>
            rw [outcome] at runs
            cases runs
        | ok result =>
            rw [outcome] at runs
            cases runs
            exact ⟨answer, next, result.1, rfl, outcome, rfl⟩
  · rintro ⟨answer, next, others, performed, runs, rfl⟩
    rw [performed]
    dsimp only
    rw [runs]
    rfl

/-- A run that never leaves the outermost scope succeeds, and every step of it is answered as
the history before it demands. -/
theorem Follows.run (follows : table.Follows history) (steps : List (ScopeStep α))
    (stays : StaysOpen (history ++ steps)) : ∃ answers last,
      table.run steps = .ok (answers, last) ∧ last.Follows (history ++ steps) ∧
      answers.length = steps.length ∧
      ∀ before step after, steps = before ++ step :: after →
        ∃ answer, answers[before.length]? = some answer ∧
          step.Demands (history ++ before) answer := by
  induction steps generalizing table history with
  | nil => exact ⟨[], table, rfl, by simpa using follows, rfl, by simp⟩
  | cons step rest inductionHypothesis =>
      have isAppend : history ++ step :: rest = (history ++ [step]) ++ rest := by simp
      rw [isAppend] at stays
      obtain ⟨answer, next, performed⟩ := exists_perform (follows.exits_lt_depth stays.left)
      obtain ⟨answers, last, runs, followsLast, sameLength, demands⟩ :=
        inductionHypothesis (follows.perform performed) stays
      refine ⟨answer :: answers, last, ?_, isAppend ▸ followsLast, congrArg _ sameLength, ?_⟩
      · exact run_cons_eq_ok_iff.mpr ⟨answer, next, answers, performed, runs, rfl⟩
      · intro before found after isSplit
        cases before with
        | nil =>
            cases isSplit
            exact ⟨answer, rfl, by simpa using follows.demands performed⟩
        | cons first others =>
            cases isSplit
            obtain ⟨given, isGiven, demanded⟩ := demands others found after rfl
            exact ⟨given, isGiven, by simpa using demanded⟩

theorem run_append {first second : List (ScopeStep α)} {answers more : List (Option α)}
    {middle last : ScopeTable α} (runs : table.run first = .ok (answers, middle))
    (runsMore : middle.run second = .ok (more, last)) :
    table.run (first ++ second) = .ok (answers ++ more, last) := by
  induction first generalizing table answers with
  | nil =>
      cases runs
      exact runsMore
  | cons step rest inductionHypothesis =>
      obtain ⟨answer, next, others, performed, runsRest, rfl⟩ := run_cons_eq_ok_iff.mp runs
      exact run_cons_eq_ok_iff.mpr
        ⟨answer, next, others ++ more, performed, inductionHypothesis runsRest, rfl⟩

/-! ## Scopes that are left again -/

theorem eq_of_scopes_eq {other : ScopeTable α} (same : table.scopes = other.scopes) :
    table = other := by
  obtain ⟨inner, outermost⟩ := table
  obtain ⟨otherInner, otherOutermost⟩ := other
  obtain ⟨rfl, sameOutermost⟩ := List.append_inj' same rfl
  cases sameOutermost
  rfl

/-- A step changes nothing outside the innermost scope of those that it keeps. -/
theorem drop_perform {step : ScopeStep α} {answer : Option α} {next : ScopeTable α}
    {count inward : Nat} (performed : table.perform step = .ok (answer, next))
    (isInward : inward + exits [step] = count + enters [step]) :
    next.scopes.drop (inward + 1) = table.scopes.drop (count + 1) := by
  cases step with
  | enter =>
      cases performed
      simp [isEnter, isExit] at isInward
      simp [isInward, scopes_enter]
  | exit =>
      obtain ⟨-, isCons⟩ := perform_exit_eq_ok performed
      simp [isEnter, isExit] at isInward
      simp [← isInward, isCons]
  | insert name value =>
      cases performed
      simp [isEnter, isExit] at isInward
      obtain ⟨outer, isCons⟩ := table.scopes_eq_cons
      simp [isInward, scopes_insert isCons, isCons]
  | _ =>
      cases performed
      simp [isEnter, isExit] at isInward
      rw [isInward]

/-- Steps that keep a scope open change nothing outside of it. -/
theorem run_drop (steps : List (ScopeStep α)) : ∀ {table : ScopeTable α} {count inward : Nat},
    count + 1 < table.depth →
    (∀ first, first <+: steps → exits first ≤ enters first + count) →
    inward + exits steps = count + enters steps →
    ∃ answers last, table.run steps = .ok (answers, last) ∧
      last.scopes.drop (inward + 1) = table.scopes.drop (count + 1) := by
  induction steps with
  | nil =>
      intro table count inward isInside counts isInward
      simp at isInward
      exact ⟨[], table, rfl, by rw [isInward]⟩
  | cons step rest inductionHypothesis =>
      intro table count inward isInside counts isInward
      have isCons : step :: rest = [step] ++ rest := rfl
      have countsStep := counts [step] (List.prefix_append [step] rest)
      have atMostOne : exits [step] ≤ 1 := by
        cases step <;> simp [isExit]
      have notOutermost : exits [step] < table.depth := by omega
      obtain ⟨answer, next, performed⟩ := exists_perform notOutermost
      obtain ⟨middle, isMiddle⟩ := Nat.exists_eq_add_of_le' countsStep
      have isNext : middle + exits [step] = count + enters [step] := by omega
      have isInsideNext : middle + 1 < next.depth := by
        have depths := depth_perform performed
        omega
      have countsNext : ∀ first, first <+: rest → exits first ≤ enters first + middle := by
        intro first isPrefix
        have countsFirst := counts ([step] ++ first)
          ((List.prefix_append_right_inj [step]).mpr isPrefix)
        rw [exits_append, enters_append] at countsFirst
        omega
      have isInwardNext : inward + exits rest = middle + enters rest := by
        rw [isCons, exits_append, enters_append] at isInward
        omega
      obtain ⟨others, last, runs, same⟩ := inductionHypothesis isInsideNext countsNext isInwardNext
      refine ⟨_, last, run_cons_eq_ok_iff.mpr ⟨answer, next, others, performed, runs, rfl⟩, ?_⟩
      rw [same, drop_perform performed isNext]

/-- A scope that is opened and left again leaves the table as it was. -/
theorem run_balanced (table : ScopeTable α) {steps : List (ScopeStep α)}
    (balanced : Balanced steps) :
    ∃ answers, table.run (.enter :: steps ++ [.exit]) = .ok (answers, table) := by
  have isPositive : 0 < table.depth := Nat.succ_pos _
  have isInside : 0 + 1 < table.enter.depth := by
    rw [depth_enter]
    omega
  obtain ⟨answers, inside, runs, same⟩ := run_drop steps isInside balanced.staysOpen
    (by rw [balanced.exits_eq] : 0 + exits steps = 0 + enters steps)
  -- The scope that was opened is the innermost one again, and all others are as they were.
  have notOutermost : exits [(.exit : ScopeStep α)] < inside.depth := by
    have sameLength := congrArg List.length same
    rw [List.length_drop, List.length_drop, ← depth_eq_length, ← depth_eq_length] at sameLength
    simp only [exits_cons, exits_nil, isExit, if_true]
    omega
  obtain ⟨answer, last, performed⟩ := exists_perform notOutermost
  obtain ⟨-, isCons⟩ := perform_exit_eq_ok performed
  have isTable : last = table := by
    apply eq_of_scopes_eq
    rw [isCons] at same
    exact same
  subst isTable
  have entered : last.run (.enter :: steps) = .ok (none :: answers, inside) :=
    run_cons_eq_ok_iff.mpr ⟨none, last.enter, answers, rfl, runs, rfl⟩
  have left : inside.run [.exit] = .ok ([answer], last) :=
    run_cons_eq_ok_iff.mpr ⟨answer, last, [], performed, rfl, rfl⟩
  exact ⟨_, run_append entered left⟩

end Run

end ScopeTable

/-! ## Lexical scoping -/

namespace ScopeStep

variable {α : Type}

theorem staysOpen_iff_take {steps : List (ScopeStep α)} : StaysOpen steps ↔
    ∀ count < steps.length + 1, exits (steps.take count) ≤ enters (steps.take count) := by
  constructor
  · intro stays count _
    exact stays _ (List.take_prefix count steps)
  · intro counts first isPrefix
    rw [List.prefix_iff_eq_take.mp isPrefix]
    exact counts _ (Nat.lt_succ_of_le isPrefix.length_le)

instance (steps : List (ScopeStep α)) : Decidable (StaysOpen steps) :=
  decidable_of_iff _ staysOpen_iff_take.symm

end ScopeStep

/-- A run of a new table that never leaves the outermost scope gives every answer that lexical
scoping demands, and ends with one scope more than it opened and did not leave.  Whatever is
asked between the opening of a scope and its end, the table is the same before and after. -/
theorem scope_runs_are_lexical {α : Type} (steps : List (ScopeStep α))
    (stays : ScopeStep.StaysOpen steps) :
    ∃ answers table, ScopeTable.empty.run steps = .ok (answers, table) ∧
      answers.length = steps.length ∧
      (∀ before step after, steps = before ++ step :: after →
        ∃ answer, answers[before.length]? = some answer ∧ step.Demands before answer) ∧
      table.depth + ScopeStep.exits steps = 1 + ScopeStep.enters steps ∧
      ∀ inner, ScopeStep.Balanced inner →
        ∃ others, table.run (.enter :: inner ++ [.exit]) = .ok (others, table) := by
  obtain ⟨answers, table, runs, follows, sameLength, demands⟩ :=
    ScopeTable.Follows.empty.run steps stays
  exact ⟨answers, table, runs, sameLength, demands, follows.depth_eq,
    fun _ => table.run_balanced⟩

def shadowingSteps : List (ScopeStep Int) :=
  [.insert "x" 1, .enter, .insert "x" 2, .insert "x" (-3), .lookup "x",
    .lookupWhere "x" fun value => 0 < value, .exit, .insert "x" 4, .lookup "x"]

/-- The look-up that asks for a positive value passes over the inner scope, where the name was
bound to one before. -/
theorem scope_runs_are_lexical_shadowing : ScopeStep.StaysOpen shadowingSteps ∧
    ∃ answers table, ScopeTable.empty.run shadowingSteps = .ok (answers, table) ∧
      answers = [none, none, none, some 2, some (-3), some 1, none, some 1, some 4] ∧
      table.depth + ScopeStep.exits shadowingSteps = 1 + ScopeStep.enters shadowingSteps := by
  have stays : ScopeStep.StaysOpen shadowingSteps := by decide
  obtain ⟨answers, table, runs, -, -, isDepth, -⟩ := scope_runs_are_lexical shadowingSteps stays
  refine ⟨stays, answers, table, runs, ?_, isDepth⟩
  cases runs
  decide

end ScalarLang
