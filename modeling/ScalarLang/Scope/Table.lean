/-!
# Nested scopes

A table of bindings in nested scopes.  A name means its binding in the innermost
scope that has one; a name bound again in its own scope replaces the earlier
binding, and leaving a scope forgets the bindings made in it.  The outermost scope
is never left.
-/

set_option autoImplicit false

namespace ScalarLang

/-- The bindings of one scope, the latest first and one for each name. -/
abbrev Scope (α : Type) := List (String × α)

namespace Scope

variable {α : Type}

def find? (scope : Scope α) (name : String) : Option α :=
  match scope with
  | [] => none
  | (other, value) :: rest => if other = name then some value else find? rest name

def insert (scope : Scope α) (name : String) (value : α) : Scope α :=
  (name, value) :: scope.filter fun binding => binding.1 != name

@[simp]
theorem find?_nil (name : String) : find? ([] : Scope α) name = none := rfl

theorem find?_filter_ne (scope : Scope α) {name other : String} (different : other ≠ name) :
    find? (scope.filter fun binding => binding.1 != name) other = scope.find? other := by
  induction scope with
  | nil => rfl
  | cons binding rest inductionHypothesis =>
      obtain ⟨bound, value⟩ := binding
      by_cases same : bound = name
      · subst same
        have absent : ¬ bound = other := fun equal => different equal.symm
        simp [find?, absent, inductionHypothesis]
      · simp [find?, same, inductionHypothesis]

theorem find?_insert (scope : Scope α) (name other : String) (value : α) :
    (scope.insert name value).find? other =
      if other = name then some value else scope.find? other := by
  by_cases same : other = name
  · simp [insert, find?, same]
  · have different : ¬ name = other := fun equal => same equal.symm
    simp [insert, find?, same, different, find?_filter_ne scope same]

end Scope

inductive ScopeError where
  /-- The outermost scope is never left. -/
  | outermost
deriving DecidableEq, Repr

def ScopeError.message : ScopeError → String
  | .outermost => "cannot exit the outermost scope"

/-- The open scopes: those inside the outermost one, innermost first, and the
outermost one. -/
structure ScopeTable (α : Type) where
  inner : List (Scope α)
  outermost : Scope α
deriving Repr

namespace ScopeTable

variable {α : Type}

def empty : ScopeTable α := ⟨[], []⟩

def scopes (table : ScopeTable α) : List (Scope α) := table.inner ++ [table.outermost]

def depth (table : ScopeTable α) : Nat := table.inner.length + 1

def enter (table : ScopeTable α) : ScopeTable α := { table with inner := [] :: table.inner }

def exit (table : ScopeTable α) : Except ScopeError (ScopeTable α) :=
  match table.inner with
  | [] => .error .outermost
  | _ :: rest => .ok { table with inner := rest }

def innermost (table : ScopeTable α) : Scope α :=
  match table.inner with
  | [] => table.outermost
  | scope :: _ => scope

def insert (table : ScopeTable α) (name : String) (value : α) : ScopeTable α :=
  match table.inner with
  | [] => { table with outermost := table.outermost.insert name value }
  | scope :: rest => { table with inner := scope.insert name value :: rest }

def replaced? (table : ScopeTable α) (name : String) : Option α :=
  table.innermost.find? name

def lookupWhere? (table : ScopeTable α) (name : String) (accepts : α → Bool) : Option α :=
  (table.scopes.filterMap fun scope => scope.find? name).find? accepts

def lookup? (table : ScopeTable α) (name : String) : Option α :=
  table.lookupWhere? name fun _ => true

@[simp]
theorem depth_enter (table : ScopeTable α) : table.enter.depth = table.depth + 1 := rfl

@[simp]
theorem exit_enter (table : ScopeTable α) : table.enter.exit = .ok table := rfl

@[simp]
theorem depth_insert (table : ScopeTable α) (name : String) (value : α) :
    (table.insert name value).depth = table.depth := by
  unfold insert depth
  split <;> simp_all

end ScopeTable

end ScalarLang
