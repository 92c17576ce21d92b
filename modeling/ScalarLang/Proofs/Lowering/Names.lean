import ScalarLang.Proofs.Lowering.Register

/-!
# Names in the body of a function

In the body of a function a name is its last parameter of that name, and a call means
the known function that has the name and the labels of the call.
-/

set_option autoImplicit false

namespace ScalarLang

/-! ## Look-up of the last entry -/

section Lookup

variable {α β : Type} {Related : α → β → Prop}

theorem lookup_related {left : List (String × α)} {right : List (String × β)}
    (related : List.Forall₂ (fun first second => first.1 = second.1 ∧ Related first.2 second.2)
      left right) (name : String) :
    Option.Rel Related (left.lookup name) (right.lookup name) := by
  induction related with
  | nil => exact .none
  | @cons first second others rest same _ inductionHypothesis =>
      obtain ⟨bound, value⟩ := first
      obtain ⟨other, result⟩ := second
      obtain ⟨rfl, related⟩ : bound = other ∧ Related value result := same
      by_cases isName : name = bound
      · subst isName
        simp only [List.lookup_cons_self]
        exact .some related
      · have different : (name == bound) = false := by simpa using isName
        simpa [List.lookup_cons, different] using inductionHypothesis

theorem lookup_reverse_related {left : List (String × α)} {right : List (String × β)}
    (related : List.Forall₂ (fun first second => first.1 = second.1 ∧ Related first.2 second.2)
      left right) (name : String) :
    Option.Rel Related (left.reverse.lookup name) (right.reverse.lookup name) :=
  lookup_related (List.forall₂_reverse_iff.mpr related) name

theorem exists_of_rel_some {value : α} {other : Option β}
    (related : Option.Rel Related (some value) other) :
    ∃ found, other = some found ∧ Related value found := by
  cases related with
  | some holds => exact ⟨_, rfl, holds⟩

theorem exists_of_rel_some_right {value : β} {other : Option α}
    (related : Option.Rel Related other (some value)) :
    ∃ found, other = some found ∧ Related found value := by
  cases related with
  | some holds => exact ⟨_, rfl, holds⟩

end Lookup

/-! ## Parameters -/

def parameterSlots : List (Parameter × ScalarType) → Nat → List (String × Nat × Ir.Ty)
  | [], _ => []
  | (parameter, type) :: rest, slot =>
    (parameter.name.name, slot, type.lowered) :: parameterSlots rest (slot + 1)

/-- The slots of parameters belong to a list of one entry for each of them. -/
theorem parameterSlots_related {β : Type} {Related : Nat × Ir.Ty → β → Prop}
    {parameters : List Parameter} {types : List ScalarType} {entries : List β} {offset : Nat}
    (sameLength : parameters.length = types.length) (oneEach : types.length = entries.length)
    (related : ∀ index type entry, types[index]? = some type → entries[index]? = some entry →
      Related (offset + index, type.lowered) entry) :
    List.Forall₂ (fun first second => first.1 = second.1 ∧ Related first.2 second.2)
      (parameterSlots (parameters.zip types) offset)
      ((parameters.map fun parameter => parameter.name.name).zip entries) := by
  induction parameters generalizing types entries offset with
  | nil => exact .nil
  | cons parameter others inductionHypothesis =>
      cases types with
      | nil => simp at sameLength
      | cons type types =>
          cases entries with
          | nil => simp at oneEach
          | cons entry entries =>
              refine .cons ⟨rfl, related 0 type entry rfl rfl⟩ ?_
              refine inductionHypothesis (by simpa using sameLength) (by simpa using oneEach) ?_
              intro index next other isNext isOther
              have ofNext := related (index + 1) next other isNext isOther
              rwa [show offset + (index + 1) = offset + 1 + index by omega] at ofNext

def Binding.ofSlot (slot : Nat × Ir.Ty) : Binding := .parameter slot.1 slot.2

theorem bindParameters_inner (parameters : List (Parameter × ScalarType)) :
    ∀ slot inner rest outermost, ∃ bound : Scope Binding,
      bindParameters parameters slot ⟨inner :: rest, outermost⟩ = ⟨bound :: rest, outermost⟩ ∧
      ∀ name, bound.find? name =
        (((parameterSlots parameters slot).reverse.lookup name).map Binding.ofSlot).or
          (inner.find? name) := by
  induction parameters with
  | nil =>
      intro slot inner rest outermost
      exact ⟨inner, rfl, fun name => by simp [parameterSlots]⟩
  | cons first others inductionHypothesis =>
      intro slot inner rest outermost
      obtain ⟨parameter, type⟩ := first
      obtain ⟨bound, binds, found⟩ := inductionHypothesis (slot + 1)
        (inner.insert parameter.name.name (.parameter slot type.lowered)) rest outermost
      refine ⟨bound, binds, ?_⟩
      intro name
      rw [found, Scope.find?_insert, parameterSlots, List.reverse_cons, List.lookup_append,
        Option.map_or, Option.or_assoc]
      by_cases same : name = parameter.name.name
      · subst same
        simp [Binding.ofSlot]
      · have different : (name == parameter.name.name) = false := by simpa using same
        simp [List.lookup_cons, same, different]

namespace Registered

variable {lowering : Lowering} {before : List Callable}

theorem outermost_isFunction (registered : Registered lowering before) {name : String}
    {binding : Binding} (found : lowering.scopes.outermost.find? name = some binding) :
    binding.isFunction = true := by
  obtain ⟨index, callable, -, -, rfl⟩ := (registered.bindings name binding).mp found
  rfl

/-- The parameters of a function are found before the functions that are known. -/
theorem lookupWhere?_body (registered : Registered lowering before)
    (parameters : List (Parameter × ScalarType)) (name : String) (accepts : Binding → Bool) :
    (bindParameters parameters 0 lowering.scopes.enter).lookupWhere? name accepts =
      ((((parameterSlots parameters 0).reverse.lookup name).map Binding.ofSlot).toList ++
        (lowering.scopes.outermost.find? name).toList).find? accepts := by
  obtain ⟨bound, binds, found⟩ := bindParameters_inner parameters 0 [] lowering.scopes.inner
    lowering.scopes.outermost
  have ofBound : bound.find? name =
      ((parameterSlots parameters 0).reverse.lookup name).map Binding.ofSlot := by
    rw [found, Scope.find?_nil, Option.or_none]
  change (bindParameters parameters 0 ⟨[] :: lowering.scopes.inner, _⟩).lookupWhere? name _ = _
  rw [binds, registered.noInner, ← ofBound]
  unfold ScopeTable.lookupWhere? ScopeTable.scopes
  simp only [List.cons_append, List.nil_append, List.filterMap_cons, List.filterMap_nil]
  cases bound.find? name <;> cases lowering.scopes.outermost.find? name <;> rfl

/-- In the body of a function a name means the last parameter of that name. -/
theorem lookup?_parameter (registered : Registered lowering before)
    {parameters : List (Parameter × ScalarType)} {name : String} {slot : Nat} {type : Ir.Ty} :
    (bindParameters parameters 0 lowering.scopes.enter).lookup? name =
        some (.parameter slot type) ↔
      (parameterSlots parameters 0).reverse.lookup name = some (slot, type) := by
  unfold ScopeTable.lookup?
  rw [registered.lookupWhere?_body]
  cases (parameterSlots parameters 0).reverse.lookup name with
  | some pair =>
      obtain ⟨foundSlot, foundType⟩ := pair
      simp [Binding.ofSlot]
  | none =>
      cases outer : lowering.scopes.outermost.find? name with
      | none => simp
      | some binding =>
          have isFunction := registered.outermost_isFunction outer
          cases binding with
          | parameter foundSlot foundType => cases isFunction
          | function declaration number signature => simp

theorem lookupWhere?_function (registered : Registered lowering before)
    (parameters : List (Parameter × ScalarType)) {name : String} {binding : Binding} :
    (bindParameters parameters 0 lowering.scopes.enter).lookupWhere? name Binding.isFunction =
        some binding ↔
      ∃ index callable, (Callable.print lowering.target :: before)[index]? = some callable ∧
        callable.name = name ∧
          binding = .function callable.declaration (index + 1) callable.signature := by
  have noParameter : (((parameterSlots parameters 0).reverse.lookup name).map
      Binding.ofSlot).toList.find? Binding.isFunction = none := by
    cases (parameterSlots parameters 0).reverse.lookup name <;> rfl
  rw [← registered.bindings, registered.lookupWhere?_body, List.find?_append, noParameter,
    Option.none_or]
  cases outer : lowering.scopes.outermost.find? name with
  | none => simp
  | some found => simp [registered.outermost_isFunction outer]

end Registered

/-! ## Calls -/

theorem find?_label_ne_eq_none_iff {parameters : List Parameter} {arguments : List CallArgument}
    (sameLength : parameters.length = arguments.length) :
    (parameters.zip arguments).find? (fun pair => pair.1.name.name != pair.2.label.name) = none ↔
      parameters.map (fun parameter => parameter.name.name) =
        arguments.map fun argument => argument.label.name := by
  induction parameters generalizing arguments with
  | nil =>
      cases arguments with
      | nil => simp
      | cons first rest => simp at sameLength
  | cons parameter others inductionHypothesis =>
      cases arguments with
      | nil => simp at sameLength
      | cons first rest =>
          have forRest := inductionHypothesis (by simpa using sameLength)
          by_cases same : parameter.name.name = first.label.name
          · simpa [same] using forRest
          · simp [same]

theorem checkLabels_eq_ok_iff {function : FunctionDecl} {name : Ident}
    {arguments : List CallArgument} :
    checkLabels function name arguments = .ok () ↔
      function.labels = CallArgument.labels arguments := by
  unfold checkLabels FunctionDecl.labels CallArgument.labels
  by_cases sameLength : function.parameters.length = arguments.length
  · rw [if_pos sameLength, ← find?_label_ne_eq_none_iff sameLength]
    cases (function.parameters.zip arguments).find?
        (fun pair => pair.1.name.name != pair.2.label.name) with
    | none => simp
    | some pair => simp
  · rw [if_neg sameLength]
    simp only [reduceCtorEq, false_iff]
    intro same
    exact sameLength (by simpa using congrArg List.length same)

theorem lowLevelName_eq_of_labels {function : FunctionDecl} {name : Ident}
    {arguments : List CallArgument}
    (sameLabels : function.labels = CallArgument.labels arguments) :
    function.lowLevelName = CallArgument.lowLevelName name arguments ↔
      function.name.name = name.name := by
  unfold FunctionDecl.lowLevelName CallArgument.lowLevelName mangle
  rw [sameLabels, String.append_left_inj, String.append_left_inj]

theorem lowLevelName_eq {function other : FunctionDecl}
    (sameName : function.name.name = other.name.name) (sameLabels : function.labels = other.labels) :
    function.lowLevelName = other.lowLevelName := by
  rw [FunctionDecl.lowLevelName, FunctionDecl.lowLevelName, sameName, sameLabels]

theorem Registered.index_eq {lowering : Lowering} {before : List Callable}
    (registered : Registered lowering before) {first second : Nat} {callable found : Callable}
    (isFirst : (Callable.print lowering.target :: before)[first]? = some callable)
    (isSecond : (Callable.print lowering.target :: before)[second]? = some found)
    (sameName : callable.name = found.name) : first = second := by
  have inside : first < ((Callable.print lowering.target :: before).map Callable.name).length := by
    rw [List.length_map]
    exact (List.getElem?_eq_some_iff.mp isFirst).1
  refine (List.getElem?_inj inside registered.distinct).mp ?_
  rw [List.getElem?_map, List.getElem?_map, isFirst, isSecond, Option.map_some, Option.map_some,
    sameName]

/-- A call means the known function that has its name and its labels. -/
theorem Registered.resolveCall_eq_ok_iff {lowering : Lowering} {before : List Callable}
    (registered : Registered lowering before) {parameters : List (Parameter × ScalarType)}
    {name : Ident} {arguments : List CallArgument} {span : Span} {number : Nat}
    {signature : Ir.Signature} :
    resolveCall (bindParameters parameters 0 lowering.scopes.enter) name arguments span =
        .ok (number, signature) ↔
      ∃ index callable, (Callable.print lowering.target :: before)[index]? = some callable ∧
        callable.declaration.name.name = name.name ∧
        callable.declaration.labels = CallArgument.labels arguments ∧
        number = index + 1 ∧ signature = callable.signature := by
  constructor
  · intro resolved
    simp only [resolveCall] at resolved
    split at resolved
    · rename_i declaration number' signature' found
      obtain ⟨index, callable, stands, sameName, same⟩ :=
        (registered.lookupWhere?_function parameters).mp found
      cases same
      split at resolved
      · rename_i checked
        cases resolved
        have sameLabels := checkLabels_eq_ok_iff.mp checked
        exact ⟨index, callable, stands, (lowLevelName_eq_of_labels sameLabels).mp sameName,
          sameLabels, rfl, rfl⟩
      · cases resolved
    · cases resolved
  · rintro ⟨index, callable, stands, sameName, sameLabels, rfl, rfl⟩
    have found := (registered.lookupWhere?_function parameters).mpr
      ⟨index, callable, stands, (lowLevelName_eq_of_labels sameLabels).mpr sameName, rfl⟩
    simp only [resolveCall, found, checkLabels_eq_ok_iff.mpr sameLabels]

end ScalarLang
