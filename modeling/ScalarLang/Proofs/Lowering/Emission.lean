import ScalarLang.Lowering.Expression
import ScalarLang.Proofs.Tree

/-!
# What lowering emits

Lowering an expression puts instructions at the end of a function and numbers their
results from the first free number on.  `Emits` says which instructions these are,
with one rule for each form of expression, and is equivalent to a successful
lowering.  Properties of emitted code are proved by induction over its rules.
-/

set_option autoImplicit false

namespace ScalarLang

namespace Build

variable {α β : Type}

theorem bind_eq_ok_iff {action : Build α} {next : α → Build β} {code after : Ir.Function}
    {value : β} :
    (action >>= next) code = .ok (value, after) ↔
      ∃ first middle, action code = .ok (first, middle) ∧
        next first middle = .ok (value, after) := by
  change (action code >>= fun pair => next pair.1 pair.2) = _ ↔ _
  cases action code with
  | error failure => simp [bind, Except.bind]
  | ok pair =>
      constructor
      · intro success
        exact ⟨pair.1, pair.2, rfl, success⟩
      · rintro ⟨first, middle, same, success⟩
        cases same
        exact success

@[simp]
theorem pure_eq_ok_iff {code after : Ir.Function} {value result : α} :
    (pure value : Build α) code = .ok (result, after) ↔ value = result ∧ code = after := by
  change Except.ok (value, code) = _ ↔ _
  simp

@[simp]
theorem throw_ne_ok {code after : Ir.Function} {error : LoweringError} {result : α} :
    ¬ (throw error : Build α) code = .ok (result, after) := by
  change ¬ (Except.error error : Except LoweringError _) = _
  simp

theorem value_eq_ok_iff {span : Span} {lowered : Build (Option Operand)}
    {code after : Ir.Function} {operand : Operand} :
    value span lowered code = .ok (operand, after) ↔
      lowered code = .ok (some operand, after) := by
  unfold value
  rw [bind_eq_ok_iff]
  constructor
  · rintro ⟨operand?, middle, first, second⟩
    cases operand? with
    | none => simp at second
    | some found =>
        obtain ⟨rfl, rfl⟩ := pure_eq_ok_iff.mp second
        exact first
  · intro success
    exact ⟨some operand, after, success, rfl⟩

theorem liftM_eq_ok_iff {outcome : Except LoweringError α} {code after : Ir.Function}
    {value : α} :
    (liftM outcome : Build α) code = .ok (value, after) ↔ outcome = .ok value ∧ code = after := by
  cases outcome with
  | error failure =>
      change (Except.error failure : Except LoweringError _) = _ ↔ _
      simp
  | ok found =>
      change Except.ok (found, code) = _ ↔ _
      simp

end Build

namespace Ir.Function

/-! ## Growth of functions -/

/-- A function begins another: what it lists is the start of what the other lists.
Stack slots are made before everything else and stay as they are. -/
structure Begins (before after : Function) : Prop where
  name : after.name = before.name
  signature : after.signature = before.signature
  slots : after.slots = before.slots
  values : before.values.toList <+: after.values.toList
  signatures : before.signatures.toList <+: after.signatures.toList
  callees : before.callees.toList <+: after.callees.toList

theorem Begins.refl (code : Function) : Begins code code :=
  ⟨rfl, rfl, rfl, List.prefix_rfl, List.prefix_rfl, List.prefix_rfl⟩

theorem Begins.trans {first second third : Function} (left : Begins first second)
    (right : Begins second third) : Begins first third :=
  ⟨right.name.trans left.name, right.signature.trans left.signature, right.slots.trans left.slots,
    left.values.trans right.values, left.signatures.trans right.signatures,
    left.callees.trans right.callees⟩

theorem getElem?_of_prefix {α : Type} {before after : Array α} {index : Nat} {value : α}
    (begins : before.toList <+: after.toList) (found : before[index]? = some value) :
    after[index]? = some value := by
  obtain ⟨rest, same⟩ := begins
  rw [← Array.getElem?_toList] at found ⊢
  rw [← same, List.getElem?_append_left (List.getElem?_eq_some_iff.mp found).1]
  exact found

theorem Begins.typeOf? {before after : Function} {value : Value} {type : Ty}
    (begins : Begins before after) (typed : before.typeOf? value = some type) :
    after.typeOf? value = some type :=
  getElem?_of_prefix begins.values typed

theorem Begins.values_size_le {before after : Function} (begins : Begins before after) :
    before.values.size ≤ after.values.size := by
  simpa using begins.values.length_le

theorem begins_define (code : Function) (type : Ty) (op : Op) :
    Begins code (code.define type op).2 :=
  ⟨rfl, rfl, rfl, by simp [define], List.prefix_rfl, List.prefix_rfl⟩

theorem begins_emit (code : Function) (op : Op) : Begins code (code.emit op) :=
  ⟨rfl, rfl, rfl, List.prefix_rfl, List.prefix_rfl, List.prefix_rfl⟩

theorem begins_addCallee (code : Function) (number : Nat) (colocated : Bool)
    (signature : Signature) : Begins code (code.addCallee number colocated signature).2 :=
  ⟨rfl, rfl, rfl, List.prefix_rfl, by simp [addCallee], by simp [addCallee]⟩

section AddCall

variable (code : Function) (number : Nat) (colocated : Bool) (signature : Signature)
  (arguments : List Value)

theorem addCall_result : (code.addCall number colocated signature arguments).1 =
    signature.results.head?.map fun type => (code.values.size, type) := by
  unfold addCall
  cases signature.results with
  | nil => rfl
  | cons type others => rfl

theorem begins_addCall : Begins code (code.addCall number colocated signature arguments).2 := by
  have callee := begins_addCallee code number colocated signature
  unfold addCall
  cases signature.results with
  | nil => exact callee.trans (begins_emit _ _)
  | cons type others => exact callee.trans (begins_define _ _ _)

theorem addCall_values :
    (code.addCall number colocated signature arguments).2.values.toList =
      code.values.toList ++ signature.results.head?.toList := by
  unfold addCall
  cases signature.results with
  | nil => simp [addCallee, emit]
  | cons type others => simp [addCallee, define]

theorem addCall_body :
    (code.addCall number colocated signature arguments).2.body.toList =
      code.body.toList ++ [⟨signature.results.head?.map fun _ => code.values.size,
        .call code.callees.size arguments⟩] := by
  unfold addCall
  cases signature.results with
  | nil => simp [addCallee, emit]
  | cons type others => simp [addCallee, define]

theorem addCall_callees :
    (code.addCall number colocated signature arguments).2.callees.toList =
      code.callees.toList ++ [⟨number, colocated, code.signatures.size⟩] := by
  unfold addCall
  cases signature.results with
  | nil => simp [addCallee, emit]
  | cons type others => simp [addCallee, define]

theorem addCall_signatures :
    (code.addCall number colocated signature arguments).2.signatures.toList =
      code.signatures.toList ++ [signature] := by
  unfold addCall
  cases signature.results with
  | nil => simp [addCallee, emit]
  | cons type others => simp [addCallee, define]

end AddCall

end Ir.Function

/-! ## The emitted instructions -/

inductive Part where
  | expression (expr : Expr) (operand : Option Operand)
  | arguments (arguments : List CallArgument) (operands : List Operand)
  | statements (statements : List Expr)

inductive Emits (scopes : ScopeTable Binding) :
    Ir.Function → Part → List Ir.Inst → Ir.Function → Prop where
  | literal (code : Ir.Function) (value : Literal) (span : Span) :
      Emits scopes code
        (.expression (.literal value span) (some ⟨code.values.size, value.lowered.2⟩))
        [⟨some code.values.size, value.lowered.1⟩]
        (code.define value.lowered.2 value.lowered.1).2
  | identifier (code : Ir.Function) (name : String) (span : Span) (slot : Nat) (type : Ir.Ty)
      (bound : scopes.lookup? name = some (.parameter slot type)) :
      Emits scopes code (.expression (.identifier name span) (some ⟨code.values.size, type⟩))
        [⟨some code.values.size, .stackLoad type slot⟩]
        (code.define type (.stackLoad type slot)).2
  | unary {code middle : Ir.Function} {op : UnaryOp} {expr : Expr} {operand : Operand}
      {insts : List Ir.Inst} {selected : Ir.Op} (span : Span)
      (ofOperand : Emits scopes code (.expression expr (some operand)) insts middle)
      (selects : op.select? operand.type operand.value = some selected) :
      Emits scopes code
        (.expression (.unary op expr span) (some ⟨middle.values.size, operand.type⟩))
        (insts ++ [⟨some middle.values.size, selected⟩])
        (middle.define operand.type selected).2
  | binary {code middle last : Ir.Function} {op : BinaryOp} {lhs rhs : Expr}
      {left right : Operand} {leftInsts rightInsts : List Ir.Inst} {selected : Ir.Op}
      {type : Ir.Ty} (span : Span)
      (ofLeft : Emits scopes code (.expression lhs (some left)) leftInsts middle)
      (ofRight : Emits scopes middle (.expression rhs (some right)) rightInsts last)
      (sameType : left.type = right.type)
      (selects : op.select? left.type left.value right.value = some (selected, type)) :
      Emits scopes code (.expression (.binary op lhs rhs span) (some ⟨last.values.size, type⟩))
        (leftInsts ++ rightInsts ++ [⟨some last.values.size, selected⟩])
        (last.define type selected).2
  | call {code middle last : Ir.Function} {name : Ident} {arguments : List CallArgument}
      {children : Option (List Expr)} {operands : List Operand}
      {argumentInsts childInsts : List Ir.Inst} {number : Nat} {signature : Ir.Signature}
      (span : Span)
      (resolved : resolveCall scopes name arguments span = .ok (number, signature))
      (ofArguments : Emits scopes code (.arguments arguments operands) argumentInsts middle)
      (ofChildren : Emits scopes middle (.statements (children.getD [])) childInsts last) :
      Emits scopes code
        (.expression (.call name arguments children span)
          (signature.results.head?.map fun type => ⟨last.values.size, type⟩))
        (argumentInsts ++ childInsts ++
          [⟨signature.results.head?.map fun _ => last.values.size,
            .call last.callees.size (operands.map Operand.value)⟩])
        (last.addCall number true signature (operands.map Operand.value)).2
  | noArguments (code : Ir.Function) : Emits scopes code (.arguments [] []) [] code
  | argument {code middle after : Ir.Function} {first : CallArgument}
      {rest : List CallArgument} {operand : Operand} {operands : List Operand}
      {firstInsts restInsts : List Ir.Inst}
      (ofFirst : Emits scopes code (.expression first.value (some operand)) firstInsts middle)
      (ofRest : Emits scopes middle (.arguments rest operands) restInsts after) :
      Emits scopes code (.arguments (first :: rest) (operand :: operands))
        (firstInsts ++ restInsts) after
  | noStatements (code : Ir.Function) : Emits scopes code (.statements []) [] code
  | statement {code middle after : Ir.Function} {first : Expr} {rest : List Expr}
      {operand : Option Operand} {firstInsts restInsts : List Ir.Inst}
      (ofFirst : Emits scopes code (.expression first operand) firstInsts middle)
      (ofRest : Emits scopes middle (.statements rest) restInsts after) :
      Emits scopes code (.statements (first :: rest)) (firstInsts ++ restInsts) after

def Part.Lowers (scopes : ScopeTable Binding) (code after : Ir.Function) : Part → Prop
  | .expression expr operand => lowerExpr scopes expr code = .ok (operand, after)
  | .arguments given operands =>
      lowerArguments scopes given code = .ok (operands.map Operand.value, after)
  | .statements list => lowerStatements scopes list code = .ok ((), after)

section Lowers

variable {scopes : ScopeTable Binding}

theorem lowerChildren_eq (children : Option (List Expr)) :
    lowerChildren scopes children = lowerStatements scopes (children.getD []) := by
  cases children with
  | none => rfl
  | some list => rfl

theorem Build.call_eq (number : Nat) (signature : Ir.Signature) (arguments : List Ir.Value)
    (code : Ir.Function) :
    Build.call number signature arguments code =
      .ok (signature.results.head?.map fun type => ⟨code.values.size, type⟩,
        (code.addCall number true signature arguments).2) := by
  have result := code.addCall_result number true signature arguments
  change Except.ok ((code.addCall number true signature arguments).1.map _, _) = _
  rw [result, Option.map_map]
  rfl

theorem lowers_of_emits {code after : Ir.Function} {part : Part} {insts : List Ir.Inst}
    (emits : Emits scopes code part insts after) : part.Lowers scopes code after := by
  induction emits with
  | literal code value span => rfl
  | identifier code name span slot type bound =>
      simp only [Part.Lowers, lowerExpr, bound]
      rfl
  | unary span ofOperand selects lowered =>
      simp only [Part.Lowers, lowerExpr] at lowered ⊢
      refine Build.bind_eq_ok_iff.mpr ⟨_, _, Build.value_eq_ok_iff.mpr lowered, ?_⟩
      simp only [selects]
      rfl
  | binary span ofLeft ofRight sameType selects leftLowered rightLowered =>
      simp only [Part.Lowers, lowerExpr] at leftLowered rightLowered ⊢
      refine Build.bind_eq_ok_iff.mpr ⟨_, _, Build.value_eq_ok_iff.mpr leftLowered, ?_⟩
      refine Build.bind_eq_ok_iff.mpr ⟨_, _, Build.value_eq_ok_iff.mpr rightLowered, ?_⟩
      simp only [if_pos sameType, selects]
      rfl
  | call span resolved ofArguments ofChildren argumentsLowered childrenLowered =>
      simp only [Part.Lowers, lowerExpr] at argumentsLowered childrenLowered ⊢
      refine Build.bind_eq_ok_iff.mpr ⟨_, _, Build.liftM_eq_ok_iff.mpr ⟨resolved, rfl⟩, ?_⟩
      refine Build.bind_eq_ok_iff.mpr ⟨_, _, argumentsLowered, ?_⟩
      rw [lowerChildren_eq]
      refine Build.bind_eq_ok_iff.mpr ⟨_, _, childrenLowered, ?_⟩
      exact Build.call_eq _ _ _ _
  | noArguments code => rfl
  | @argument _ _ _ first _ _ _ _ _ ofFirst ofRest firstLowered restLowered =>
      obtain ⟨label, value⟩ := first
      simp only [Part.Lowers, lowerArguments] at firstLowered restLowered ⊢
      refine Build.bind_eq_ok_iff.mpr ⟨_, _, Build.value_eq_ok_iff.mpr firstLowered, ?_⟩
      exact Build.bind_eq_ok_iff.mpr ⟨_, _, restLowered, rfl⟩
  | noStatements code => rfl
  | statement ofFirst ofRest firstLowered restLowered =>
      simp only [Part.Lowers, lowerStatements] at firstLowered restLowered ⊢
      exact Build.bind_eq_ok_iff.mpr ⟨_, _, firstLowered, restLowered⟩

def ExpressionEmits (scopes : ScopeTable Binding) (expr : Expr) : Prop :=
  ∀ code operand after, lowerExpr scopes expr code = .ok (operand, after) →
    ∃ insts, Emits scopes code (.expression expr operand) insts after

theorem emits_of_lowerArguments (arguments : List CallArgument)
    (each : ∀ argument ∈ arguments, ExpressionEmits scopes argument.value) :
    ∀ code values after, lowerArguments scopes arguments code = .ok (values, after) →
      ∃ operands insts, values = operands.map Operand.value ∧
        Emits scopes code (.arguments arguments operands) insts after := by
  induction arguments with
  | nil =>
      intro code values after lowered
      obtain ⟨rfl, rfl⟩ := Build.pure_eq_ok_iff.mp lowered
      exact ⟨[], [], rfl, .noArguments code⟩
  | cons first rest inductionHypothesis =>
      intro code values after lowered
      obtain ⟨label, value⟩ := first
      rw [lowerArguments] at lowered
      obtain ⟨operand, middle, firstLowered, lowered⟩ := Build.bind_eq_ok_iff.mp lowered
      obtain ⟨others, last, restLowered, lowered⟩ := Build.bind_eq_ok_iff.mp lowered
      obtain ⟨rfl, rfl⟩ := Build.pure_eq_ok_iff.mp lowered
      obtain ⟨firstInsts, ofFirst⟩ :=
        each ⟨label, value⟩ (by simp) code (some operand) middle
          (Build.value_eq_ok_iff.mp firstLowered)
      obtain ⟨operands, restInsts, rfl, ofRest⟩ :=
        inductionHypothesis (fun argument member => each argument (by simp [member]))
          middle others last restLowered
      exact ⟨operand :: operands, firstInsts ++ restInsts, rfl, .argument ofFirst ofRest⟩

theorem emits_of_lowerStatements (statements : List Expr)
    (each : ∀ statement ∈ statements, ExpressionEmits scopes statement) :
    ∀ code after, lowerStatements scopes statements code = .ok ((), after) →
      ∃ insts, Emits scopes code (.statements statements) insts after := by
  induction statements with
  | nil =>
      intro code after lowered
      obtain ⟨-, rfl⟩ := Build.pure_eq_ok_iff.mp lowered
      exact ⟨[], .noStatements code⟩
  | cons first rest inductionHypothesis =>
      intro code after lowered
      rw [lowerStatements] at lowered
      obtain ⟨operand, middle, firstLowered, restLowered⟩ := Build.bind_eq_ok_iff.mp lowered
      obtain ⟨firstInsts, ofFirst⟩ := each first (by simp) code operand middle firstLowered
      obtain ⟨restInsts, ofRest⟩ :=
        inductionHypothesis (fun statement member => each statement (by simp [member]))
          middle after restLowered
      exact ⟨firstInsts ++ restInsts, .statement ofFirst ofRest⟩

theorem emits_of_lowerExpr (expr : Expr) : ExpressionEmits scopes expr := by
  induction expr using Expr.induction with
  | literal value span =>
      intro code operand after lowered
      obtain ⟨rfl, rfl⟩ := Prod.mk.inj (Except.ok.inj lowered)
      exact ⟨_, .literal code value span⟩
  | identifier name span =>
      intro code operand after lowered
      rw [lowerExpr] at lowered
      cases bound : scopes.lookup? name with
      | none => simp [bound] at lowered
      | some binding =>
          cases binding with
          | parameter slot type =>
              rw [bound] at lowered
              obtain ⟨rfl, rfl⟩ := Prod.mk.inj (Except.ok.inj lowered)
              exact ⟨_, .identifier code name span slot type bound⟩
          | function declaration number signature => simp [bound] at lowered
  | unary op expr span inductionHypothesis =>
      intro code operand? after lowered
      rw [lowerExpr] at lowered
      obtain ⟨operand, middle, exprLowered, lowered⟩ := Build.bind_eq_ok_iff.mp lowered
      obtain ⟨insts, ofOperand⟩ :=
        inductionHypothesis code (some operand) middle (Build.value_eq_ok_iff.mp exprLowered)
      cases selects : op.select? operand.type operand.value with
      | none => simp [selects] at lowered
      | some selected =>
          rw [selects] at lowered
          obtain ⟨rfl, rfl⟩ := Prod.mk.inj (Except.ok.inj lowered)
          exact ⟨_, .unary span ofOperand selects⟩
  | binary op lhs rhs span leftHypothesis rightHypothesis =>
      intro code operand? after lowered
      rw [lowerExpr] at lowered
      obtain ⟨left, middle, leftLowered, lowered⟩ := Build.bind_eq_ok_iff.mp lowered
      obtain ⟨right, last, rightLowered, lowered⟩ := Build.bind_eq_ok_iff.mp lowered
      obtain ⟨leftInsts, ofLeft⟩ :=
        leftHypothesis code (some left) middle (Build.value_eq_ok_iff.mp leftLowered)
      obtain ⟨rightInsts, ofRight⟩ :=
        rightHypothesis middle (some right) last (Build.value_eq_ok_iff.mp rightLowered)
      by_cases sameType : left.type = right.type
      · rw [if_pos sameType] at lowered
        cases selects : op.select? left.type left.value right.value with
        | none => simp [selects] at lowered
        | some selected =>
            rw [selects] at lowered
            obtain ⟨rfl, rfl⟩ := Prod.mk.inj (Except.ok.inj lowered)
            exact ⟨_, .binary span ofLeft ofRight sameType selects⟩
      · rw [if_neg sameType] at lowered
        simp at lowered
  | call name arguments children span ofEachArgument ofEachChild =>
      intro code operand? after lowered
      rw [lowerExpr] at lowered
      obtain ⟨⟨number, signature⟩, start, lifted, lowered⟩ := Build.bind_eq_ok_iff.mp lowered
      obtain ⟨resolved, rfl⟩ := Build.liftM_eq_ok_iff.mp lifted
      obtain ⟨values, middle, argumentsLowered, lowered⟩ := Build.bind_eq_ok_iff.mp lowered
      rw [lowerChildren_eq] at lowered
      obtain ⟨⟨⟩, last, childrenLowered, lowered⟩ := Build.bind_eq_ok_iff.mp lowered
      rw [Build.call_eq] at lowered
      obtain ⟨rfl, rfl⟩ := Prod.mk.inj (Except.ok.inj lowered)
      obtain ⟨operands, argumentInsts, rfl, ofArguments⟩ :=
        emits_of_lowerArguments arguments ofEachArgument _ values middle argumentsLowered
      obtain ⟨childInsts, ofChildren⟩ :=
        emits_of_lowerStatements (children.getD []) ofEachChild middle last childrenLowered
      exact ⟨_, .call span resolved ofArguments ofChildren⟩
  | conditional condition thenBlock elseBlock span =>
      intro code operand after lowered
      simp [lowerExpr] at lowered

/-- An expression is lowered exactly if it emits instructions. -/
theorem lowerExpr_eq_ok_iff {expr : Expr} {code after : Ir.Function} {operand : Option Operand} :
    lowerExpr scopes expr code = .ok (operand, after) ↔
      ∃ insts, Emits scopes code (.expression expr operand) insts after :=
  ⟨emits_of_lowerExpr expr code operand after, fun ⟨_, emits⟩ => lowers_of_emits emits⟩

theorem lowerStatements_eq_ok_iff {statements : List Expr} {code after : Ir.Function} :
    lowerStatements scopes statements code = .ok ((), after) ↔
      ∃ insts, Emits scopes code (.statements statements) insts after :=
  ⟨emits_of_lowerStatements statements (fun statement _ => emits_of_lowerExpr statement)
    code after, fun ⟨_, emits⟩ => lowers_of_emits emits⟩

end Lowers

/-! ## What emission keeps -/

namespace Emits

variable {scopes : ScopeTable Binding} {code after : Ir.Function} {part : Part}
  {insts : List Ir.Inst}

theorem begins (emits : Emits scopes code part insts after) : code.Begins after := by
  induction emits with
  | literal code value span => exact Ir.Function.begins_define _ _ _
  | identifier code name span slot type bound => exact Ir.Function.begins_define _ _ _
  | unary span ofOperand selects operandBegins =>
      exact operandBegins.trans (Ir.Function.begins_define _ _ _)
  | binary span ofLeft ofRight sameType selects leftBegins rightBegins =>
      exact (leftBegins.trans rightBegins).trans (Ir.Function.begins_define _ _ _)
  | call span resolved ofArguments ofChildren argumentsBegin childrenBegin =>
      exact (argumentsBegin.trans childrenBegin).trans (Ir.Function.begins_addCall _ _ _ _ _)
  | noArguments code => exact .refl code
  | argument ofFirst ofRest firstBegins restBegins => exact firstBegins.trans restBegins
  | noStatements code => exact .refl code
  | statement ofFirst ofRest firstBegins restBegins => exact firstBegins.trans restBegins

theorem body (emits : Emits scopes code part insts after) :
    after.body.toList = code.body.toList ++ insts := by
  induction emits with
  | literal code value span => simp [Ir.Function.define]
  | identifier code name span slot type bound => simp [Ir.Function.define]
  | unary span ofOperand selects operandBody => simp [Ir.Function.define, operandBody]
  | binary span ofLeft ofRight sameType selects leftBody rightBody =>
      simp [Ir.Function.define, leftBody, rightBody]
  | call span resolved ofArguments ofChildren argumentsBody childrenBody =>
      rw [Ir.Function.addCall_body, childrenBody, argumentsBody]
      simp
  | noArguments code => simp
  | argument ofFirst ofRest firstBody restBody => simp [restBody, firstBody]
  | noStatements code => simp
  | statement ofFirst ofRest firstBody restBody => simp [restBody, firstBody]

theorem of_lookups {other : ScopeTable Binding}
    (same : ∀ name accepts, other.lookupWhere? name accepts = scopes.lookupWhere? name accepts)
    (emits : Emits scopes code part insts after) : Emits other code part insts after := by
  have sameLookup : ∀ name, other.lookup? name = scopes.lookup? name := fun name => same name _
  have sameCall : ∀ name arguments span,
      resolveCall other name arguments span = resolveCall scopes name arguments span := by
    intro name arguments span
    simp only [resolveCall, same]
  induction emits with
  | literal code value span => exact .literal code value span
  | identifier code name span slot type bound =>
      exact .identifier code name span slot type ((sameLookup name).trans bound)
  | unary span _ selects ofOperand => exact .unary span ofOperand selects
  | binary span _ _ sameType selects ofLeft ofRight =>
      exact .binary span ofLeft ofRight sameType selects
  | call span resolved _ _ ofArguments ofChildren =>
      exact .call span ((sameCall _ _ _).trans resolved) ofArguments ofChildren
  | noArguments code => exact .noArguments code
  | argument _ _ ofFirst ofRest => exact .argument ofFirst ofRest
  | noStatements code => exact .noStatements code
  | statement _ _ ofFirst ofRest => exact .statement ofFirst ofRest

def Operands (after : Ir.Function) : Part → Prop
  | .expression _ operand => ∀ found ∈ operand, after.typeOf? found.value = some found.type
  | .arguments _ operands => ∀ found ∈ operands, after.typeOf? found.value = some found.type
  | .statements _ => True

theorem typeOf?_define (code : Ir.Function) (type : Ir.Ty) (op : Ir.Op) :
    (code.define type op).2.typeOf? code.values.size = some type := by
  simp [Ir.Function.define, Ir.Function.typeOf?]

theorem operands (emits : Emits scopes code part insts after) : Operands after part := by
  induction emits with
  | literal code value span => simp [Operands, typeOf?_define]
  | identifier code name span slot type bound => simp [Operands, typeOf?_define]
  | unary span ofOperand selects _ => simp [Operands, typeOf?_define]
  | binary span ofLeft ofRight sameType selects _ _ => simp [Operands, typeOf?_define]
  | @call _ _ last _ _ _ operands _ _ number signature _ _ _ _ _ _ =>
      intro found member
      obtain ⟨type, isFirst, rfl⟩ := Option.map_eq_some_iff.mp member
      have values := last.addCall_values number true signature (operands.map Operand.value)
      rw [Ir.Function.typeOf?, ← Array.getElem?_toList, values, isFirst]
      simp
  | noArguments code => simp [Operands]
  | argument ofFirst ofRest ofFirstOperand ofOperands =>
      intro found member
      rcases List.mem_cons.mp member with rfl | member
      · exact ofRest.begins.typeOf? (ofFirstOperand found rfl)
      · exact ofOperands found member
  | noStatements code => trivial
  | statement ofFirst ofRest _ _ => trivial

end Emits

end ScalarLang
