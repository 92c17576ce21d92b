import ScalarLang.Proofs.Reading.Nodes
import ScalarLang.Proofs.Typing.Relation

/-!
# Faults of a program

What is wrong with a program can be found by a walk over its tree that makes no code.  The
faults of a part are listed here in the order in which the walk comes to them.  Only the
first one is ever reported, so what the list goes on with after it does not matter, and an
expression with a fault may have any type.
-/

set_option autoImplicit false

namespace ScalarLang

/-! ## Types -/

def TypePath.scalar? (path : TypePath) : Option ScalarType :=
  match path.inner with
  | [] => ScalarType.ofName? path.head.name
  | _ :: _ => none

def Literal.type : Literal → ScalarType
  | .integer _ => .int
  | .float _ => .float
  | .boolean _ => .bool

namespace FunctionDecl

def parameterTypes (function : FunctionDecl) : List ScalarType :=
  function.parameters.filterMap fun parameter => parameter.type.scalar?

def scalarResult? (function : FunctionDecl) : Option ScalarType :=
  function.resultType.bind TypePath.scalar?

def typedParameters (function : FunctionDecl) : List (String × ScalarType) :=
  function.labels.zip function.parameterTypes

def signatureFor (target : Target) (function : FunctionDecl) : Ir.Signature :=
  loweredSignature target function.parameterTypes function.scalarResult?

def named? (functions : List FunctionDecl) (name : String) : Option FunctionDecl :=
  functions.find? fun function => function.lowLevelName == name

def called? (functions : List FunctionDecl) (name : Ident) (arguments : List CallArgument) :
    Option FunctionDecl :=
  named? functions (CallArgument.lowLevelName name arguments)

end FunctionDecl

open FunctionDecl

section Expressions

variable (available : List FunctionDecl) (parameters : List (String × ScalarType))

/-- The type of the value of an expression, or none if it has no value. -/
def Expr.type? : Expr → Option ScalarType
  | .literal value _ => some value.type
  | .identifier name _ => parameters.reverse.lookup name
  | .unary op operand _ => operand.type?.filter op.supports
  | .binary op lhs _ _ => lhs.type?.bind op.resultType?
  | .call name arguments _ _ => (called? available name arguments).bind scalarResult?
  | .conditional _ _ _ _ => none

/-! ## Faults of expressions -/

def Expr.voidFaults (expr : Expr) : List LoweringError :=
  if (expr.type? available parameters).isNone then [.voidValue expr.span] else []

def nameFaults (name : String) (span : Span) : List LoweringError :=
  if (parameters.reverse.lookup name).isSome then []
  else if (named? available name).isSome then [.notAValue name span]
  else [.variableNotDefined name span]

def UnaryOp.faults (op : UnaryOp) (type : Option ScalarType) (span : Span) : List LoweringError :=
  match type with
  | some type =>
    if op.supports type then [] else [.unsupportedOperator op.text type.lowered span]
  | none => []

def BinaryOp.faults (op : BinaryOp) (left right : Option ScalarType) (span : Span) :
    List LoweringError :=
  match left, right with
  | some left, some right =>
    if left = right then
      if (op.resultType? left).isSome then []
      else [.unsupportedOperator op.text left.lowered span]
    else [.operandMismatch op.text left.lowered right.lowered span]
  | _, _ => []

def FunctionDecl.labelFaults (callee : FunctionDecl) (name : Ident)
    (arguments : List CallArgument) : List LoweringError :=
  if callee.parameters.length = arguments.length then
    ((callee.parameters.zip arguments).filter fun pair =>
        pair.1.name.name != pair.2.label.name).map fun pair =>
      .labelMismatch pair.1.name.name pair.2.label.name pair.2.label.span
  else
    [.countMismatch callee.name.name callee.parameters.length arguments.length name.span]

def callFaults (name : Ident) (arguments : List CallArgument) (span : Span) :
    List LoweringError :=
  match called? available name arguments with
  | some callee => callee.labelFaults name arguments
  | none =>
    [.functionNotDefined name.name (CallArgument.lowLevelName name arguments) span]

mutual

/-- The faults of an expression: those of its parts from left to right, then its own, but a
call is looked up before its arguments and a choice is not looked into. -/
def Expr.faults : Expr → List LoweringError
  | .literal _ _ => []
  | .identifier name span => nameFaults available parameters name span
  | .unary op operand span =>
    operand.faults ++ operand.voidFaults available parameters ++
      op.faults (operand.type? available parameters) span
  | .binary op lhs rhs span =>
    lhs.faults ++ lhs.voidFaults available parameters ++
      (rhs.faults ++ rhs.voidFaults available parameters ++
        op.faults (lhs.type? available parameters) (rhs.type? available parameters) span)
  | .call name arguments children span =>
    callFaults available name arguments span ++
      (argumentsFaults arguments ++ childrenFaults children)
  | .conditional _ _ _ span => [.unsupportedConditional span]

def argumentsFaults : List CallArgument → List LoweringError
  | [] => []
  | ⟨_, argument⟩ :: rest =>
    argument.faults ++ argument.voidFaults available parameters ++ argumentsFaults rest

def childrenFaults : Option (List Expr) → List LoweringError
  | none => []
  | some children => statementsFaults children

def statementsFaults : List Expr → List LoweringError
  | [] => []
  | statement :: rest => statement.faults ++ statementsFaults rest

end

/-! ## Arguments and results of other types -/

mutual

def Expr.nodes : Expr → List Expr
  | .conditional condition thenBlock elseBlock span =>
    .conditional condition thenBlock elseBlock span ::
      (condition.nodes ++ (thenBlock.nodes ++ elseNodes elseBlock))
  | .call name arguments children span =>
    .call name arguments children span :: (argumentsNodes arguments ++ childrenNodes children)
  | .binary op lhs rhs span => .binary op lhs rhs span :: (lhs.nodes ++ rhs.nodes)
  | .unary op operand span => .unary op operand span :: operand.nodes
  | .identifier name span => [.identifier name span]
  | .literal value span => [.literal value span]

def Block.nodes : Block → List Expr
  | ⟨statements, result⟩ => linesNodes statements ++ resultNodes result

def elseNodes : Option Block → List Expr
  | none => []
  | some block => block.nodes

def argumentsNodes : List CallArgument → List Expr
  | [] => []
  | ⟨_, value⟩ :: rest => value.nodes ++ argumentsNodes rest

def childrenNodes : Option (List Expr) → List Expr
  | none => []
  | some children => linesNodes children

def linesNodes : List Expr → List Expr
  | [] => []
  | line :: rest => line.nodes ++ linesNodes rest

def resultNodes : Option Expr → List Expr
  | none => []
  | some result => result.nodes

end

theorem linesNodes_eq (lines : List Expr) : linesNodes lines = lines.flatMap Expr.nodes := by
  induction lines with
  | nil => rfl
  | cons first rest inductionHypothesis =>
      rw [linesNodes, inductionHypothesis, List.flatMap_cons]

theorem argumentsNodes_eq (arguments : List CallArgument) :
    argumentsNodes arguments = (arguments.map CallArgument.value).flatMap Expr.nodes := by
  induction arguments with
  | nil => rfl
  | cons first rest inductionHypothesis =>
      obtain ⟨label, value⟩ := first
      rw [argumentsNodes, inductionHypothesis, List.map_cons, List.flatMap_cons]

theorem childrenNodes_eq (children : Option (List Expr)) :
    childrenNodes children = (children.getD []).flatMap Expr.nodes := by
  cases children with
  | none => rfl
  | some list => exact linesNodes_eq list

theorem Block.nodes_eq (block : Block) : block.nodes = block.expressions.flatMap Expr.nodes := by
  obtain ⟨statements, result⟩ := block
  rw [Block.nodes, Block.expressions, List.flatMap_append, linesNodes_eq]
  cases result with
  | none => rfl
  | some expr => simp [resultNodes]

/-- The nodes of an expression are the expression and those of its parts. -/
theorem Expr.nodes_eq (expr : Expr) : expr.nodes = expr :: expr.parts.flatMap Expr.nodes := by
  cases expr with
  | conditional condition thenBlock elseBlock span =>
      rw [Expr.nodes, Expr.parts, List.flatMap_cons, List.flatMap_append, Block.nodes_eq]
      cases elseBlock with
      | none => rfl
      | some block => simp [elseNodes, Block.nodes_eq]
  | call name arguments children span =>
      rw [Expr.nodes, Expr.parts, List.flatMap_append, argumentsNodes_eq, childrenNodes_eq]
  | binary op lhs rhs span => simp [Expr.nodes, Expr.parts]
  | unary op operand span => simp [Expr.nodes, Expr.parts]
  | identifier name span => rfl
  | literal value span => rfl

theorem Expr.Within.mem_nodes {node expr : Expr} (within : node.Within expr) :
    node ∈ expr.nodes := by
  induction within with
  | self =>
      rw [Expr.nodes_eq]
      exact List.mem_cons_self
  | part isPart _ inductionHypothesis =>
      rw [Expr.nodes_eq]
      exact List.mem_cons_of_mem _ (List.mem_flatMap.mpr ⟨_, isPart, inductionHypothesis⟩)

theorem Expr.within_of_mem_nodes {node : Expr} (expr : Expr) :
    node ∈ expr.nodes → node.Within expr := by
  have ofParts : ∀ expr : Expr, (∀ part ∈ expr.parts, node ∈ part.nodes → node.Within part) →
      node ∈ expr.nodes → node.Within expr := by
    intro expr each member
    rw [Expr.nodes_eq] at member
    rcases List.mem_cons.mp member with rfl | member
    · exact .self
    · obtain ⟨part, isPart, inPart⟩ := List.mem_flatMap.mp member
      exact .part isPart (each part isPart inPart)
  induction expr using Expr.induction with
  | literal value span => exact ofParts _ (List.forall_mem_nil _)
  | identifier name span => exact ofParts _ (List.forall_mem_nil _)
  | unary op operand span ofOperand => exact ofParts _ (List.forall_mem_singleton.mpr ofOperand)
  | binary op lhs rhs span ofLeft ofRight =>
      exact ofParts _ (List.forall_mem_cons.mpr ⟨ofLeft, List.forall_mem_singleton.mpr ofRight⟩)
  | call name arguments children span ofArguments ofChildren =>
      exact ofParts _ (List.forall_mem_append.mpr ⟨List.forall_mem_map.mpr ofArguments, ofChildren⟩)
  | conditional condition thenBlock elseBlock span ofCondition ofThen ofElse =>
      refine ofParts _ (List.forall_mem_cons.mpr ⟨ofCondition,
        List.forall_mem_append.mpr ⟨ofThen, ?_⟩⟩)
      intro part isPart
      obtain ⟨block, isBlock, isPart⟩ := List.mem_flatMap.mp isPart
      exact ofElse block (Option.mem_toList.mp isBlock) part isPart

/-- Whether an expression, if it is a call, gives arguments of the types that are asked for. -/
def Expr.fits : Expr → Bool
  | .call name arguments _ _ =>
    match called? available name arguments with
    | some callee =>
      (arguments.zip callee.parameters).all fun pair =>
        pair.1.value.type? available parameters == pair.2.type.scalar?
    | none => true
  | _ => true

end Expressions

/-! ## Faults of functions -/

def TypePath.faults (path : TypePath) : List LoweringError :=
  if path.scalar?.isNone then [.unknownType path] else []

namespace FunctionDecl

variable (target : Target) (available : List FunctionDecl) (function : FunctionDecl)

/-- Another function of the same low-level name has another signature. -/
def clashFaults : List LoweringError :=
  match named? available function.lowLevelName with
  | some previous =>
    if previous.signatureFor target = function.signatureFor target then []
    else
      [.object (.incompatibleSignature function.lowLevelName (previous.signatureFor target)
        (function.signatureFor target))]
  | none => []

/-- A result is declared and not returned, or returned and not declared. -/
def presenceFaults : List LoweringError :=
  match function.resultType, function.body.result with
  | some _, none => [.missingResult function.name]
  | none, some result => [.unexpectedResult function.name.name result.span]
  | _, _ => []

def resultFaults : List LoweringError :=
  match function.body.result with
  | some result =>
    result.faults available function.typedParameters ++
      result.voidFaults available function.typedParameters
  | none => []

def fits : Bool :=
  (function.body.expressions.flatMap Expr.nodes).all
      (Expr.fits available function.typedParameters) &&
    function.body.result.all fun result =>
      result.type? available function.typedParameters == function.scalarResult?

def misfitFaults : List LoweringError :=
  if function.fits available then [] else [.illFormed]

def duplicateFaults : List LoweringError :=
  if (named? available function.lowLevelName).isSome then
    [.object (.duplicateDefinition function.lowLevelName)]
  else []

/-- The faults that keep the code of a function from being finished. -/
def codeFaults : List LoweringError :=
  (function.parameters.flatMap fun parameter => parameter.type.faults) ++
    (function.resultType.toList.flatMap TypePath.faults ++
      (function.clashFaults target available ++
        (statementsFaults available function.typedParameters function.body.statements ++
          (function.presenceFaults ++ function.resultFaults available))))

def faults : List LoweringError :=
  function.codeFaults target available ++
    (function.misfitFaults available ++ function.duplicateFaults available)

end FunctionDecl

def functionsFaults (target : Target) :
    List FunctionDecl → List FunctionDecl → List LoweringError
  | _, [] => []
  | available, function :: rest =>
    function.faults target available ++ functionsFaults target (available ++ [function]) rest

def Module.faults (program : Module) (target : Target) : List LoweringError :=
  functionsFaults target [Builtin.print] program.functions

/-! ## Errors about finished code -/

/-- Whether an error comes up before the code of a function is finished. -/
def LoweringError.beforeCode : LoweringError → Bool
  | .illFormed => false
  | .object (.duplicateDefinition _) => false
  | _ => true

section BeforeCode

variable {available : List FunctionDecl} {parameters : List (String × ScalarType)}

theorem Expr.beforeCode_of_voidFaults (expr : Expr) :
    ∀ error ∈ expr.voidFaults available parameters, error.beforeCode = true := by
  unfold voidFaults
  split <;> simp [LoweringError.beforeCode]

theorem beforeCode_of_nameFaults (name : String) (span : Span) :
    ∀ error ∈ nameFaults available parameters name span, error.beforeCode = true := by
  unfold nameFaults
  repeat' split
  all_goals simp [LoweringError.beforeCode]

theorem UnaryOp.beforeCode_of_faults (op : UnaryOp) (type : Option ScalarType) (span : Span) :
    ∀ error ∈ op.faults type span, error.beforeCode = true := by
  unfold faults
  repeat' split
  all_goals simp [LoweringError.beforeCode]

theorem BinaryOp.beforeCode_of_faults (op : BinaryOp) (left right : Option ScalarType)
    (span : Span) : ∀ error ∈ op.faults left right span, error.beforeCode = true := by
  unfold faults
  repeat' split
  all_goals simp [LoweringError.beforeCode]

theorem beforeCode_of_callFaults (name : Ident) (arguments : List CallArgument) (span : Span) :
    ∀ error ∈ callFaults available name arguments span, error.beforeCode = true := by
  unfold callFaults labelFaults
  split
  · split
    · exact List.forall_mem_map.mpr fun _ _ => rfl
    · exact List.forall_mem_singleton.mpr rfl
  · exact List.forall_mem_singleton.mpr rfl

theorem beforeCode_of_argumentsFaults {arguments : List CallArgument}
    (each : ∀ argument ∈ arguments, ∀ error ∈ argument.value.faults available parameters,
      error.beforeCode = true) :
    ∀ error ∈ argumentsFaults available parameters arguments, error.beforeCode = true := by
  induction arguments with
  | nil => exact List.forall_mem_nil _
  | cons first rest inductionHypothesis =>
      obtain ⟨label, value⟩ := first
      obtain ⟨ofFirst, ofRest⟩ := List.forall_mem_cons.mp each
      exact List.forall_mem_append.mpr ⟨List.forall_mem_append.mpr
        ⟨ofFirst, value.beforeCode_of_voidFaults⟩, inductionHypothesis ofRest⟩

theorem beforeCode_of_statementsFaults {statements : List Expr}
    (each : ∀ statement ∈ statements, ∀ error ∈ statement.faults available parameters,
      error.beforeCode = true) :
    ∀ error ∈ statementsFaults available parameters statements, error.beforeCode = true := by
  induction statements with
  | nil => exact List.forall_mem_nil _
  | cons first rest inductionHypothesis =>
      obtain ⟨ofFirst, ofRest⟩ := List.forall_mem_cons.mp each
      exact List.forall_mem_append.mpr ⟨ofFirst, inductionHypothesis ofRest⟩

theorem Expr.beforeCode_of_faults (expr : Expr) :
    ∀ error ∈ expr.faults available parameters, error.beforeCode = true := by
  induction expr using Expr.induction with
  | literal value span => exact List.forall_mem_nil _
  | identifier name span => exact beforeCode_of_nameFaults name span
  | unary op operand span ofOperand =>
      exact List.forall_mem_append.mpr ⟨List.forall_mem_append.mpr
        ⟨ofOperand, operand.beforeCode_of_voidFaults⟩, op.beforeCode_of_faults _ span⟩
  | binary op lhs rhs span ofLeft ofRight =>
      exact List.forall_mem_append.mpr ⟨List.forall_mem_append.mpr
        ⟨ofLeft, lhs.beforeCode_of_voidFaults⟩, List.forall_mem_append.mpr
          ⟨List.forall_mem_append.mpr ⟨ofRight, rhs.beforeCode_of_voidFaults⟩,
            op.beforeCode_of_faults _ _ span⟩⟩
  | call name arguments children span ofArguments ofChildren =>
      refine List.forall_mem_append.mpr ⟨beforeCode_of_callFaults name arguments span,
        List.forall_mem_append.mpr ⟨beforeCode_of_argumentsFaults ofArguments, ?_⟩⟩
      cases children with
      | none => exact List.forall_mem_nil _
      | some list => exact beforeCode_of_statementsFaults ofChildren
  | conditional condition thenBlock elseBlock span _ _ _ =>
      exact List.forall_mem_singleton.mpr rfl

theorem TypePath.beforeCode_of_faults (path : TypePath) :
    ∀ error ∈ path.faults, error.beforeCode = true := by
  unfold faults
  split <;> simp [LoweringError.beforeCode]

variable {target : Target} {function : FunctionDecl}

theorem FunctionDecl.beforeCode_of_clashFaults :
    ∀ error ∈ function.clashFaults target available, error.beforeCode = true := by
  unfold clashFaults
  repeat' split
  all_goals simp [LoweringError.beforeCode]

theorem FunctionDecl.beforeCode_of_presenceFaults :
    ∀ error ∈ function.presenceFaults, error.beforeCode = true := by
  unfold presenceFaults
  split <;> simp [LoweringError.beforeCode]

/-- The faults that keep code from being finished are none of finished code. -/
theorem FunctionDecl.beforeCode_of_codeFaults :
    ∀ error ∈ function.codeFaults target available, error.beforeCode = true := by
  have ofResult : ∀ error ∈ function.resultFaults available, error.beforeCode = true := by
    unfold resultFaults
    split
    · exact List.forall_mem_append.mpr
        ⟨Expr.beforeCode_of_faults _, Expr.beforeCode_of_voidFaults _⟩
    · exact List.forall_mem_nil _
  unfold codeFaults
  simp only [List.forall_mem_append, List.forall_mem_flatMap]
  exact ⟨fun parameter _ => parameter.type.beforeCode_of_faults,
    fun path _ => path.beforeCode_of_faults, beforeCode_of_clashFaults,
    beforeCode_of_statementsFaults fun statement _ => statement.beforeCode_of_faults,
    beforeCode_of_presenceFaults, ofResult⟩

end BeforeCode

end ScalarLang
