import ScalarLang.Ir.Check
import ScalarLang.Ir.Listing
import ScalarLang.Lowering.Expression
import ScalarLang.Object.Target

/-!
# Lowering functions and programs

Functions are lowered in source order, and a function can be called only by the
functions after it.  All of them are built in one context, which is cleared before each.
A function is declared before its body is lowered; its finished code is checked,
recorded and then defined.  What was recorded stays recorded when a later step fails.
-/

set_option autoImplicit false

namespace ScalarLang

/-- What checks code, keeps the declarations of an object and turns code into its contents. -/
structure BackEnd where
  verify : Ir.Function → Bool
  declareFunction : Declarations → String → Linkage → Ir.Signature →
    Except ObjectError (Nat × Declarations)
  declareData : Declarations → String → Linkage → Nat × Declarations
  defineFunction : Declarations → Nat → Except ObjectError Declarations
  defineData : Declarations → Nat → Except ObjectError Declarations
  /-- What a definition leaves of the code of a function. -/
  optimized : Ir.Function → Ir.Function

def BackEnd.standard : BackEnd where
  verify := Ir.Function.check
  declareFunction := Declarations.declareFunction
  declareData := Declarations.declareData
  defineFunction := Declarations.defineFunction
  defineData := Declarations.defineData
  optimized := id

namespace BackEnd

@[simp]
theorem standard_verify : standard.verify = Ir.Function.check := rfl

@[simp]
theorem standard_declareFunction : standard.declareFunction = Declarations.declareFunction := rfl

@[simp]
theorem standard_declareData : standard.declareData = Declarations.declareData := rfl

@[simp]
theorem standard_defineFunction : standard.defineFunction = Declarations.defineFunction := rfl

@[simp]
theorem standard_defineData : standard.defineData = Declarations.defineData := rfl

@[simp]
theorem standard_optimized (code : Ir.Function) : standard.optimized code = code := rfl

end BackEnd

structure Lowering where
  target : Target
  declarations : Declarations
  scopes : ScopeTable Binding
  /-- The functions whose code was finished, in order. -/
  recorded : Array Ir.Function
  /-- The function under construction, or what the last one left. -/
  context : Ir.Function

abbrev Lower := EStateM LoweringError Lowering

namespace Lower

variable {α : Type}

/-! ## Steps -/

def ofExcept (outcome : Except LoweringError α) : Lower α := fun lowering =>
  match outcome with
  | .ok value => .ok value lowering
  | .error error => .error error lowering

def declareFunctionOn (backEnd : BackEnd) (name : String) (linkage : Linkage)
    (signature : Ir.Signature) : Lower Nat := fun lowering =>
  match backEnd.declareFunction lowering.declarations name linkage signature with
  | .ok (number, declarations) => .ok number { lowering with declarations }
  | .error error => .error (.object error) lowering

def defineDataOn (backEnd : BackEnd) (name : String) : Lower Unit := fun lowering =>
  let (number, declarations) := backEnd.declareData lowering.declarations name .hidden
  match backEnd.defineData declarations number with
  | .ok defined => .ok () { lowering with declarations := defined }
  | .error error => .error (.object error) { lowering with declarations }

/-- Checks the code of a declared function, records it and defines the function. -/
def defineFunctionOn (backEnd : BackEnd) (number : Nat) (code : Ir.Function) : Lower Unit :=
  fun lowering =>
  if backEnd.verify code then
    let recorded := { lowering with
      recorded := lowering.recorded.push code
      context := backEnd.optimized lowering.context }
    match backEnd.defineFunction recorded.declarations number with
    | .ok declarations => .ok () { recorded with declarations }
    | .error error => .error (.object error) recorded
  else
    .error .illFormed lowering

def declareFunction : String → Linkage → Ir.Signature → Lower Nat := declareFunctionOn .standard

def defineData : String → Lower Unit := defineDataOn .standard

def defineFunction : Nat → Ir.Function → Lower Unit := defineFunctionOn .standard

/-! ### The context -/

def clearContext : Lower Unit := fun lowering =>
  .ok () { lowering with context := .cleared lowering.target.convention }

def signContext (name : String) (params results : List Ir.Ty) : Lower Unit := fun lowering =>
  .ok () { lowering with context := lowering.context.sign name params results }

def openContext : Lower Unit := fun lowering =>
  .ok () { lowering with context := lowering.context.openBlock }

def setContext (code : Ir.Function) : Lower Unit := fun lowering =>
  .ok () { lowering with context := code }

/-! ### Scopes -/

def bind (name : String) (binding : Binding) : Lower Unit := fun lowering =>
  .ok () { lowering with scopes := lowering.scopes.insert name binding }

def leaveScope (ending : EStateM.Result LoweringError Lowering α) :
    EStateM.Result LoweringError Lowering α :=
  match ending with
  | .ok value after =>
    match after.scopes.exit with
    | .ok scopes => .ok value { after with scopes }
    | .error error => .error (.scope error) after
  | .error failure after =>
    match after.scopes.exit with
    | .ok scopes => .error failure { after with scopes }
    | .error error => .error (.scope error) after

/-- A step in a scope of its own, which is left whether the step succeeds or not. -/
def inScope (action : Lower α) : Lower α := fun lowering =>
  leaveScope (action { lowering with scopes := lowering.scopes.enter })

def build (code : Ir.Function) (step : ScopeTable Binding → Build α) :
    Lower (α × Ir.Function) := fun lowering =>
  ofExcept (step lowering.scopes code) lowering

/-! ## Functions -/

def storeParameters : List (Parameter × ScalarType) → Ir.Value → Ir.Function →
    Lower Ir.Function
  | [], _, code => return code
  | (parameter, type) :: rest, value, code => do
    let (slot, withSlot) := code.addSlot type.lowered
    bind parameter.name.name (.parameter slot type.lowered)
    storeParameters rest (value + 1) (withSlot.emit (.stackStore value slot))

def blockStatements (block : Block) (code : Ir.Function) : Lower Ir.Function :=
  inScope do
    let ((), extended) ← build code fun scopes => lowerStatements scopes block.statements
    return extended

/-- Lowers the result of a function, which is there if and only if the function has
a result type. -/
def functionResult (function : FunctionDecl) (code : Ir.Function) : Lower Ir.Function :=
  match function.resultType, function.body.result with
  | some _, some result => do
    let (operand, extended) ← build code fun scopes =>
      Build.value result.span (lowerExpr scopes result)
    return extended.emit (.ret [operand.value])
  | none, none => return code.emit (.ret [])
  | some _, none => throw (.missingResult function.name)
  | none, some result => throw (.unexpectedResult function.name.name result.span)

def functionBody (function : FunctionDecl) (types : List ScalarType) (code : Ir.Function) :
    Lower Ir.Function := do
  let stored ← storeParameters (function.parameters.zip types) 0 code
  let extended ← blockStatements function.body stored
  functionResult function extended

def functionOn (backEnd : BackEnd) (function : FunctionDecl) : Lower Unit := do
  let name := function.lowLevelName
  let types ← ofExcept (ScalarType.ofParameters function.parameters)
  let result ← ofExcept (ScalarType.ofResult function.resultType)
  clearContext
  signContext name (types.map ScalarType.lowered) (result.map ScalarType.lowered).toList
  let signature := (← get).context.signature
  let number ← declareFunctionOn backEnd name .exported signature
  openContext
  let code ← inScope (functionBody function types (← get).context)
  setContext code
  defineFunctionOn backEnd number (← get).context
  bind name (.function function number signature)

def functionsOn (backEnd : BackEnd) : List FunctionDecl → Lower Unit
  | [] => return ()
  | first :: rest => do
    functionOn backEnd first
    functionsOn backEnd rest

def function : FunctionDecl → Lower Unit := functionOn .standard

def functions : List FunctionDecl → Lower Unit := functionsOn .standard

theorem functions_cons (first : FunctionDecl) (rest : List FunctionDecl) :
    functions (first :: rest) = function first >>= fun _ => functions rest := rfl

end Lower

end ScalarLang
