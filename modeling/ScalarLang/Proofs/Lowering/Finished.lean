import ScalarLang.Proofs.Lowering.Scopes

/-!
# Finished code

Lowering a function has two halves.  The first declares the function and finishes its code.
The second checks the code, records it, defines the function and binds its name.  Nothing
is recorded in the first half, whether it succeeds or not.
-/

set_option autoImplicit false

namespace ScalarLang

structure Finished where
  number : Nat
  signature : Ir.Signature
  code : Ir.Function

namespace Lower

/-- Declares a function and finishes its code, which is not checked yet. -/
def finish (declaration : FunctionDecl) : Lower Finished := do
  let types ← ofExcept (ScalarType.ofParameters declaration.parameters)
  let result ← ofExcept (ScalarType.ofResult declaration.resultType)
  clearContext
  signContext declaration.lowLevelName (types.map ScalarType.lowered)
    (result.map ScalarType.lowered).toList
  let signature := (← get).context.signature
  let number ← declareFunction declaration.lowLevelName .exported signature
  openContext
  let code ← inScope (functionBody declaration types (← get).context)
  setContext code
  return ⟨number, signature, code⟩

/-- Checks and records finished code, defines its function and binds the name. -/
def settle (declaration : FunctionDecl) (finished : Finished) : Lower Unit := do
  defineFunction finished.number finished.code
  bind declaration.lowLevelName (.function declaration finished.number finished.signature)

theorem function_eq (declaration : FunctionDecl) :
    function declaration = finish declaration >>= settle declaration := by
  unfold function functionOn finish settle
  simp only [bind_assoc, pure_bind]
  rfl

/-- What finishing the code of a function gives: the types are known, the function is
declared and its body is lowered. -/
inductive Finishes (lowering : Lowering) (declaration : FunctionDecl) :
    Finished → Lowering → Prop where
  | intro {types : List ScalarType} {result : Option ScalarType} {number : Nat}
      {declared : Declarations} {insts tail : List Ir.Inst} {code : Ir.Function}
      (denoteParameters : List.Forall₂ (fun parameter type => parameter.type.Denotes type)
        declaration.parameters types)
      (denoteResult : Option.Rel (fun path type => path.Denotes type) declaration.resultType result)
      (declares : lowering.declarations.declareFunction declaration.lowLevelName .exported
        (loweredSignature lowering.target types result) = .ok (number, declared))
      (ofBody : EmitsBody lowering.scopes declaration types
        (.start declaration.lowLevelName (loweredSignature lowering.target types result)) insts
        tail code) :
      Finishes lowering declaration
        ⟨number, loweredSignature lowering.target types result, code⟩
        { lowering with declarations := declared, context := code }

theorem finishes_of_finish {lowering after : Lowering} {declaration : FunctionDecl}
    {finished : Finished} (succeeds : finish declaration lowering = .ok finished after) :
    Finishes lowering declaration finished after := by
  obtain ⟨types, _, ofTypes, succeeds⟩ := bind_eq_ok_iff.mp succeeds
  obtain ⟨typesResolved, rfl⟩ := ofExcept_eq_ok_iff.mp ofTypes
  obtain ⟨result, _, ofResult, succeeds⟩ := bind_eq_ok_iff.mp succeeds
  obtain ⟨resultResolved, rfl⟩ := ofExcept_eq_ok_iff.mp ofResult
  rw [clearContext_bind, signContext_bind, get_bind] at succeeds
  obtain ⟨number, _, declaring, succeeds⟩ := bind_eq_ok_iff.mp succeeds
  obtain ⟨declared, declares, rfl⟩ := declareFunction_eq_ok_iff.mp declaring
  rw [openContext_bind, get_bind] at succeeds
  obtain ⟨code, _, lowered, succeeds⟩ := bind_eq_ok_iff.mp succeeds
  have denoteParameters := ScalarType.ofParameters_eq_ok_iff.mp typesResolved
  obtain ⟨⟨insts, tail, ofBody⟩, rfl⟩ :=
    (inScope_functionBody_eq_ok_iff denoteParameters.length_eq).mp lowered
  rw [setContext_bind] at succeeds
  obtain ⟨rfl, rfl⟩ := pure_eq_ok_iff.mp succeeds
  rw [Ir.Function.openBlock_sign_cleared] at ofBody
  exact .intro denoteParameters (ScalarType.ofResult_eq_ok_iff.mp resultResolved) declares ofBody

end Lower

end ScalarLang
