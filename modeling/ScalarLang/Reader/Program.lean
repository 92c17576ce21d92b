import ScalarLang.Reader.Expression

/-!
# Reading functions and programs

A program is one function or more, each on lines of its own.
-/

set_option autoImplicit false

namespace ScalarLang

namespace Read

variable {α : Type}

def typeNames : Nat → Read (List Ident)
  | 0 => exhausted
  | fuel + 1 => do
    if ← eat (.symbol .dot) then
      let token ← expect .typeName
      let others ← typeNames fuel
      return ⟨token.text, token.span⟩ :: others
    else
      return []

def typePath (fuel : Nat) : Read TypePath := do
  let token ← expect .typeName
  let inner ← typeNames fuel
  return ⟨⟨token.text, token.span⟩, inner, (← get).previous⟩

def parameter (fuel : Nat) : Read Parameter := do
  let name ← identifier
  let _ ← expect (.symbol .colon)
  let type ← typePath fuel
  return ⟨name, type⟩

def parameterList : Nat → Read (List Parameter)
  | 0 => exhausted
  | fuel + 1 => do
    if (← get).isAt .identifier then
      let first ← parameter fuel
      if ← eat (.symbol .comma) then
        skipNewlines
        let others ← parameterList fuel
        return first :: others
      else
        return [first]
    else
      return []

def resultType (fuel : Nat) : Read (Option TypePath) := do
  if ← eat (.symbol .arrow) then
    let type ← typePath fuel
    return some type
  else
    return none

def function (fuel : Nat) : Read FunctionDecl := do
  let _ ← expect (.keyword .kwFn)
  let name ← identifier
  let _ ← expect (.symbol .leftParen)
  skipNewlines
  let parameters ← parameterList fuel
  let _ ← expect (.symbol .rightParen)
  let resultType ← resultType fuel
  let body ← block fuel
  return ⟨name, parameters, resultType, body⟩

/-- A function, or a construct that cannot be read yet. -/
def item (fuel : Nat) : Read FunctionDecl := do
  let reader ← get
  if reader.isAt (.keyword .kwImport) then fail (.notYetSupported .imports)
  else if reader.isAt (.keyword .kwStruct) then fail (.notYetSupported .structures)
  else if reader.isAt (.keyword .kwExport) then fail (.notYetSupported .exports)
  else function fuel

def itemList : Nat → Read (List FunctionDecl)
  | 0 => exhausted
  | fuel + 1 => do
    let first ← item fuel
    let reader ← get
    if reader.atEnd then
      return [first]
    else if reader.isAt .newline then
      skipNewlines
      if (← get).atEnd then
        return [first]
      else
        let others ← itemList fuel
        return first :: others
    else
      unexpected .newline

def program (fuel : Nat) : Read Module := do
  skipNewlines
  let functions ← itemList fuel
  return ⟨functions⟩

end Read

end ScalarLang
