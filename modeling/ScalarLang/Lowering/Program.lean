import ScalarLang.Lowering.Function

/-!
# Lowering programs

Every program can call one function without declaring it, which prints an integer.
It is lowered before the functions of the program.
-/

set_option autoImplicit false

namespace ScalarLang

namespace Builtin

def print : FunctionDecl :=
  { name := ⟨"print_arg", .empty 0⟩
    parameters := [⟨⟨"arg", .empty 0⟩, .simple ⟨"Int", .empty 0⟩⟩]
    resultType := none
    body := ⟨[], none⟩ }

def systemPrint : String := "printf"

def formatName : String := print.lowLevelName ++ ".format"

def systemSignature (target : Target) : Ir.Signature :=
  ⟨[target.pointer, .i64], [.i32], target.convention⟩

def printSignature (target : Target) : Ir.Signature := ⟨[.i64], [], target.convention⟩

def printBody (target : Target) (system : Nat) (code : Ir.Function) : Ir.Function :=
  let (format, code) := code.addSymbol 1
  let (address, code) := code.define target.pointer (.globalValue target.pointer format)
  let (_, code) := code.addCall system false (systemSignature target) [address, 0]
  code.emit (.ret [])

def printCode (target : Target) (system : Nat) : Ir.Function :=
  printBody target system (.start print.lowLevelName (printSignature target))

end Builtin

namespace Lower

def builtinsOn (backEnd : BackEnd) : Lower Unit := do
  let target := (← get).target
  let system ←
    declareFunctionOn backEnd Builtin.systemPrint .imported (Builtin.systemSignature target)
  defineDataOn backEnd Builtin.formatName
  clearContext
  signContext Builtin.print.lowLevelName [.i64] []
  let signature := (← get).context.signature
  let number ← declareFunctionOn backEnd Builtin.print.lowLevelName .hidden signature
  openContext
  setContext (Builtin.printBody target system (← get).context)
  defineFunctionOn backEnd number (← get).context
  bind Builtin.print.lowLevelName (.function Builtin.print number signature)

def programOn (backEnd : BackEnd) (program : Module) : Lower Unit := do
  builtinsOn backEnd
  functionsOn backEnd program.functions

def builtins : Lower Unit := builtinsOn .standard

def program : Module → Lower Unit := programOn .standard

end Lower

namespace Lowering

def initial (target : Target) : Lowering :=
  ⟨target, .empty, .empty, #[], .cleared target.convention⟩

/-- The state before the first program, for a target that code can be made for and
whose objects can be written. -/
def start (target : Target) : Except LoweringError Lowering :=
  if target.isSupported then
    if target.format.isSupported then .ok (initial target)
    else .error (.object (.unsupportedFormat target.format))
  else .error (.unsupportedArchitecture target.architecture)

def addProgramOn (lowering : Lowering) (backEnd : BackEnd) (program : Module) :
    Except LoweringError Unit × Lowering :=
  match Lower.programOn backEnd program lowering with
  | .ok () after => (.ok (), after)
  | .error error after => (.error error, after)

def addProgram (lowering : Lowering) (program : Module) : Except LoweringError Unit × Lowering :=
  lowering.addProgramOn .standard program

theorem addProgramOn_standard (lowering : Lowering) (program : Module) :
    lowering.addProgramOn .standard program = lowering.addProgram program := rfl

/-- The listings of the recorded functions, each with an empty line after it. -/
def ir (lowering : Lowering) : String :=
  String.join (lowering.recorded.toList.map fun code => code.listing ++ "\n")

end Lowering

end ScalarLang
