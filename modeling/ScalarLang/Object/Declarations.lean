import ScalarLang.Ir.Type
import ScalarLang.Object.Target

/-!
# Declarations of an object

An object declares functions and data by name.  A name may be declared again with
the same signature, which gives the same number; it may be defined once.  The
symbols of an object are its declarations and its own name.
-/

set_option autoImplicit false

namespace ScalarLang

inductive Linkage where
  /-- Defined in another object. -/
  | imported
  /-- Seen in this object only. -/
  | hidden
  /-- Seen by other objects. -/
  | exported
deriving DecidableEq, Repr

def Linkage.text : Linkage → String
  | .imported => "import"
  | .hidden => "local"
  | .exported => "export"

structure FunctionEntry where
  name : String
  linkage : Linkage
  signature : Ir.Signature
  defined : Bool
deriving DecidableEq, Repr

structure DataEntry where
  name : String
  linkage : Linkage
  defined : Bool
deriving DecidableEq, Repr

inductive ObjectError where
  /-- Objects of a format cannot be written. -/
  | unsupportedFormat (format : ObjectFormat)
  /-- A name was declared with another signature before. -/
  | incompatibleSignature (name : String) (previous requested : Ir.Signature)
  /-- A name was defined before. -/
  | duplicateDefinition (name : String)
deriving DecidableEq, Repr

structure Declarations where
  functions : Array FunctionEntry
  data : Array DataEntry
deriving DecidableEq, Repr

namespace Declarations

def empty : Declarations := ⟨#[], #[]⟩

def findFunction? (declarations : Declarations) (name : String) :
    Option (FunctionEntry × Nat) :=
  declarations.functions.zipIdx.find? fun entry => entry.1.name == name

def findData? (declarations : Declarations) (name : String) : Option (DataEntry × Nat) :=
  declarations.data.zipIdx.find? fun entry => entry.1.name == name

def declareFunction (declarations : Declarations) (name : String) (linkage : Linkage)
    (signature : Ir.Signature) : Except ObjectError (Nat × Declarations) :=
  match declarations.findFunction? name with
  | some (entry, number) =>
    if entry.signature = signature then .ok (number, declarations)
    else .error (.incompatibleSignature name entry.signature signature)
  | none =>
    .ok (declarations.functions.size, { declarations with
      functions := declarations.functions.push ⟨name, linkage, signature, false⟩ })

def declareData (declarations : Declarations) (name : String) (linkage : Linkage) :
    Nat × Declarations :=
  match declarations.findData? name with
  | some (_, number) => (number, declarations)
  | none =>
    (declarations.data.size,
      { declarations with data := declarations.data.push ⟨name, linkage, false⟩ })

def defineFunction (declarations : Declarations) (number : Nat) :
    Except ObjectError Declarations :=
  match declarations.functions[number]? with
  | some entry =>
    if entry.defined then .error (.duplicateDefinition entry.name)
    else .ok { declarations with
      functions := declarations.functions.setIfInBounds number { entry with defined := true } }
  | none => .ok declarations

def defineData (declarations : Declarations) (number : Nat) :
    Except ObjectError Declarations :=
  match declarations.data[number]? with
  | some entry =>
    if entry.defined then .error (.duplicateDefinition entry.name)
    else .ok { declarations with
      data := declarations.data.setIfInBounds number { entry with defined := true } }
  | none => .ok declarations

end Declarations

/-! ## Symbols -/

inductive SymbolKind where
  | data
  | file
  | text
  | unknown
deriving DecidableEq, Repr

def SymbolKind.name : SymbolKind → String
  | .data => "Data"
  | .file => "File"
  | .text => "Text"
  | .unknown => "Unknown"

structure ObjectSymbol where
  name : String
  kind : SymbolKind
  linkage : Linkage
deriving DecidableEq, Repr

namespace ObjectSymbol

def precedes (left right : ObjectSymbol) : Bool :=
  if left.name = right.name then decide (left.kind.name ≤ right.kind.name)
  else decide (left.name < right.name)

def ofFunction (entry : FunctionEntry) : ObjectSymbol :=
  ⟨entry.name, if entry.linkage = .imported then .unknown else .text, entry.linkage⟩

def ofData (entry : DataEntry) : ObjectSymbol := ⟨entry.name, .data, entry.linkage⟩

end ObjectSymbol

def Declarations.symbols (declarations : Declarations) (name : String) : List ObjectSymbol :=
  let symbols : List ObjectSymbol :=
    ⟨name, .file, .hidden⟩ ::
      (declarations.functions.toList.map ObjectSymbol.ofFunction ++
        declarations.data.toList.map ObjectSymbol.ofData)
  symbols.mergeSort ObjectSymbol.precedes

end ScalarLang
