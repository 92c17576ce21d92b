import ScalarLang.Proofs.Lowering.Functions

/-!
# What has been lowered so far

After the built-in function and some functions of a program, the state knows exactly
these: the object declares them in order after the formatted output of the system,
each of them is defined, and the outermost scope binds each low-level name to its own
function.  So a function is lowered if and only if its low-level name is new, its types
are known and the code of its body is well formed.
-/

set_option autoImplicit false

namespace ScalarLang

structure Callable where
  declaration : FunctionDecl
  signature : Ir.Signature

namespace Callable

def name (callable : Callable) : String := callable.declaration.lowLevelName

def print (target : Target) : Callable := ⟨Builtin.print, Builtin.printSignature target⟩

def entry (callable : Callable) : FunctionEntry :=
  ⟨callable.name, .exported, callable.signature, true⟩

inductive Declared (target : Target) (callable : Callable) : Prop where
  | intro {types : List ScalarType} {result : Option ScalarType}
      (denoteParameters : List.Forall₂ (fun parameter type => parameter.type.Denotes type)
        callable.declaration.parameters types)
      (denoteResult : Option.Rel (fun path type => path.Denotes type)
        callable.declaration.resultType result)
      (hasSignature : callable.signature = loweredSignature target types result)

theorem print_declared (target : Target) : (print target).Declared target := by
  have denotes : List.Forall₂ (fun parameter type => parameter.type.Denotes type)
      (print target).declaration.parameters [.int] :=
    .cons ⟨rfl, rfl⟩ .nil
  have noResult : Option.Rel (fun path type => path.Denotes type)
      (print target).declaration.resultType none :=
    .none
  exact .intro denotes noResult rfl

end Callable

namespace Declarations

variable {declarations : Declarations} {name : String}

theorem findFunction?_eq_none_iff :
    declarations.findFunction? name = none ↔
      ∀ entry ∈ declarations.functions.toList, entry.name ≠ name := by
  unfold findFunction?
  rw [Array.find?_eq_none]
  constructor
  · intro absent entry member same
    obtain ⟨index, inside, rfl⟩ := List.mem_iff_getElem.mp member
    refine absent (declarations.functions.toList[index], index) ?_ (by simpa using same)
    rw [Array.mem_zipIdx_iff_getElem?]
    simp
  · rintro absent ⟨entry, index⟩ member same
    rw [Array.mem_zipIdx_iff_getElem?] at member
    exact absent entry (by simpa using Array.mem_of_getElem? member) (by simpa using same)

theorem findFunction?_eq_some {entry : FunctionEntry} {number : Nat}
    (found : declarations.findFunction? name = some (entry, number)) :
    declarations.functions[number]? = some entry ∧ entry.name = name := by
  unfold findFunction? at found
  have member := Array.mem_of_find?_eq_some found
  rw [Array.mem_zipIdx_iff_getElem?] at member
  exact ⟨member, by simpa using Array.find?_some found⟩

end Declarations

/-- The state after the built-in function and some functions of a program. -/
structure Registered (lowering : Lowering) (before : List Callable) : Prop where
  noInner : lowering.scopes.inner = []
  entries : lowering.declarations.functions.toList =
    ⟨Builtin.systemPrint, .imported, Builtin.systemSignature lowering.target, false⟩ ::
      ⟨Builtin.print.lowLevelName, .hidden, Builtin.printSignature lowering.target, true⟩ ::
        before.map Callable.entry
  bindings : ∀ name binding, lowering.scopes.outermost.find? name = some binding ↔
    ∃ index callable, (Callable.print lowering.target :: before)[index]? = some callable ∧
      callable.name = name ∧
        binding = .function callable.declaration (index + 1) callable.signature
  distinct : ((Callable.print lowering.target :: before).map Callable.name).Nodup
  declared : ∀ callable ∈ Callable.print lowering.target :: before,
    callable.Declared lowering.target

def Lowering.withFunction (lowering : Lowering) (callable : Callable) (code : Ir.Function) :
    Lowering :=
  { lowering with
    declarations := { lowering.declarations with
      functions := lowering.declarations.functions.push callable.entry }
    scopes := lowering.scopes.insert callable.name
      (.function callable.declaration lowering.declarations.functions.size callable.signature)
    recorded := lowering.recorded.push code
    context := code }

theorem lowLevelName_ne_systemPrint (function : FunctionDecl) :
    function.lowLevelName ≠ Builtin.systemPrint := by
  intro same
  have member : '_' ∈ function.lowLevelName.toList := by
    simp [FunctionDecl.lowLevelName, mangle]
  rw [same] at member
  revert member
  decide

theorem nodup_append_singleton {α : Type} {list : List α} {last : α} (distinct : list.Nodup)
    (fresh : last ∉ list) : (list ++ [last]).Nodup := by
  refine List.nodup_append.mpr ⟨distinct, by simp, ?_⟩
  intro value member other isLast same
  rw [List.mem_singleton.mp isLast] at same
  exact fresh (same ▸ member)

theorem exists_getElem?_append_singleton {α : Type} {list : List α} {last : α}
    {property : Nat → α → Prop} :
    (∃ index found, (list ++ [last])[index]? = some found ∧ property index found) ↔
      (∃ index found, list[index]? = some found ∧ property index found) ∨
        property list.length last := by
  constructor
  · rintro ⟨index, found, stands, holds⟩
    rcases Nat.lt_or_ge index list.length with inside | outside
    · rw [List.getElem?_append_left inside] at stands
      exact .inl ⟨index, found, stands, holds⟩
    · rw [List.getElem?_append_right outside] at stands
      obtain ⟨rfl, rfl⟩ : list.length = index ∧ last = found := by
        rw [List.getElem?_singleton] at stands
        split at stands
        · exact ⟨by omega, by simpa using stands⟩
        · cases stands
      exact .inr holds
  · rintro (⟨index, found, stands, holds⟩ | holds)
    · refine ⟨index, found, ?_, holds⟩
      rw [List.getElem?_append_left (List.getElem?_eq_some_iff.mp stands).1]
      exact stands
    · exact ⟨list.length, last, by simp, holds⟩

namespace Registered

variable {lowering after : Lowering} {before : List Callable}

theorem functions_size (registered : Registered lowering before) :
    lowering.declarations.functions.size = before.length + 2 := by
  rw [← Array.length_toList, registered.entries]
  simp

theorem fresh_iff (registered : Registered lowering before) (function : FunctionDecl) :
    lowering.declarations.findFunction? function.lowLevelName = none ↔
      function.lowLevelName ∉ (Callable.print lowering.target :: before).map Callable.name := by
  have system := lowLevelName_ne_systemPrint function
  rw [Declarations.findFunction?_eq_none_iff, registered.entries]
  simp only [List.mem_cons, List.mem_map, List.map_cons, not_or, not_exists, not_and]
  constructor
  · intro absent
    refine ⟨?_, ?_⟩
    · intro same
      exact absent _ (.inr (.inl rfl)) same.symm
    · intro callable member same
      exact absent callable.entry (.inr (.inr ⟨callable, member, rfl⟩)) same
  · rintro ⟨notPrint, notBefore⟩ entry (rfl | rfl | ⟨callable, member, rfl⟩)
    · exact fun same => system same.symm
    · exact fun same => notPrint same.symm
    · exact notBefore callable member

theorem declareFunction_of_fresh {declarations : Declarations} {name : String}
    (fresh : declarations.findFunction? name = none) (linkage : Linkage)
    (signature : Ir.Signature) :
    declarations.declareFunction name linkage signature =
      .ok (declarations.functions.size, { declarations with
        functions := declarations.functions.push ⟨name, linkage, signature, false⟩ }) := by
  simp [Declarations.declareFunction, fresh]

theorem defineFunction_of_declared (functions : Array FunctionEntry) (data : Array DataEntry)
    (entry : FunctionEntry) (undefined : entry.defined = false) :
    Declarations.defineFunction ⟨functions.push entry, data⟩ functions.size =
      .ok ⟨functions.push { entry with defined := true }, data⟩ := by
  have set : (functions.push entry).setIfInBounds functions.size { entry with defined := true } =
      functions.push { entry with defined := true } := by
    apply Array.ext'
    simp
  simp [Declarations.defineFunction, undefined, set]

/-- A name that is known already is refused: its signature is another one, or it is
defined again. -/
theorem defineFunction_of_known (registered : Registered lowering before)
    {function : FunctionDecl} {linkage : Linkage} {signature : Ir.Signature} {number : Nat}
    {declared defined : Declarations}
    (declares : lowering.declarations.declareFunction function.lowLevelName linkage signature =
      .ok (number, declared))
    (known : lowering.declarations.findFunction? function.lowLevelName ≠ none) :
    declared.defineFunction number ≠ .ok defined := by
  obtain ⟨⟨entry, found⟩, finds⟩ := Option.ne_none_iff_exists'.mp known
  obtain ⟨stands, named⟩ := Declarations.findFunction?_eq_some finds
  have isDefined : entry.defined = true := by
    have member : entry ∈ lowering.declarations.functions.toList := by
      simpa using Array.mem_of_getElem? stands
    rw [registered.entries] at member
    simp only [List.mem_cons, List.mem_map] at member
    rcases member with rfl | rfl | ⟨callable, -, rfl⟩
    · exact absurd named.symm (lowLevelName_ne_systemPrint function)
    · rfl
    · rfl
  simp only [Declarations.declareFunction, finds] at declares
  split at declares
  · cases declares
    simp [Declarations.defineFunction, stands, isDefined]
  · cases declares

/-- A function of a program is lowered exactly if its name is new, its types are known
and its code is well formed. -/
theorem lowersFunction_iff (registered : Registered lowering before) {function : FunctionDecl} :
    LowersFunction lowering function after ↔
      function.lowLevelName ∉ (Callable.print lowering.target :: before).map Callable.name ∧
      ∃ types result insts tail code,
        List.Forall₂ (fun parameter type => parameter.type.Denotes type)
          function.parameters types ∧
        Option.Rel (fun path type => path.Denotes type) function.resultType result ∧
        EmitsBody lowering.scopes function types
          (.start function.lowLevelName (loweredSignature lowering.target types result)) insts
          tail code ∧
        code.check = true ∧
        lowering.withFunction ⟨function, loweredSignature lowering.target types result⟩ code =
          after := by
  rw [← registered.fresh_iff]
  constructor
  · rintro ⟨denoteParameters, denoteResult, declares, ofBody, checked, defines⟩
    have fresh : lowering.declarations.findFunction? function.lowLevelName = none := by
      by_contra known
      exact registered.defineFunction_of_known declares known defines
    rw [declareFunction_of_fresh fresh] at declares
    cases declares
    rw [defineFunction_of_declared _ _ _ rfl] at defines
    cases defines
    exact ⟨fresh, _, _, _, _, _, denoteParameters, denoteResult, ofBody, checked, rfl⟩
  · rintro ⟨fresh, types, result, insts, tail, code, denoteParameters, denoteResult, ofBody,
      checked, rfl⟩
    exact .step denoteParameters denoteResult (declareFunction_of_fresh fresh _ _) ofBody checked
      (defineFunction_of_declared _ _ _ rfl)

/-- The functions lowered so far are known after one more. -/
theorem withFunction (registered : Registered lowering before) {callable : Callable}
    (code : Ir.Function) (declared : callable.Declared lowering.target)
    (fresh : callable.name ∉ (Callable.print lowering.target :: before).map Callable.name) :
    Registered (lowering.withFunction callable code) (before ++ [callable]) := by
  have size := registered.functions_size
  obtain ⟨target, declarations, ⟨inner, outermost⟩, recorded⟩ := lowering
  obtain rfl : inner = [] := registered.noInner
  refine ⟨rfl, ?_, ?_, ?_, ?_⟩
  · have entries := registered.entries
    simp only [Lowering.withFunction, Array.toList_push] at entries ⊢
    rw [entries]
    simp
  · intro name binding
    change (outermost.insert callable.name _).find? name = some binding ↔ _
    have earlier := registered.bindings name binding
    simp only at earlier size
    rw [Scope.find?_insert]
    change _ ↔ ∃ index found, (Callable.print target :: (before ++ [callable]))[index]? = _ ∧ _
    simp only [← List.cons_append, exists_getElem?_append_singleton, List.length_cons]
    by_cases same : name = callable.name
    · subst same
      have absent : ¬ ∃ index found, (Callable.print target :: before)[index]? = some found ∧
          found.name = callable.name ∧
            binding = .function found.declaration (index + 1) found.signature := by
        rintro ⟨index, found, stands, sameName, -⟩
        exact fresh (List.mem_map.mpr ⟨found, List.mem_of_getElem? stands, sameName⟩)
      rw [if_pos rfl, or_iff_right absent, size]
      simp [eq_comm]
    · have different : ¬ callable.name = name := fun equal => same equal.symm
      rw [if_neg same, earlier]
      simp [different]
  · change ((Callable.print target :: (before ++ [callable])).map Callable.name).Nodup
    rw [← List.cons_append, List.map_append]
    exact nodup_append_singleton registered.distinct fresh
  · intro found member
    change found ∈ Callable.print target :: (before ++ [callable]) at member
    rw [← List.cons_append] at member
    rcases List.mem_append.mp member with member | member
    · exact registered.declared found member
    · rw [List.mem_singleton.mp member]
      exact declared

end Registered

/-! ## Programs -/

inductive LoweredAfter (target : Target) (before : List Callable) (callable : Callable)
    (code : Ir.Function) : Prop where
  | intro {lowering : Lowering} {types : List ScalarType} {result : Option ScalarType}
      {insts tail : List Ir.Inst}
      (registered : Registered lowering before) (sameTarget : lowering.target = target)
      (denoteParameters : List.Forall₂ (fun parameter type => parameter.type.Denotes type)
        callable.declaration.parameters types)
      (denoteResult : Option.Rel (fun path type => path.Denotes type)
        callable.declaration.resultType result)
      (hasSignature : callable.signature = loweredSignature target types result)
      (ofBody : EmitsBody lowering.scopes callable.declaration types
        (.start callable.name callable.signature) insts tail code)
      (checked : code.check = true)

inductive LoweredInOrder (target : Target) :
    List Callable → List (Callable × Ir.Function) → Prop where
  | none (before : List Callable) : LoweredInOrder target before []
  | next {before : List Callable} {callable : Callable} {code : Ir.Function}
      {rest : List (Callable × Ir.Function)}
      (ofFirst : LoweredAfter target before callable code)
      (ofRest : LoweredInOrder target (before ++ [callable]) rest) :
      LoweredInOrder target before ((callable, code) :: rest)

/-- What lowering functions one after the other leaves. -/
theorem LowersFunctions.inOrder {lowering after : Lowering} {functions : List FunctionDecl}
    (lowers : LowersFunctions lowering functions after) :
    ∀ {before}, Registered lowering before → ∃ lowered : List (Callable × Ir.Function),
      lowered.map (fun pair => pair.1.declaration) = functions ∧
      LoweredInOrder lowering.target before lowered ∧
      Registered after (before ++ lowered.map Prod.fst) ∧
      after.recorded.toList = lowering.recorded.toList ++ lowered.map Prod.snd ∧
      after.target = lowering.target := by
  induction lowers with
  | none lowering =>
      intro before registered
      exact ⟨[], rfl, .none before, by simpa using registered, by simp, rfl⟩
  | @next lowering middle after first rest ofFirst ofRest inductionHypothesis =>
      intro before registered
      obtain ⟨fresh, types, result, insts, tail, code, denoteParameters, denoteResult, ofBody,
        checked, rfl⟩ := registered.lowersFunction_iff.mp ofFirst
      obtain ⟨lowered, sameFunctions, inOrder, registeredAfter, recorded, sameTarget⟩ :=
        inductionHypothesis (registered.withFunction code
          (.intro denoteParameters denoteResult rfl) fresh)
      refine ⟨(_, code) :: lowered, ?_, .next ?_ inOrder, ?_, ?_, sameTarget⟩
      · simp [sameFunctions]
      · exact .intro registered rfl denoteParameters denoteResult rfl ofBody checked
      · simpa using registeredAfter
      · simpa [Lowering.withFunction] using recorded

def Lowering.withBuiltins (target : Target) : Lowering where
  target := target
  declarations :=
    { functions := #[⟨Builtin.systemPrint, .imported, Builtin.systemSignature target, false⟩,
        ⟨Builtin.print.lowLevelName, .hidden, Builtin.printSignature target, true⟩]
      data := #[⟨Builtin.formatName, .hidden, true⟩] }
  scopes := ⟨[], [(Builtin.print.lowLevelName,
    .function Builtin.print 1 (Builtin.printSignature target))]⟩
  recorded := #[Builtin.printCode target 0]
  context := Builtin.printCode target 0

theorem Builtin.check_printCode (target : Target) : (printCode target 0).check = true := by
  obtain ⟨architecture, convention, pointer, format, isSupported⟩ := target
  cases convention <;> cases pointer <;> rfl

/-- The built-in function does not depend on what the context held before. -/
theorem Lower.builtins_eq (target : Target) (context : Ir.Function) :
    Lower.builtins ⟨target, .empty, .empty, #[], context⟩ = .ok () (.withBuiltins target) := by
  have declaresSystem : declareFunctionOn .standard Builtin.systemPrint .imported
      (Builtin.systemSignature target) ⟨target, .empty, .empty, #[], context⟩ =
      .ok 0 ⟨target, ⟨#[⟨Builtin.systemPrint, .imported, Builtin.systemSignature target, false⟩],
        #[]⟩, .empty, #[], context⟩ := rfl
  have definesData : ∀ functions : Array FunctionEntry, defineDataOn .standard Builtin.formatName
      ⟨target, ⟨functions, #[]⟩, .empty, #[], context⟩ =
      .ok () ⟨target, ⟨functions, #[⟨Builtin.formatName, .hidden, true⟩]⟩, .empty, #[],
        context⟩ := fun _ => rfl
  have declaresPrint : ∀ code : Ir.Function, declareFunctionOn .standard
      Builtin.print.lowLevelName .hidden (Builtin.printSignature target)
      ⟨target, ⟨#[⟨Builtin.systemPrint, .imported, Builtin.systemSignature target, false⟩],
        #[⟨Builtin.formatName, .hidden, true⟩]⟩, .empty, #[], code⟩ =
      .ok 1 ⟨target, ⟨#[⟨Builtin.systemPrint, .imported, Builtin.systemSignature target, false⟩,
        ⟨Builtin.print.lowLevelName, .hidden, Builtin.printSignature target, false⟩],
        #[⟨Builtin.formatName, .hidden, true⟩]⟩, .empty, #[], code⟩ := fun _ => rfl
  unfold builtins builtinsOn
  rw [get_bind, bind_of_ok declaresSystem, bind_of_ok (definesData _), clearContext_bind,
    signContext_bind, get_bind]
  refine (bind_of_ok (declaresPrint _)).trans ?_
  rw [openContext_bind, get_bind, setContext_bind, get_bind, Ir.Function.openBlock_sign_cleared]
  exact bind_of_ok (defineFunction_eq_ok_iff.mpr ⟨Builtin.check_printCode target, _, rfl, rfl⟩)

theorem Registered.withBuiltins (target : Target) :
    Registered (.withBuiltins target) [] := by
  have declared : ∀ callable ∈ [Callable.print target], callable.Declared target := by
    intro callable member
    rw [List.mem_singleton.mp member]
    exact Callable.print_declared target
  refine ⟨rfl, rfl, ?_, by simp, declared⟩
  intro name binding
  change (if Builtin.print.lowLevelName = name then _ else none) = _ ↔ _
  constructor
  · intro found
    split at found
    · rename_i same
      cases found
      exact ⟨0, Callable.print target, rfl, same, rfl⟩
    · cases found
  · rintro ⟨index, callable, stands, same, rfl⟩
    obtain ⟨rfl, rfl⟩ : index = 0 ∧ Callable.print target = callable := by
      cases index with
      | zero => exact ⟨rfl, by simpa [Lowering.withBuiltins] using stands⟩
      | succ index => simp at stands
    exact if_pos same

theorem Lower.program_eq (program : Module) (target : Target) (context : Ir.Function) :
    Lower.program program ⟨target, .empty, .empty, #[], context⟩ =
      Lower.functions program.functions (.withBuiltins target) :=
  bind_of_ok (Lower.builtins_eq target context)

theorem Lower.program_eq_ok_iff {program : Module} {target : Target} {after : Lowering} :
    Lower.program program (.initial target) = .ok () after ↔
      LowersFunctions (.withBuiltins target) program.functions after := by
  rw [← Lower.functions_eq_ok_iff, Lowering.initial, Lower.program_eq]

theorem Lowering.start_eq_ok_iff {target : Target} {lowering : Lowering} :
    Lowering.start target = .ok lowering ↔
      (target.isSupported = true ∧ target.format.isSupported = true) ∧
        (.initial target) = lowering := by
  unfold Lowering.start
  by_cases supported : target.isSupported = true
  · by_cases writable : target.format.isSupported = true
    · simp [supported, writable]
    · simp [supported, writable]
  · simp [supported]

theorem Lowering.addProgram_eq_ok_iff {lowering after : Lowering} {program : Module} :
    lowering.addProgram program = (.ok (), after) ↔
      Lower.program program lowering = .ok () after := by
  unfold Lowering.addProgram Lowering.addProgramOn Lower.program
  cases Lower.programOn .standard program lowering with
  | ok value after => simp
  | error failure after => simp

end ScalarLang
