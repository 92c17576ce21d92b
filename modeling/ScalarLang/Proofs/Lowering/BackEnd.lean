import ScalarLang.Proofs.Typing.WellBuilt

/-!
# What lowering asks of a back end

Lowering leaves to a back end whether code is well formed, what is declared and defined in an
object, and what becomes of code once it is defined.  What it relies on is said here for each
operation: the verifier only has to judge well-built code, a name declared again may get another
linkage, and a definition may leave anything in the context.  The check of code and the
declarations of an object meet this.
-/

set_option autoImplicit false

namespace ScalarLang

/-! ## The verdict on well-built code -/

namespace Ir.Function

variable {function : Function}

/-- The arguments of all calls and all results have the types that are asked for. -/
structure Fits (function : Function) : Prop where
  calls : function.CallsTyped function.body.toList
  results : ∀ values, ⟨none, .ret values⟩ ∈ function.body.toList →
    values.map function.typeOf? = function.signature.results.map some

theorem append_eq_range {first last : Nat} {left right : List Nat}
    (same : List.range first ++ (left ++ right) = List.range last) :
    List.range first ++ left = List.range (first + left.length) := by
  rw [← List.append_assoc] at same
  have taken := congrArg (List.take (first + left.length)) same
  have size : (List.range first ++ left).length = first + left.length := by simp
  have fits : first + left.length ≤ last := by
    have total := congrArg List.length same
    simp only [List.length_append, List.length_range] at total
    omega
  rwa [← size, List.take_left, size, List.take_range, Nat.min_eq_left fits] at taken

def definedAfter (function : Function) (insts : List Inst) : Nat :=
  function.signature.params.length + (insts.filterMap Inst.result).length

namespace WellBuilt

theorem range_eq (wellBuilt : function.WellBuilt) {before after : List Inst}
    (split : function.body.toList = before ++ after) :
    List.range function.signature.params.length ++ before.filterMap Inst.result =
      List.range (function.definedAfter before) := by
  have defined := wellBuilt.defined
  rw [split, List.filterMap_append] at defined
  exact append_eq_range defined

theorem used_lt (wellBuilt : function.WellBuilt) {before after : List Inst} {inst : Inst}
    (split : function.body.toList = before ++ inst :: after) {value : Value}
    (isUsed : value ∈ inst.op.operands) : value < function.definedAfter before := by
  rw [← List.mem_range, ← wellBuilt.range_eq split, List.mem_append, List.mem_range,
    List.mem_filterMap]
  exact wellBuilt.used before inst after split value isUsed

theorem result_eq (wellBuilt : function.WellBuilt) {before after : List Inst} {inst : Inst}
    (split : function.body.toList = before ++ inst :: after) {value : Value}
    (isResult : inst.result = some value) : value = function.definedAfter before := by
  have splitAfter : function.body.toList = (before ++ [inst]) ++ after := by simp [split]
  have ranges := wellBuilt.range_eq splitAfter
  have defined : function.definedAfter (before ++ [inst]) = function.definedAfter before + 1 := by
    simp [definedAfter, isResult, Nat.add_assoc]
  rw [List.filterMap_append, ← List.append_assoc, wellBuilt.range_eq split, defined,
    List.range_succ] at ranges
  simpa [isResult] using ranges

theorem wellTyped_of_fits (wellBuilt : function.WellBuilt) (fits : function.Fits) {inst : Inst}
    (member : inst ∈ function.body.toList) :
    function.wellTyped inst.op (inst.result.bind function.typeOf?) = true := by
  obtain ⟨result, op⟩ := inst
  by_cases isCalled : isCall op = true
  · cases op with
    | call callee arguments =>
        obtain ⟨signature, found, -, isResult⟩ := wellBuilt.calls result callee arguments member
        obtain ⟨other, again, typed⟩ := fits.calls result callee arguments member
        obtain rfl : signature = other := Option.some.inj (found.symm.trans again)
        simp only [wellTyped, found, haveTypes_iff.mpr typed, isResult, beq_self_eq_true,
          Bool.and_self]
    | _ => cases isCalled
  by_cases returns : isReturn op = true
  · obtain ⟨insts, values, body, noReturns, -⟩ := wellBuilt.returns
    rw [body, List.mem_append, List.mem_singleton] at member
    rcases member with member | isLast
    · exact absurd (noReturns _ member) (by simp [returns])
    · cases isLast
      have typed := fits.results values (by simp [body])
      simp [wellTyped, haveTypes_iff.mpr typed]
  · exact wellBuilt.typed _ member (by simpa using isCalled) (by simpa using returns)

theorem checkInst_eq_true (wellBuilt : function.WellBuilt) (fits : function.Fits)
    {before after : List Inst} {inst : Inst}
    (split : function.body.toList = before ++ inst :: after) :
    function.checkInst (function.definedAfter before) inst = true := by
  have typed := wellBuilt.wellTyped_of_fits fits (by simp [split] : inst ∈ function.body.toList)
  have used : inst.op.operands.all (· < function.definedAfter before) = true := by
    rw [List.all_eq_true]
    exact fun value isUsed => decide_eq_true (wellBuilt.used_lt split isUsed)
  unfold checkInst
  rw [used, Bool.true_and]
  cases isResult : inst.result with
  | none =>
      rw [isResult] at typed
      exact typed
  | some value =>
      rw [isResult] at typed
      simp only [wellBuilt.result_eq split isResult, beq_self_eq_true, Bool.true_and]
      rw [← wellBuilt.result_eq split isResult]
      exact typed

/-- The rest of a body is in order: its return comes last, and its values are numbered on. -/
theorem checkBody_eq_true (wellBuilt : function.WellBuilt) (fits : function.Fits)
    (after : List Inst) : ∀ {before}, function.body.toList = before ++ after → after ≠ [] →
      function.checkBody (function.definedAfter before) after = true := by
  obtain ⟨insts, values, body, noReturns, -⟩ := wellBuilt.returns
  induction after with
  | nil => exact fun _ notEmpty => absurd rfl notEmpty
  | cons inst rest inductionHypothesis =>
      intro before split _
      rw [checkBody, wellBuilt.checkInst_eq_true fits split, Bool.true_and]
      rcases split_append_singleton (body.symm.trans split) with ⟨rfl, rfl⟩ | ⟨others, isInsts⟩
      · -- The return is the last instruction.
        have noRest : rest = [] := by
          rw [body] at split
          simpa using split
        subst noRest
        rfl
      · have continues : isReturn inst.op = false := noReturns inst (by simp [isInsts])
        have notEmpty : rest ≠ [] := by
          rintro rfl
          rw [body, isInsts] at split
          simp at split
        have ofRest : function.checkBody (function.definedAfter (before ++ [inst])) rest = true :=
          inductionHypothesis (by simp [split]) notEmpty
        rw [continues]
        cases isResult : inst.result with
        | none => simpa [definedAfter, isResult] using ofRest
        | some value => simpa [definedAfter, isResult, Nat.add_assoc] using ofRest

/-- All that is left to check in well-built code are the types of arguments and results. -/
theorem check_iff (wellBuilt : function.WellBuilt) : function.check = true ↔ function.Fits := by
  constructor
  · intro checked
    exact ⟨callsTyped_of_check checked, results_of_check checked⟩
  · intro fits
    have parameters := List.prefix_iff_eq_take.mp wellBuilt.parameters
    obtain ⟨insts, values, body, -⟩ := wellBuilt.returns
    have ofBody : function.checkBody (function.definedAfter []) function.body.toList = true :=
      wellBuilt.checkBody_eq_true fits _ (List.nil_append _).symm (by simp [body])
    rw [check, ← parameters, beq_self_eq_true, Bool.true_and]
    simpa [definedAfter] using ofBody

end WellBuilt

end Ir.Function

/-! ## What is asked of a back end -/

namespace Declarations

structure Unused (declarations : Declarations) (name : String) : Prop where
  function : ∀ entry ∈ declarations.functions.toList, entry.name ≠ name
  data : ∀ entry ∈ declarations.data.toList, entry.name ≠ name

def FunctionAt (declarations : Declarations) (number : Nat) (entry : FunctionEntry) : Prop :=
  declarations.functions[number]? = some entry

def setFunction (declarations : Declarations) (number : Nat) (entry : FunctionEntry) :
    Declarations :=
  ⟨declarations.functions.setIfInBounds number entry, declarations.data⟩

def Distinct (declarations : Declarations) : Prop :=
  (declarations.functions.toList.map FunctionEntry.name).Nodup

end Declarations

namespace BackEnd

/-- Well-built code is accepted exactly if its arguments and results fit. -/
def Verifies (backEnd : BackEnd) : Prop :=
  ∀ code : Ir.Function, code.WellBuilt → (backEnd.verify code = true ↔ code.Fits)

/-- A function is declared with the next number.  Its name may be declared again with the same
signature, which gives the same number and may change the linkage. -/
structure DeclaresFunctions (backEnd : BackEnd) : Prop where
  fresh : ∀ {declarations name} linkage signature, declarations.Unused name →
    backEnd.declareFunction declarations name linkage signature =
      .ok (declarations.functions.size, { declarations with
        functions := declarations.functions.push ⟨name, linkage, signature, false⟩ })
  again : ∀ {declarations number entry} linkage, declarations.Distinct →
    declarations.FunctionAt number entry →
      ∃ merged, backEnd.declareFunction declarations entry.name linkage entry.signature =
        .ok (number, declarations.setFunction number { entry with linkage := merged })
  clash : ∀ {declarations number entry signature} linkage, declarations.Distinct →
    declarations.FunctionAt number entry → entry.signature ≠ signature →
      backEnd.declareFunction declarations entry.name linkage signature =
        .error (.incompatibleSignature entry.name entry.signature signature)

/-- A function that is not imported is defined once. -/
structure DefinesFunctions (backEnd : BackEnd) : Prop where
  once : ∀ {declarations number entry}, declarations.FunctionAt number entry →
    entry.linkage ≠ .imported → entry.defined = false →
      backEnd.defineFunction declarations number =
        .ok (declarations.setFunction number { entry with defined := true })
  twice : ∀ {declarations number entry}, declarations.FunctionAt number entry →
    entry.defined = true →
      backEnd.defineFunction declarations number = .error (.duplicateDefinition entry.name)

/-- Data of a new name can be declared and then defined. -/
def AddsData (backEnd : BackEnd) : Prop :=
  ∀ {declarations : Declarations} {name : String}, declarations.Unused name →
    ∃ declared, backEnd.declareData declarations name .hidden =
        (declarations.data.size, declared) ∧
      backEnd.defineData declared declarations.data.size =
        .ok ⟨declarations.functions, declarations.data.push ⟨name, .hidden, true⟩⟩

/-- All that lowering relies on.  Nothing is asked of what a definition leaves of the code. -/
structure Meets (backEnd : BackEnd) : Prop where
  verifies : backEnd.Verifies
  declares : backEnd.DeclaresFunctions
  defines : backEnd.DefinesFunctions
  addsData : backEnd.AddsData

theorem Verifies.verify_eq {backEnd : BackEnd} (verifies : backEnd.Verifies) {code : Ir.Function}
    (wellBuilt : code.WellBuilt) : backEnd.verify code = code.check :=
  Bool.eq_iff_iff.mpr ((verifies code wellBuilt).trans wellBuilt.check_iff.symm)

end BackEnd

theorem Declarations.Distinct.findFunction?_eq {declarations : Declarations}
    (distinct : declarations.Distinct) {number : Nat} {entry : FunctionEntry}
    (stands : declarations.FunctionAt number entry) :
    declarations.findFunction? entry.name = some (entry, number) := by
  have member : entry ∈ declarations.functions.toList := by
    simpa using Array.mem_of_getElem? stands
  cases found : declarations.findFunction? entry.name with
  | none => exact absurd rfl (findFunction?_eq_none_iff.mp found entry member)
  | some pair =>
      obtain ⟨other, index⟩ := pair
      obtain ⟨standsOther, sameName⟩ := findFunction?_eq_some found
      rw [FunctionAt] at stands
      rw [← Array.getElem?_toList] at stands standsOther
      have atNumber : (declarations.functions.toList.map FunctionEntry.name)[number]? =
          some entry.name := by
        rw [List.getElem?_map, stands, Option.map_some]
      have atIndex : (declarations.functions.toList.map FunctionEntry.name)[index]? =
          some entry.name := by
        rw [List.getElem?_map, standsOther, Option.map_some, sameName]
      obtain rfl : index = number := by
        have inside := (List.getElem?_eq_some_iff.mp atIndex).1
        exact (List.getElem?_inj inside distinct).mp (atIndex.trans atNumber.symm)
      rw [standsOther] at stands
      rw [Option.some.inj stands]

/-- The declarations of an object and the check of code are such a back end. -/
theorem BackEnd.standard_meets : BackEnd.standard.Meets where
  verifies := fun _ wellBuilt => wellBuilt.check_iff
  declares :=
    { fresh := by
        intro declarations name linkage signature unused
        have absent := Declarations.findFunction?_eq_none_iff.mpr unused.function
        exact Registered.declareFunction_of_fresh absent linkage signature
      again := by
        intro declarations number entry linkage distinct stands
        refine ⟨entry.linkage, ?_⟩
        have same : declarations.setFunction number entry = declarations := by
          obtain ⟨inside, rfl⟩ := Array.getElem?_eq_some_iff.mp stands
          rw [Declarations.setFunction, Array.setIfInBounds, dif_pos inside, Array.set_getElem_self]
        rw [standard_declareFunction, Declarations.declareFunction,
          distinct.findFunction?_eq stands]
        simp [same]
      clash := by
        intro declarations number entry signature linkage distinct stands different
        rw [standard_declareFunction, Declarations.declareFunction,
          distinct.findFunction?_eq stands]
        simp [different] }
  defines :=
    { once := by
        intro declarations number entry stands _ undefined
        rw [Declarations.FunctionAt] at stands
        simp [Declarations.defineFunction, Declarations.setFunction, stands, undefined]
      twice := by
        intro declarations number entry stands isDefined
        rw [Declarations.FunctionAt] at stands
        simp [Declarations.defineFunction, stands, isDefined] }
  addsData := by
    intro declarations name unused
    have absent : declarations.findData? name = none := by
      rw [Declarations.findData?, Array.find?_eq_none]
      rintro ⟨entry, index⟩ member same
      rw [Array.mem_zipIdx_iff_getElem?] at member
      exact unused.data entry (by simpa using Array.mem_of_getElem? member) (by simpa using same)
    have set : (declarations.data.push ⟨name, .hidden, false⟩).setIfInBounds
        declarations.data.size ⟨name, .hidden, true⟩ =
          declarations.data.push ⟨name, .hidden, true⟩ := by
      apply Array.ext'
      simp
    refine ⟨{ declarations with data := declarations.data.push ⟨name, .hidden, false⟩ }, ?_, ?_⟩
    · rw [standard_declareData, Declarations.declareData, absent]
    · rw [standard_defineData, Declarations.defineData]
      simp [set]

end ScalarLang
