import ScalarLang.Proofs.Lowering.Interfaces
import ScalarLang.Proofs.Lowering.Register

/-!
# Lowering functions one by one

Lowering a function leaves nothing of its body behind but the recorded code.  Two states
agree if they differ in the bodies of the functions in scope and in what is recorded, and
from states that agree a function gives the same code or the same error.  So the code of
a function depends on what the functions before it show, and on nothing else of them.
-/

set_option autoImplicit false

namespace ScalarLang

variable {change : Nat → Nat}

/-! ## States that agree -/

/-- Two states show the same to the functions that come next. -/
structure Lowering.Agrees (lowering other : Lowering) : Prop where
  target : lowering.target = other.target
  declarations : lowering.declarations = other.declarations
  scopes : lowering.scopes.Agrees other.scopes

theorem Lowering.Agrees.refl (lowering : Lowering) : lowering.Agrees lowering :=
  ⟨rfl, rfl, .refl _⟩

theorem Lowering.Agrees.symm {lowering other : Lowering} (agrees : lowering.Agrees other) :
    other.Agrees lowering :=
  ⟨agrees.target.symm, agrees.declarations.symm, agrees.scopes.symm⟩

/-- The same functions are recorded on the way from one state to a later one and on the way
from another state. -/
def SameRecords (lowering after other otherAfter : Lowering) : Prop :=
  ∃ added, after.recorded.toList = lowering.recorded.toList ++ added ∧
    otherAfter.recorded.toList = other.recorded.toList ++ added

theorem SameRecords.none (lowering other : Lowering) :
    SameRecords lowering lowering other other :=
  ⟨[], by simp, by simp⟩

theorem SameRecords.trans {lowering middle after other otherMiddle otherAfter : Lowering}
    (first : SameRecords lowering middle other otherMiddle)
    (second : SameRecords middle after otherMiddle otherAfter) :
    SameRecords lowering after other otherAfter := by
  obtain ⟨added, isMiddle, isOtherMiddle⟩ := first
  obtain ⟨more, isAfter, isOtherAfter⟩ := second
  refine ⟨added ++ more, ?_, ?_⟩
  · rw [isAfter, isMiddle, List.append_assoc]
  · rw [isOtherAfter, isOtherMiddle, List.append_assoc]

namespace Lower

variable {α β : Type}

/-- Two steps from two states end alike: with the same value, or with the same error at
other offsets, with the same functions recorded and in states that agree. -/
inductive Related (change : Nat → Nat) (lowering other : Lowering) :
    EStateM.Result LoweringError Lowering α → EStateM.Result LoweringError Lowering α → Prop
  | ok {value : α} {after otherAfter : Lowering} (agrees : after.Agrees otherAfter)
      (records : SameRecords lowering after other otherAfter) :
      Related change lowering other (.ok value after) (.ok value otherAfter)
  | error {failure : LoweringError} {after otherAfter : Lowering}
      (agrees : after.Agrees otherAfter) (records : SameRecords lowering after other otherAfter) :
      Related change lowering other (.error failure after)
        (.error (failure.mapOffsets change) otherAfter)

def Matches (change : Nat → Nat) (action other : Lower α) : Prop :=
  ∀ lowering otherLowering, lowering.Agrees otherLowering →
    Related change lowering otherLowering (action lowering) (other otherLowering)

theorem matches_pure (value : α) : Matches change (pure value : Lower α) (pure value) :=
  fun _ _ agrees => .ok agrees (.none _ _)

theorem matches_throw (error : LoweringError) :
    Matches change (throw error : Lower α) (throw (error.mapOffsets change)) :=
  fun _ _ agrees => .error agrees (.none _ _)

/-- What two steps record comes after what was recorded before them. -/
theorem Related.after {lowering middle other otherMiddle : Lowering}
    {result otherResult : EStateM.Result LoweringError Lowering α}
    (records : SameRecords lowering middle other otherMiddle)
    (related : Related change middle otherMiddle result otherResult) :
    Related change lowering other result otherResult := by
  cases related with
  | ok agrees more => exact .ok agrees (records.trans more)
  | error agrees more => exact .error agrees (records.trans more)

/-- Where two steps start matters only for what is recorded there. -/
theorem Related.of_recorded {lowering middle other otherMiddle : Lowering}
    {result otherResult : EStateM.Result LoweringError Lowering α}
    (related : Related change middle otherMiddle result otherResult)
    (same : middle.recorded = lowering.recorded) (otherSame : otherMiddle.recorded = other.recorded) :
    Related change lowering other result otherResult :=
  related.after ⟨[], by simp [same], by simp [otherSame]⟩

theorem Matches.bind {action other : Lower α} {next otherNext : α → Lower β}
    (first : Matches change action other)
    (second : ∀ value, Matches change (next value) (otherNext value)) :
    Matches change (action >>= next) (other >>= otherNext) := by
  intro lowering otherLowering agrees
  have related := first lowering otherLowering agrees
  generalize outcome : action lowering = result at related
  generalize otherOutcome : other otherLowering = otherResult at related
  cases related with
  | ok agree records =>
      rw [bind_of_ok outcome, bind_of_ok otherOutcome]
      exact (second _ _ _ agree).after records
  | error agree records =>
      rw [bind_of_error outcome, bind_of_error otherOutcome]
      exact .error agree records

/-! ## Steps -/

theorem matches_ofExcept {outcome other : Except LoweringError α}
    (same : other = atOffsets change outcome) :
    Matches change (ofExcept outcome) (ofExcept other) := by
  subst same
  cases outcome with
  | ok value => exact matches_pure value
  | error failure => exact matches_throw failure

/-- Declaring a function gives both states the same number and the same declarations. -/
theorem related_declareFunction_bind {name : String} {linkage : Linkage}
    {signature : Ir.Signature} {next otherNext : Nat → Lower α} {lowering other : Lowering}
    (agrees : lowering.Agrees other)
    (related : ∀ number declarations,
      Related change { lowering with declarations } { other with declarations }
        (next number { lowering with declarations }) (otherNext number { other with declarations })) :
    Related change lowering other ((declareFunction name linkage signature >>= next) lowering)
      ((declareFunction name linkage signature >>= otherNext) other) := by
  cases declares : lowering.declarations.declareFunction name linkage signature with
  | error failure =>
      have fails : ∀ state : Lowering, state.declarations = lowering.declarations →
          declareFunction name linkage signature state = .error (.object failure) state := by
        intro state same
        simp only [declareFunction, declareFunctionOn, BackEnd.standard_declareFunction, same,
          declares]
      rw [bind_of_error (fails lowering rfl), bind_of_error (fails other agrees.declarations.symm)]
      exact .error agrees (.none _ _)
  | ok pair =>
      obtain ⟨number, declarations⟩ := pair
      rw [bind_of_ok (declareFunction_eq_ok_iff.mpr ⟨_, declares, rfl⟩),
        bind_of_ok (declareFunction_eq_ok_iff.mpr ⟨_, agrees.declarations ▸ declares, rfl⟩)]
      exact (related number declarations).of_recorded rfl rfl

theorem matches_defineFunction (number : Nat) (code : Ir.Function) :
    Matches change (defineFunction number code) (defineFunction number code) := by
  intro lowering other agrees
  have records : ∀ declarations otherDeclarations, SameRecords lowering
      { lowering with declarations, recorded := lowering.recorded.push code } other
      { other with
        declarations := otherDeclarations
        recorded := other.recorded.push code } := by
    intro declarations otherDeclarations
    exact ⟨[code], by simp, by simp⟩
  unfold defineFunction defineFunctionOn
  rw [BackEnd.standard_verify, BackEnd.standard_defineFunction]
  by_cases checked : code.check = true
  · rw [if_pos checked, if_pos checked]
    dsimp only
    rw [← agrees.declarations]
    cases lowering.declarations.defineFunction number with
    | error failure =>
        exact .error ⟨agrees.target, rfl, agrees.scopes⟩ (records _ _)
    | ok defined => exact .ok ⟨agrees.target, rfl, agrees.scopes⟩ (records _ _)
  · rw [if_neg checked, if_neg checked]
    exact .error agrees (.none _ _)

theorem matches_bind (name : String) {binding bound : Binding} (agree : binding.Agrees bound) :
    Matches change (Lower.bind name binding) (Lower.bind name bound) := by
  intro lowering other agrees
  exact .ok ⟨agrees.target, agrees.declarations, agrees.scopes.insert agree name⟩ (.none _ _)

theorem Matches.inScope {action other : Lower α} (matched : Matches change action other) :
    Matches change (inScope action) (inScope other) := by
  intro lowering otherLowering agrees
  have related := matched { lowering with scopes := lowering.scopes.enter }
    { otherLowering with scopes := otherLowering.scopes.enter }
    ⟨agrees.target, agrees.declarations, agrees.scopes.enter⟩
  unfold Lower.inScope
  generalize action _ = result at related ⊢
  generalize other _ = otherResult at related ⊢
  cases related with
  | ok agree records =>
      rcases agree.scopes.exit with ⟨failure, exits, otherExits⟩ | ⟨left, right, exits, otherExits,
        agreeScopes⟩
      · simp only [leaveScope, exits, otherExits]
        exact .error agree records
      · simp only [leaveScope, exits, otherExits]
        exact .ok ⟨agree.target, agree.declarations, agreeScopes⟩ records
  | error agree records =>
      rcases agree.scopes.exit with ⟨failure, exits, otherExits⟩ | ⟨left, right, exits, otherExits,
        agreeScopes⟩
      · simp only [leaveScope, exits, otherExits]
        exact .error agree records
      · simp only [leaveScope, exits, otherExits]
        exact .error ⟨agree.target, agree.declarations, agreeScopes⟩ records

theorem matches_build (code : Ir.Function) {step otherStep : ScopeTable Binding → Build α}
    (matched : ∀ scopes others, scopes.Agrees others →
      Build.Matches change (step scopes) (otherStep others)) :
    Matches change (build code step) (build code otherStep) := by
  intro lowering other agrees
  exact matches_ofExcept (matched _ _ agrees.scopes code) lowering other agrees

/-! ## Functions -/

theorem matches_storeParameters (parameters : List (Parameter × ScalarType)) :
    ∀ value code, Matches change (storeParameters parameters value code)
      (storeParameters (parameters.map fun pair => (pair.1.mapOffsets change, pair.2)) value
        code) := by
  induction parameters with
  | nil =>
      intro value code
      exact matches_pure code
  | cons first rest inductionHypothesis =>
      intro value code
      obtain ⟨parameter, type⟩ := first
      exact (matches_bind _ (.parameter _ _)).bind fun _ => inductionHypothesis _ _

theorem matches_blockStatements (block : Block) (code : Ir.Function) :
    Matches change (blockStatements block code)
      (blockStatements (block.mapOffsets change) code) := by
  obtain ⟨statements, result⟩ := block
  refine Matches.inScope ((matches_build code ?_).bind fun _ => matches_pure _)
  intro scopes others agrees
  exact matches_lowerStatements statements fun statement _ => matches_lowerExpr agrees statement

theorem matches_functionResult (declaration : FunctionDecl) (code : Ir.Function) :
    Matches change (functionResult declaration code)
      (functionResult (declaration.mapOffsets change) code) := by
  obtain ⟨name, parameters, resultType, ⟨statements, result⟩⟩ := declaration
  cases resultType with
  | none =>
      cases result with
      | none => exact matches_pure _
      | some expr =>
          unfold functionResult FunctionDecl.mapOffsets
          dsimp only [Block.mapOffsets, resultMapOffsets, Option.map_none]
          rw [Expr.span_mapOffsets]
          exact matches_throw (.unexpectedResult name.name expr.span)
  | some path =>
      cases result with
      | none => exact matches_throw _
      | some expr =>
          refine (matches_build code ?_).bind fun _ => matches_pure _
          intro scopes others agrees
          rw [Expr.span_mapOffsets]
          exact (matches_lowerExpr agrees expr).value expr.span

theorem ofPath_mapOffsets (path : TypePath) :
    ScalarType.ofPath (path.mapOffsets change) = atOffsets change (ScalarType.ofPath path) := by
  obtain ⟨head, inner⟩ := path
  cases inner with
  | cons first rest => rfl
  | nil =>
      simp only [ScalarType.ofPath, TypePath.mapOffsets, Ident.mapOffsets, List.map_nil]
      cases ScalarType.ofName? head.name with
      | none => rfl
      | some type => rfl

theorem ofParameters_mapOffsets (parameters : List Parameter) :
    ScalarType.ofParameters (parameters.map (Parameter.mapOffsets change)) =
      atOffsets change (ScalarType.ofParameters parameters) := by
  induction parameters with
  | nil => rfl
  | cons first rest inductionHypothesis =>
      rw [List.map_cons, ScalarType.ofParameters, ScalarType.ofParameters, Parameter.mapOffsets,
        ofPath_mapOffsets, inductionHypothesis]
      cases ScalarType.ofPath first.type with
      | error failure => rfl
      | ok type =>
          cases ScalarType.ofParameters rest with
          | error failure => rfl
          | ok types => rfl

theorem ofResult_mapOffsets (path? : Option TypePath) :
    ScalarType.ofResult (path?.map (TypePath.mapOffsets change)) =
      atOffsets change (ScalarType.ofResult path?) := by
  cases path? with
  | none => rfl
  | some path =>
      rw [Option.map_some, ScalarType.ofResult, ScalarType.ofResult, ofPath_mapOffsets]
      cases ScalarType.ofPath path with
      | error failure => rfl
      | ok type => rfl

theorem matches_functionBody (declaration : FunctionDecl) (types : List ScalarType)
    (code : Ir.Function) :
    Matches change (functionBody declaration types code)
      (functionBody (declaration.mapOffsets change) types code) := by
  have zipped : (declaration.mapOffsets change).parameters.zip types =
      (declaration.parameters.zip types).map fun pair => (pair.1.mapOffsets change, pair.2) := by
    rw [FunctionDecl.mapOffsets, List.zip_map_left]
    rfl
  unfold functionBody
  rw [zipped]
  exact (matches_storeParameters _ 0 code).bind fun stored =>
    (matches_blockStatements declaration.body stored).bind fun extended =>
      matches_functionResult declaration extended

theorem matches_function (declaration : FunctionDecl) :
    Matches change (function declaration) (function (declaration.mapOffsets change)) := by
  have sameName : (declaration.mapOffsets change).lowLevelName = declaration.lowLevelName :=
    lowLevelName_eq_of_interface declaration.interface_mapOffsets
  unfold function functionOn
  rw [sameName]
  refine (matches_ofExcept (ofParameters_mapOffsets _)).bind fun types => ?_
  refine (matches_ofExcept (ofResult_mapOffsets _)).bind fun result => ?_
  -- What the contexts held is cleared, and of the rest of the state only the target is looked at.
  intro lowering other agrees
  rw [clearContext_bind, signContext_bind, get_bind, clearContext_bind, signContext_bind, get_bind,
    ← agrees.target]
  refine Related.of_recorded (related_declareFunction_bind ?_ fun number declarations => ?_) rfl rfl
  · exact ⟨rfl, agrees.declarations, agrees.scopes⟩
  rw [openContext_bind, get_bind, openContext_bind, get_bind]
  refine Related.of_recorded ((matches_functionBody declaration types _).inScope.bind ?_ _ _ ?_)
    rfl rfl
  · intro code finished otherFinished agree
    rw [setContext_bind, get_bind, setContext_bind, get_bind]
    refine Related.of_recorded ((matches_defineFunction number code).bind ?_ _ _ ?_) rfl rfl
    · intro _
      exact matches_bind _ (.function declaration.interface_mapOffsets.symm number _)
    · exact ⟨agree.target, agree.declarations, agree.scopes⟩
  · exact ⟨rfl, rfl, agrees.scopes⟩

/-- From states that agree, functions that differ in their offsets end alike. -/
theorem function_outcomes {declaration otherDeclaration : FunctionDecl} {lowering other : Lowering}
    (same : declaration.mapOffsets change = otherDeclaration.mapOffsets change)
    (agrees : lowering.Agrees other) :
    (∃ after otherAfter, function declaration lowering = .ok () after ∧
      function otherDeclaration other = .ok () otherAfter ∧
      SameRecords lowering after other otherAfter) ∨
    ∃ failure otherFailure after otherAfter, function declaration lowering = .error failure after ∧
      function otherDeclaration other = .error otherFailure otherAfter ∧
      failure.mapOffsets change = otherFailure.mapOffsets change := by
  -- Both are compared with the one function that they are at the changed offsets.
  have ofFirst : Related change lowering lowering (function declaration lowering)
      (function (declaration.mapOffsets change) lowering) :=
    matches_function declaration lowering lowering (.refl _)
  have ofSecond : Related change other lowering (function otherDeclaration other)
      (function (declaration.mapOffsets change) lowering) :=
    same ▸ matches_function otherDeclaration other lowering agrees.symm
  generalize function (declaration.mapOffsets change) lowering = between at ofFirst ofSecond
  generalize function declaration lowering = result at ofFirst ⊢
  generalize function otherDeclaration other = otherResult at ofSecond ⊢
  cases ofFirst with
  | @ok _ after middle _ records =>
      cases ofSecond with
      | @ok _ otherAfter _ _ otherRecords =>
          obtain ⟨added, isAfter, isMiddle⟩ := records
          obtain ⟨otherAdded, isOtherAfter, isOtherMiddle⟩ := otherRecords
          obtain rfl : added = otherAdded :=
            List.append_cancel_left (isMiddle.symm.trans isOtherMiddle)
          exact .inl ⟨after, otherAfter, rfl, rfl, added, isAfter, isOtherAfter⟩
  | @error failure after middle _ _ =>
      generalize isFailure : failure.mapOffsets change = changed at ofSecond
      cases ofSecond with
      | @error otherFailure otherAfter _ _ _ =>
          exact .inr ⟨failure, otherFailure, after, otherAfter, rfl, rfl, isFailure⟩

end Lower

/-! ## Functions that show the same -/

theorem TypePath.denotes_iff_words {path : TypePath} {type : ScalarType} :
    path.Denotes type ↔ path.words = [type.name] := by
  obtain ⟨head, inner⟩ := path
  simp [Denotes, words, names, and_comm]

section Interface

variable {function other : FunctionDecl}

theorem types_eq_of_interface (same : function.interface = other.interface)
    {types otherTypes : List ScalarType}
    (denote : List.Forall₂ (fun parameter type => parameter.type.Denotes type)
      function.parameters types)
    (denoteOther : List.Forall₂ (fun parameter type => parameter.type.Denotes type)
      other.parameters otherTypes) : types = otherTypes := by
  have sameWords : function.parameters.map (fun parameter => parameter.type.words) =
      other.parameters.map fun parameter => parameter.type.words := by
    have ofParameters := congrArg (fun shown => shown.parameters.map Prod.snd) same
    simpa [FunctionDecl.interface, Function.comp_def] using ofParameters
  have ofTypes : ∀ {parameters : List Parameter} {types : List ScalarType},
      List.Forall₂ (fun parameter type => parameter.type.Denotes type) parameters types →
      parameters.map (fun parameter => parameter.type.words) =
        types.map fun type => [type.name] := by
    intro parameters types denote
    induction denote with
    | nil => rfl
    | cons denotes _ inductionHypothesis =>
        rw [List.map_cons, List.map_cons, inductionHypothesis,
          TypePath.denotes_iff_words.mp denotes]
  rw [ofTypes denote, ofTypes denoteOther] at sameWords
  refine List.map_injective_iff.mpr ?_ sameWords
  intro type otherType sameName
  exact ScalarType.name_injective (List.singleton_inj.mp sameName)

theorem result_eq_of_interface (same : function.interface = other.interface)
    {type otherType : Option ScalarType}
    (denote : Option.Rel (fun path type => path.Denotes type) function.resultType type)
    (denoteOther : Option.Rel (fun path type => path.Denotes type) other.resultType otherType) :
    type = otherType := by
  have sameWords : function.resultType.map TypePath.words = other.resultType.map TypePath.words :=
    congrArg Interface.result same
  generalize function.resultType = path? at denote sameWords
  generalize other.resultType = otherPath? at denoteOther sameWords
  cases denote with
  | none =>
      cases denoteOther with
      | none => rfl
      | some _ => simp at sameWords
  | some denotes =>
      cases denoteOther with
      | none => simp at sameWords
      | some denotesOther =>
          rw [Option.map_some, Option.map_some, TypePath.denotes_iff_words.mp denotes,
            TypePath.denotes_iff_words.mp denotesOther, Option.some_inj,
            List.singleton_inj] at sameWords
          rw [ScalarType.name_injective sameWords]

end Interface

section Prefix

variable {lowering after other otherAfter : Lowering}

theorem LowersFunction.agrees {function otherFunction : FunctionDecl}
    (lowers : LowersFunction lowering function after)
    (otherLowers : LowersFunction other otherFunction otherAfter)
    (agrees : lowering.Agrees other) (same : function.interface = otherFunction.interface) :
    after.Agrees otherAfter := by
  obtain ⟨denote, denoteResult, declares, -, -, defines⟩ := lowers
  obtain ⟨denoteOther, denoteOtherResult, otherDeclares, -, -, otherDefines⟩ := otherLowers
  obtain rfl := types_eq_of_interface same denote denoteOther
  obtain rfl := result_eq_of_interface same denoteResult denoteOtherResult
  have sameName := lowLevelName_eq_of_interface same
  rw [agrees.declarations, sameName, agrees.target, otherDeclares] at declares
  cases declares
  rw [otherDefines] at defines
  cases defines
  refine ⟨agrees.target, rfl, ?_⟩
  rw [sameName, agrees.target]
  exact agrees.scopes.insert (.function same _ _) _

theorem LowersFunctions.agrees {functions : List FunctionDecl}
    (lowers : LowersFunctions lowering functions after) :
    ∀ {other otherAfter otherFunctions}, LowersFunctions other otherFunctions otherAfter →
      lowering.Agrees other →
      functions.map FunctionDecl.interface = otherFunctions.map FunctionDecl.interface →
      after.Agrees otherAfter := by
  induction lowers with
  | none lowering =>
      intro other otherAfter otherFunctions otherLowers agrees same
      obtain rfl : otherFunctions = [] := by simpa using same.symm
      cases otherLowers
      exact agrees
  | next ofFirst _ inductionHypothesis =>
      intro other otherAfter otherFunctions otherLowers agrees same
      cases otherLowers with
      | none => simp at same
      | next ofOther ofRest =>
          rw [List.map_cons, List.map_cons, List.cons.injEq] at same
          exact inductionHypothesis ofRest (ofFirst.agrees ofOther agrees same.1) same.2

theorem LowersFunctions.append_iff {first second : List FunctionDecl} :
    LowersFunctions lowering (first ++ second) after ↔
      ∃ middle, LowersFunctions lowering first middle ∧ LowersFunctions middle second after := by
  induction first generalizing lowering with
  | nil =>
      constructor
      · intro lowers
        exact ⟨lowering, .none lowering, lowers⟩
      · rintro ⟨middle, lowersFirst, lowersSecond⟩
        cases lowersFirst
        exact lowersSecond
  | cons function first inductionHypothesis =>
      constructor
      · intro lowers
        cases lowers with
        | next ofFirst ofRest =>
            obtain ⟨middle, lowersFirst, lowersSecond⟩ := inductionHypothesis.mp ofRest
            exact ⟨middle, .next ofFirst lowersFirst, lowersSecond⟩
      · rintro ⟨middle, lowersFirst, lowersSecond⟩
        cases lowersFirst with
        | next ofFirst ofRest =>
            exact .next ofFirst (inductionHypothesis.mpr ⟨middle, ofRest, lowersSecond⟩)

/-- Each function adds its code at the end of what was recorded before. -/
theorem LowersFunctions.recorded {functions : List FunctionDecl}
    (lowers : LowersFunctions lowering functions after) :
    ∃ added, after.recorded.toList = lowering.recorded.toList ++ added ∧
      added.length = functions.length := by
  induction lowers with
  | none lowering => exact ⟨[], by simp, rfl⟩
  | next ofFirst _ inductionHypothesis =>
      obtain ⟨added, isAfter, isLength⟩ := inductionHypothesis
      cases ofFirst with
      | @step types result number declared defined insts tail code =>
          refine ⟨code :: added, ?_, by rw [List.length_cons, isLength, List.length_cons]⟩
          rw [isAfter, Array.toList_push, List.append_assoc, List.singleton_append]

def FunctionDecl.unplaced (function : FunctionDecl) : FunctionDecl :=
  function.mapOffsets fun _ => 0

/-- Functions that differ in their offsets only record the same code after states that
agree. -/
theorem LowersFunctions.sameRecords {functions : List FunctionDecl}
    (lowers : LowersFunctions lowering functions after) :
    ∀ {other otherAfter otherFunctions}, LowersFunctions other otherFunctions otherAfter →
      lowering.Agrees other →
      functions.map FunctionDecl.unplaced = otherFunctions.map FunctionDecl.unplaced →
      SameRecords lowering after other otherAfter := by
  induction lowers with
  | none lowering =>
      intro other otherAfter otherFunctions otherLowers agrees same
      obtain rfl : otherFunctions = [] := by simpa using same.symm
      cases otherLowers
      exact .none lowering other
  | @next lowering middle after function rest ofFirst _ inductionHypothesis =>
      intro other otherAfter otherFunctions otherLowers agrees same
      cases otherLowers with
      | none => simp at same
      | @next _ otherMiddle _ otherFunction otherRest ofOther ofRest =>
          rw [List.map_cons, List.map_cons, List.cons.injEq] at same
          obtain ⟨sameFirst, sameRest⟩ := same
          have sameInterface : function.interface = otherFunction.interface := by
            have shown := congrArg FunctionDecl.interface sameFirst
            rwa [FunctionDecl.unplaced, FunctionDecl.unplaced, FunctionDecl.interface_mapOffsets,
              FunctionDecl.interface_mapOffsets] at shown
          have first := Lower.function_eq_ok_iff.mpr ofFirst
          have second := Lower.function_eq_ok_iff.mpr ofOther
          rcases Lower.function_outcomes sameFirst agrees with
            ⟨_, _, isMiddle, isOtherMiddle, records⟩ | ⟨_, _, _, _, failed, -, -⟩
          · cases first.symm.trans isMiddle
            cases second.symm.trans isOtherMiddle
            exact records.trans
              (inductionHypothesis ofRest (ofFirst.agrees ofOther agrees sameInterface) sameRest)
          · rw [first] at failed
            cases failed

end Prefix

/-! ## Programs -/

def listings (codes : List Ir.Function) : String :=
  String.join (codes.map fun code => code.listing ++ "\n")

theorem listings_append (first second : List Ir.Function) :
    listings (first ++ second) = listings first ++ listings second := by
  rw [listings, List.map_append, String.join_append]
  rfl

def Lowering.outcome (lowering : Lowering) (function : FunctionDecl) :
    Except LoweringError String :=
  match Lower.function function lowering with
  | .ok () after => .ok (listings (after.recorded.toList.drop lowering.recorded.size))
  | .error error _ => .error error

theorem Lowering.Agrees.outcome_eq {lowering other : Lowering} (agrees : lowering.Agrees other)
    (function : FunctionDecl) : lowering.outcome function = other.outcome function := by
  have sameOffsets : function.mapOffsets id = function.mapOffsets id := rfl
  unfold Lowering.outcome
  rcases Lower.function_outcomes sameOffsets agrees with
    ⟨after, otherAfter, isAfter, isOtherAfter, added, ofAfter, ofOtherAfter⟩ |
    ⟨failure, otherFailure, after, otherAfter, failed, otherFailed, sameFailure⟩
  · simp only [isAfter, isOtherAfter, ofAfter, ofOtherAfter]
    rw [← Array.length_toList, List.drop_left, ← Array.length_toList, List.drop_left]
  · simp only [failed, otherFailed]
    rw [LoweringError.mapOffsets_id, LoweringError.mapOffsets_id] at sameFailure
    rw [sameFailure]

theorem Lowering.addProgram_start_iff {target : Target} {start after : Lowering} {program : Module}
    (started : Lowering.start target = .ok start) :
    start.addProgram program = (.ok (), after) ↔
      LowersFunctions (.withBuiltins target) program.functions after := by
  obtain ⟨-, rfl⟩ := Lowering.start_eq_ok_iff.mp started
  rw [Lowering.addProgram_eq_ok_iff, Lower.program_eq_ok_iff]

/-- If the first functions of two programs show the same and are lowered, the next function
has the same outcome after both.  The listings of a part of a program are the start of
those of the whole, and functions that only moved keep their code behind changed bodies. -/
theorem lowering_is_separate (target : Target) (start after otherAfter : Lowering)
    (program other : Module) (count : Nat) (started : Lowering.start target = .ok start)
    (sameInterfaces : (program.functions.take count).map FunctionDecl.interface =
      (other.functions.take count).map FunctionDecl.interface)
    (lowered : start.addProgram ⟨program.functions.take count⟩ = (.ok (), after))
    (otherLowered : start.addProgram ⟨other.functions.take count⟩ = (.ok (), otherAfter)) :
    (∀ function, after.outcome function = otherAfter.outcome function) ∧
    (∀ whole, start.addProgram program = (.ok (), whole) → ∀ length, ∃ part rest,
      start.addProgram ⟨program.functions.take length⟩ = (.ok (), part) ∧
        whole.ir = part.ir ++ rest) ∧
    (∀ whole otherWhole, start.addProgram program = (.ok (), whole) →
      start.addProgram other = (.ok (), otherWhole) →
      (program.functions.drop count).map FunctionDecl.unplaced =
        (other.functions.drop count).map FunctionDecl.unplaced →
      whole.recorded.toList.drop (count + 1) = otherWhole.recorded.toList.drop (count + 1)) := by
  simp only [Lowering.addProgram_start_iff started] at lowered otherLowered ⊢
  have agrees : after.Agrees otherAfter := lowered.agrees otherLowered (.refl _) sameInterfaces
  refine ⟨agrees.outcome_eq, ?_, ?_⟩
  · intro whole wholeLowered length
    rw [← List.take_append_drop length program.functions] at wholeLowered
    obtain ⟨part, partLowered, restLowered⟩ := LowersFunctions.append_iff.mp wholeLowered
    obtain ⟨added, isWhole, -⟩ := restLowered.recorded
    refine ⟨part, listings added, partLowered, ?_⟩
    change listings whole.recorded.toList = listings part.recorded.toList ++ _
    rw [isWhole, listings_append]
  · intro whole otherWhole wholeLowered otherWholeLowered sameRest
    rw [← List.take_append_drop count program.functions] at wholeLowered
    rw [← List.take_append_drop count other.functions] at otherWholeLowered
    obtain ⟨middle, partLowered, restLowered⟩ := LowersFunctions.append_iff.mp wholeLowered
    obtain ⟨otherMiddle, otherPartLowered, otherRestLowered⟩ :=
      LowersFunctions.append_iff.mp otherWholeLowered
    have agreesMiddle := partLowered.agrees otherPartLowered (.refl _) sameInterfaces
    obtain ⟨added, isWhole, isOtherWhole⟩ :=
      restLowered.sameRecords otherRestLowered agreesMiddle sameRest
    obtain ⟨first, isMiddle, firstLength⟩ := partLowered.recorded
    obtain ⟨otherFirst, isOtherMiddle, otherLength⟩ := otherPartLowered.recorded
    have sameLength : first.length = otherFirst.length := by
      have lengths := congrArg List.length sameInterfaces
      rw [List.length_map, List.length_map] at lengths
      omega
    have atMost : first.length ≤ count := by
      rw [firstLength, List.length_take]
      omega
    -- The built-in function is recorded before all others.
    have dropped : ∀ {codes : List Ir.Function}, codes.length = first.length →
        (([Builtin.printCode target 0] ++ codes) ++ added).drop (count + 1) =
          added.drop (count - first.length) := by
      intro codes length
      rw [List.drop_append, List.drop_eq_nil_of_le (by simp; omega), List.nil_append]
      simp [length]
    rw [isWhole, isOtherWhole, isMiddle, isOtherMiddle]
    exact (dropped rfl).trans (dropped sameLength.symm).symm

def integerFunction (name : String) (result : Expr) : FunctionDecl where
  name := ⟨name, .empty 0⟩
  parameters := [⟨⟨"a", .empty 0⟩, .simple ⟨"Int", .empty 0⟩⟩]
  resultType := some (.simple ⟨"Int", .empty 0⟩)
  body := ⟨[], some result⟩

def callingProgram (result : Expr) (offset : Nat) : Module :=
  ⟨[integerFunction "f" result, integerFunction "g" (.call ⟨"f", .empty offset⟩
    [⟨⟨"a", .empty offset⟩, .identifier "a" (.empty offset)⟩] none (.empty offset))]⟩

theorem lowering_is_separate_negated :
    let start : Lowering := .initial ⟨"x86_64", .systemV, .i64, .elf, true⟩
    let program := callingProgram (.identifier "a" (.empty 0)) 1
    let other := callingProgram (.unary .negate (.identifier "a" (.empty 0)) (.empty 0)) 2
    ∃ after otherAfter whole otherWhole,
      start.addProgram ⟨program.functions.take 1⟩ = (.ok (), after) ∧
      start.addProgram ⟨other.functions.take 1⟩ = (.ok (), otherAfter) ∧
      start.addProgram program = (.ok (), whole) ∧
      start.addProgram other = (.ok (), otherWhole) ∧
      (∀ function ∈ program.functions,
        after.outcome function = otherAfter.outcome function) ∧
      (∃ part rest, start.addProgram ⟨program.functions.take 1⟩ = (.ok (), part) ∧
        whole.ir = part.ir ++ rest) ∧
      whole.recorded.toList.drop 2 = otherWhole.recorded.toList.drop 2 := by
  intro start program other
  have succeeds : ∀ {module : Module}, (start.addProgram module).1 = .ok () →
      start.addProgram module = (.ok (), (start.addProgram module).2) := by
    intro module isOk
    rw [← isOk]
  have lowered := succeeds
    (show (start.addProgram ⟨program.functions.take 1⟩).1 = .ok () by decide +kernel)
  have otherLowered := succeeds
    (show (start.addProgram ⟨other.functions.take 1⟩).1 = .ok () by decide +kernel)
  have whole := succeeds (show (start.addProgram program).1 = .ok () by decide +kernel)
  have otherWhole := succeeds (show (start.addProgram other).1 = .ok () by decide +kernel)
  obtain ⟨sameOutcome, starts, sameCode⟩ := lowering_is_separate
    ⟨"x86_64", .systemV, .i64, .elf, true⟩ start _ _ program other 1 rfl rfl lowered otherLowered
  exact ⟨_, _, _, _, lowered, otherLowered, whole, otherWhole,
    fun function _ => sameOutcome function, starts _ whole 1, sameCode _ _ whole otherWhole rfl⟩

end ScalarLang
