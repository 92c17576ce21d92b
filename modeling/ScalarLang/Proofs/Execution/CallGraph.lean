import Mathlib.Logic.Relation
import ScalarLang.Compiler.Basic
import ScalarLang.Proofs.Execution.Programs

/-!
# What the calls of a compiled program name

The calls in the code of a function are those of its source, in the order in which they
are made.  Each names the one function before it that has the name and the labels of the
call, whatever else has the same low-level name.  So calls lead from each number of an
object to smaller ones, and no function calls itself through others.
-/

set_option autoImplicit false

namespace ScalarLang

/-! ## Calls in a source -/

structure CallSite where
  name : String
  labels : List String

mutual

/-- The calls in an expression, those inside a call before the call itself. -/
def Expr.calls : Expr → List CallSite
  | .conditional condition thenBlock elseBlock _ =>
    condition.calls ++ thenBlock.calls ++ elseCalls elseBlock
  | .call name arguments children _ =>
    argumentCalls arguments ++ childCalls children ++
      [⟨name.name, CallArgument.labels arguments⟩]
  | .binary _ lhs rhs _ => lhs.calls ++ rhs.calls
  | .unary _ operand _ => operand.calls
  | .identifier _ _ => []
  | .literal _ _ => []

def Block.calls : Block → List CallSite
  | ⟨statements, result⟩ => lineCalls statements ++ resultCalls result

def elseCalls : Option Block → List CallSite
  | none => []
  | some block => block.calls

def argumentCalls : List CallArgument → List CallSite
  | [] => []
  | ⟨_, value⟩ :: rest => value.calls ++ argumentCalls rest

def childCalls : Option (List Expr) → List CallSite
  | none => []
  | some children => lineCalls children

def lineCalls : List Expr → List CallSite
  | [] => []
  | line :: rest => line.calls ++ lineCalls rest

def resultCalls : Option Expr → List CallSite
  | none => []
  | some result => result.calls

end

theorem Block.calls_eq (block : Block) :
    block.calls = lineCalls block.statements ++ resultCalls block.result := by
  cases block
  rfl

theorem argumentCalls_cons (argument : CallArgument) (rest : List CallArgument) :
    argumentCalls (argument :: rest) = argument.value.calls ++ argumentCalls rest := by
  cases argument
  rfl

theorem childCalls_eq (children : Option (List Expr)) :
    childCalls children = lineCalls (children.getD []) := by
  cases children <;> rfl

def Part.calls : Part → List CallSite
  | .expression expr _ => expr.calls
  | .arguments list _ => argumentCalls list
  | .statements list => lineCalls list

/-! ## Calls in code -/

namespace Ir

def Inst.callee? (inst : Inst) : Option Nat :=
  match inst.op with
  | .call callee _ => some callee
  | _ => none

def Function.numberAt? (code : Function) (callee : Nat) : Option Nat :=
  code.callees[callee]?.map Callee.function

def Function.calledNumbers (code : Function) : List (Option Nat) :=
  (code.body.toList.filterMap Inst.callee?).map code.numberAt?

theorem Function.Begins.numberAt? {before after : Function} (begins : Begins before after)
    {callee number : Nat} (isNumber : before.numberAt? callee = some number) :
    after.numberAt? callee = some number := by
  obtain ⟨found, isFound, rfl⟩ := Option.map_eq_some_iff.mp isNumber
  rw [Function.numberAt?, getElem?_of_prefix begins.callees isFound]
  rfl

/-- An instruction that computes a value calls nothing. -/
theorem callees_of_computes {op : Op} (isComputed : Function.computes op = true)
    (result : Option Value) : [⟨result, op⟩].filterMap Inst.callee? = [] := by
  cases op with
  | call callee arguments => cases isComputed
  | _ => rfl

theorem Function.numberAt?_addCall (code : Function) (number : Nat) (colocated : Bool)
    (signature : Signature) (arguments : List Value) :
    (code.addCall number colocated signature arguments).2.numberAt? code.callees.size =
      some number := by
  rw [numberAt?, ← Array.getElem?_toList, addCall_callees]
  simp

end Ir

def CallSite.ResolvesIn (scopes : ScopeTable Binding) (call : CallSite) (number : Nat) : Prop :=
  ∃ name arguments span signature,
    call = ⟨name.name, CallArgument.labels arguments⟩ ∧
      resolveCall scopes name arguments span = .ok (number, signature)

/-- A place in the code of a function is that of the number to which a call resolves. -/
def CallSite.LeadsTo (scopes : ScopeTable Binding) (code : Ir.Function) (call : CallSite)
    (callee : Nat) : Prop :=
  ∃ number, code.numberAt? callee = some number ∧ call.ResolvesIn scopes number

section Emitted

variable {scopes : ScopeTable Binding} {code after : Ir.Function}

theorem leadsTo_of_begins {calls : List CallSite} {callees : List Nat}
    (lead : List.Forall₂ (CallSite.LeadsTo scopes code) calls callees)
    (begins : code.Begins after) : List.Forall₂ (CallSite.LeadsTo scopes after) calls callees := by
  refine lead.imp ?_
  rintro call callee ⟨number, isNumber, resolves⟩
  exact ⟨number, begins.numberAt? isNumber, resolves⟩

theorem Emits.calls {part : Part} {insts : List Ir.Inst}
    (emits : Emits scopes code part insts after) :
    List.Forall₂ (CallSite.LeadsTo scopes after) part.calls (insts.filterMap Ir.Inst.callee?) := by
  -- The table of callees only grows, so a place keeps its number in all code after it.
  induction emits with
  | literal code value span =>
      rw [Ir.callees_of_computes value.computes_lowered]
      exact .nil
  | identifier code name span slot type bound => exact .nil
  | unary span ofOperand selects lead =>
      rw [List.filterMap_append,
        Ir.callees_of_computes (UnaryOp.computes_of_select? selects), List.append_nil]
      exact leadsTo_of_begins lead (Ir.Function.begins_define _ _ _)
  | @binary _ _ last _ _ _ _ _ _ _ selected type span ofLeft ofRight sameType selects leadLeft
      leadRight =>
      have begins := last.begins_define type selected
      rw [List.filterMap_append, List.filterMap_append,
        Ir.callees_of_computes (BinaryOp.computes_of_select? selects), List.append_nil]
      exact List.rel_append (leadsTo_of_begins leadLeft (ofRight.begins.trans begins))
        (leadsTo_of_begins leadRight begins)
  | @call code middle last name arguments children operands _ _ number signature span resolved
      ofArguments ofChildren leadArguments leadChildren =>
      have begins := last.begins_addCall number true signature (operands.map Operand.value)
      have isNumber := last.numberAt?_addCall number true signature (operands.map Operand.value)
      rw [List.filterMap_append, List.filterMap_append]
      refine List.rel_append (List.rel_append ?_ ?_) (.cons ⟨number, isNumber, ?_⟩ .nil)
      · exact leadsTo_of_begins leadArguments (ofChildren.begins.trans begins)
      · rw [childCalls_eq]
        exact leadsTo_of_begins leadChildren begins
      · exact ⟨name, arguments, span, signature, rfl, resolved⟩
  | noArguments code => exact .nil
  | argument ofFirst ofRest leadFirst leadRest =>
      rw [List.filterMap_append, Part.calls, argumentCalls_cons]
      exact List.rel_append (leadsTo_of_begins leadFirst ofRest.begins) leadRest
  | noStatements code => exact .nil
  | statement ofFirst ofRest leadFirst leadRest =>
      rw [List.filterMap_append]
      exact List.rel_append (leadsTo_of_begins leadFirst ofRest.begins) leadRest

theorem callees_storeInsts (count : Nat) : ∀ value slot,
    (storeInsts count value slot).filterMap Ir.Inst.callee? = [] := by
  induction count with
  | zero =>
      intro value slot
      rfl
  | succ count inductionHypothesis =>
      intro value slot
      exact inductionHypothesis (value + 1) (slot + 1)

theorem EmitsResult.calls {function : FunctionDecl} {insts : List Ir.Inst}
    (ofResult : EmitsResult scopes function code insts after) :
    List.Forall₂ (CallSite.LeadsTo scopes after) (resultCalls function.body.result)
      (insts.filterMap Ir.Inst.callee?) := by
  cases ofResult with
  | @value _ _ operand _ extended declared returned ofExpr =>
      have noCall : [(⟨none, .ret [operand.value]⟩ : Ir.Inst)].filterMap Ir.Inst.callee? = [] := rfl
      rw [returned, List.filterMap_append, noCall, List.append_nil]
      exact leadsTo_of_begins ofExpr.calls (extended.begins_emit _)
  | nothing declared returned =>
      rw [returned]
      exact .nil

theorem EmitsBody.calls {function : FunctionDecl} {types : List ScalarType} {name : String}
    {signature : Ir.Signature} {insts tail : List Ir.Inst}
    (ofBody : EmitsBody scopes function types (.start name signature) insts tail after) :
    List.Forall₂ (CallSite.LeadsTo (bindParameters (function.parameters.zip types) 0 scopes.enter)
      after) function.body.calls (after.body.toList.filterMap Ir.Inst.callee?) := by
  rw [ofBody.body, List.filterMap_append, callees_storeInsts, List.nil_append,
    List.filterMap_append, Block.calls_eq]
  obtain ⟨middle, ofStatements, ofResult⟩ := ofBody.emitted
  exact List.rel_append (leadsTo_of_begins ofStatements.calls ofResult.begins) ofResult.calls

end Emitted

/-! ## What a call names -/

/-- A call names the number of a function that is known, has its name and its labels, and
is the only known one that has them. -/
def CallSite.Names (known : List FunctionDecl) (call : CallSite) (number : Option Nat) : Prop :=
  ∃ index function, number = some (index + 1) ∧ known[index]? = some function ∧
    function.name.name = call.name ∧ function.labels = call.labels ∧
    ∀ other found, known[other]? = some found → found.name.name = call.name →
      found.labels = call.labels → other = index

/-- The calls of a function name functions before it. -/
theorem LoweredAfter.calls {target : Target} {before : List Callable} {callable : Callable}
    {code : Ir.Function} (lowered : LoweredAfter target before callable code) :
    List.Forall₂
      (CallSite.Names ((Callable.print target :: before).map Callable.declaration))
      callable.declaration.body.calls code.calledNumbers := by
  obtain ⟨registered, rfl, -, -, -, ofBody, -⟩ := lowered
  rw [Ir.Function.calledNumbers, List.forall₂_map_right_iff]
  refine ofBody.calls.imp ?_
  rintro call callee ⟨number, isNumber, name, arguments, span, signature, rfl, resolved⟩
  obtain ⟨index, found, stands, sameName, sameLabels, rfl, -⟩ :=
    registered.resolveCall_eq_ok_iff.mp resolved
  refine ⟨index, found.declaration, isNumber, ?_, sameName, sameLabels, ?_⟩
  · rw [List.getElem?_map, stands]
    rfl
  · -- Two callables may share a low-level name only if they are one: none is registered twice.
    intro other _ standsOther otherName otherLabels
    rw [List.getElem?_map] at standsOther
    obtain ⟨callable, isCallable, rfl⟩ := Option.map_eq_some_iff.mp standsOther
    have sameLowLevel : callable.name = found.name :=
      lowLevelName_eq (otherName.trans sameName.symm) (otherLabels.trans sameLabels.symm)
    exact registered.index_eq isCallable stands sameLowLevel

theorem exists_related_left {α β : Type} {Related : α → β → Prop} {left : List α} {right : List β}
    (related : List.Forall₂ Related left right) {value : β} (member : value ∈ right) :
    ∃ other ∈ left, Related other value := by
  induction related with
  | nil => cases member
  | @cons first second _ _ same _ inductionHypothesis =>
      rcases List.mem_cons.mp member with rfl | member
      · exact ⟨first, .head _, same⟩
      · obtain ⟨other, isOther, holds⟩ := inductionHypothesis member
        exact ⟨other, .tail _ isOther, holds⟩

/-! ## The call graph -/

def Lowering.Calls (lowering : Lowering) (caller callee : Nat) : Prop :=
  ∃ code, lowering.routine? caller = some (.code code) ∧ some callee ∈ code.calledNumbers

theorem calledNumbers_printCode (target : Target) :
    (Builtin.printCode target 0).calledNumbers = [some 0] := rfl

section Graph

variable {final : Lowering} {lowered : List (Callable × Ir.Function)}

theorem Registered.routine?_eq_none (registered : Registered final (lowered.map Prod.fst))
    {number : Nat} (outside : lowered.length + 2 ≤ number) : final.routine? number = none := by
  have noEntry : final.declarations.functions[number]? = none := by
    rw [Array.getElem?_eq_none_iff, registered.functions_size, List.length_map]
    exact outside
  rw [Lowering.routine?, noEntry]

theorem LoweredInOrder.at_index {target : Target} {before : List Callable}
    {lowered : List (Callable × Ir.Function)} (inOrder : LoweredInOrder target before lowered) :
    ∀ {index : Nat} {pair : Callable × Ir.Function}, lowered[index]? = some pair →
      LoweredAfter target (before ++ (lowered.take index).map Prod.fst) pair.1 pair.2 := by
  induction inOrder with
  | none before =>
      intro index pair stands
      cases stands
  | next ofFirst _ inductionHypothesis =>
      intro index pair stands
      cases index with
      | zero =>
          cases stands
          simpa using ofFirst
      | succ index => simpa using inductionHypothesis stands

/-- Calls lead to smaller numbers. -/
theorem LoweredInOrder.calls_lt (inOrder : LoweredInOrder final.target [] lowered)
    (registered : Registered final (lowered.map Prod.fst))
    (routines : Routines final final.target lowered) {caller callee : Nat}
    (calls : final.Calls caller callee) : callee < caller := by
  obtain ⟨code, isCode, member⟩ := calls
  -- Number 0 has no code and 1 is the built-in function; those of the program follow.
  match caller with
  | 0 =>
      rw [routines.system] at isCode
      cases isCode
  | 1 =>
      rw [routines.print] at isCode
      cases isCode
      rw [calledNumbers_printCode] at member
      cases List.mem_singleton.mp member
      exact Nat.zero_lt_one
  | index + 2 =>
      cases stands : lowered[index]? with
      | none =>
          have outside : lowered.length + 2 ≤ index + 2 :=
            Nat.add_le_add_right (List.getElem?_eq_none_iff.mp stands) 2
          rw [registered.routine?_eq_none outside] at isCode
          cases isCode
      | some pair =>
          rw [routines.ofCode index pair stands] at isCode
          cases isCode
          obtain ⟨call, -, known, function, isNumber, isKnown, -⟩ :=
            exists_related_left (inOrder.at_index stands).calls member
          have inside := (List.getElem?_eq_some_iff.mp isKnown).1
          simp only [List.nil_append, List.length_map, List.length_cons, List.length_take] at inside
          cases isNumber
          omega

theorem LoweredInOrder.acyclic (inOrder : LoweredInOrder final.target [] lowered)
    (registered : Registered final (lowered.map Prod.fst))
    (routines : Routines final final.target lowered) (number : Nat) :
    ¬ Relation.TransGen final.Calls number number := by
  have decreases : ∀ {caller callee}, Relation.TransGen final.Calls caller callee →
      callee < caller := by
    intro caller callee path
    induction path with
    | single calls => exact inOrder.calls_lt registered routines calls
    | tail _ calls inductionHypothesis =>
        exact Nat.lt_trans (inOrder.calls_lt registered routines calls) inductionHypothesis
  exact fun cycle => Nat.lt_irrefl number (decreases cycle)

end Graph

/-! ## Compiled sources -/

theorem Source.compile_eq_ok {source : Source} {target : Target} {compiled : Compiled}
    (compiles : source.compile target = .ok compiled) :
    ∃ program start final, Module.ofSource source = .ok program ∧
      Lowering.start target = .ok start ∧ start.addProgram program = (.ok (), final) ∧
      compiled = ⟨final.ir, ⟨final.declarations.symbols (moduleName source.name)⟩⟩ := by
  unfold Source.compile Source.compileOn Module.compileOn at compiles
  simp only [Lowering.addProgramOn_standard] at compiles
  cases accepted : Module.ofSource source with
  | error failure => simp [accepted] at compiles
  | ok program =>
      cases starts : Lowering.start target with
      | error failure => simp [accepted, starts] at compiles
      | ok start =>
          cases added : start.addProgram program with
          | mk outcome final =>
              cases outcome with
              | error failure => simp [accepted, starts, added] at compiles
              | ok value =>
                  simp only [accepted, starts, added, Except.ok.injEq] at compiles
                  exact ⟨program, start, final, rfl, rfl, added, compiles.symm⟩

/-- What is left after lowering a program: its functions with their code, in order. -/
theorem Lowering.exists_lowered {target : Target} {program : Module} {start final : Lowering}
    (starts : Lowering.start target = .ok start)
    (added : start.addProgram program = (.ok (), final)) :
    ∃ lowered : List (Callable × Ir.Function),
      lowered.map (fun pair => pair.1.declaration) = program.functions ∧
      LoweredInOrder final.target [] lowered ∧ Registered final (lowered.map Prod.fst) ∧
      final.recorded.toList = Builtin.printCode final.target 0 :: lowered.map Prod.snd := by
  obtain ⟨-, rfl⟩ := Lowering.start_eq_ok_iff.mp starts
  have lowers := Lower.program_eq_ok_iff.mp (Lowering.addProgram_eq_ok_iff.mp added)
  obtain ⟨lowered, sameFunctions, inOrder, registered, recorded, sameTarget⟩ :=
    lowers.inOrder (.withBuiltins target)
  change final.target = target at sameTarget
  subst sameTarget
  exact ⟨lowered, sameFunctions, inOrder, registered, recorded⟩

theorem Registered.entry_name {lowering : Lowering} {before : List Callable}
    (registered : Registered lowering before) {index : Nat} {callable : Callable}
    (stands : (Callable.print lowering.target :: before)[index]? = some callable) :
    lowering.declarations.functions[index + 1]?.map FunctionEntry.name = some callable.name := by
  rw [← Array.getElem?_toList, registered.entries, List.getElem?_cons_succ]
  cases index with
  | zero =>
      cases stands
      rfl
  | succ index =>
      rw [List.getElem?_cons_succ] at stands ⊢
      rw [List.getElem?_map, stands]
      rfl

/-- What the numbers in the code of a program stand for.  The functions have numbers in
order, after that of the formatted output of the system. -/
structure CallsResolved (program : Module) (final : Lowering) : Prop where
  numbered : ∀ (index : Nat) function,
    (Builtin.print :: program.functions)[index]? = some function →
      final.declarations.functions[index + 1]?.map FunctionEntry.name = some function.lowLevelName
  resolved : ∀ (index : Nat) function, program.functions[index]? = some function →
    ∃ code, final.recorded[index + 1]? = some code ∧
      final.routine? (index + 2) = some (.code code) ∧
      List.Forall₂ (CallSite.Names (Builtin.print :: program.functions.take index))
        function.body.calls code.calledNumbers
  acyclic : ∀ number, ¬ Relation.TransGen final.Calls number number

/-- In a compiled source every call in the code of a function stands for a call of its
source and names the one function before it, or the built-in one, that has the name and the
labels of the call; so no function is reached from itself by calls. -/
theorem compiled_calls_look_back (source : Source) (target : Target) (compiled : Compiled)
    (compiles : source.compile target = .ok compiled) :
    ∃ program start final, Module.ofSource source = .ok program ∧
      Lowering.start target = .ok start ∧ start.addProgram program = (.ok (), final) ∧
      compiled = ⟨final.ir, ⟨final.declarations.symbols (moduleName source.name)⟩⟩ ∧
      CallsResolved program final := by
  obtain ⟨program, start, final, accepted, starts, added, isCompiled⟩ :=
    Source.compile_eq_ok compiles
  obtain ⟨lowered, sameFunctions, inOrder, registered, recorded⟩ :=
    Lowering.exists_lowered starts added
  have routines := registered.routines inOrder recorded
  refine ⟨program, start, final, accepted, starts, added, isCompiled, ?_, ?_,
    inOrder.acyclic registered routines⟩
  · intro index function stands
    have known : (Callable.print final.target :: lowered.map Prod.fst).map Callable.declaration =
        Builtin.print :: program.functions := by
      rw [← sameFunctions, List.map_cons, List.map_map]
      rfl
    rw [← known, List.getElem?_map] at stands
    obtain ⟨callable, isCallable, rfl⟩ := Option.map_eq_some_iff.mp stands
    exact registered.entry_name isCallable
  · intro index function stands
    rw [← sameFunctions, List.getElem?_map] at stands
    obtain ⟨pair, isPair, rfl⟩ := Option.map_eq_some_iff.mp stands
    refine ⟨pair.2, ?_, routines.ofCode index pair isPair, ?_⟩
    · rw [← Array.getElem?_toList, recorded, List.getElem?_cons_succ, List.getElem?_map, isPair]
      rfl
    · have calls := (inOrder.at_index isPair).calls
      rw [List.nil_append, List.map_cons, List.map_map] at calls
      rw [← sameFunctions, ← List.map_take]
      exact calls

/-- A source whose last function calls two others and has a parameter that is named as one of
them is in the object. -/
def shadowingSource : Source :=
  .ofText "shadowing" "fn f(x: Int) -> Int \x7b return x \x7d
fn f(y: Int) -> Int \x7b return f(x: y) \x7d
fn g(f_x: Int) -> Int \x7b return f(x: f_x) + f(y: f_x) \x7d"

theorem compiled_calls_look_back_shadowed : ∃ compiled program start final,
    shadowingSource.compile ⟨"x86_64", .systemV, .i64, .elf, true⟩ = .ok compiled ∧
    Module.ofSource shadowingSource = .ok program ∧
    Lowering.start ⟨"x86_64", .systemV, .i64, .elf, true⟩ = .ok start ∧
    start.addProgram program = (.ok (), final) ∧
    compiled = ⟨final.ir, ⟨final.declarations.symbols (moduleName "shadowing")⟩⟩ ∧
    CallsResolved program final := by
  have succeeds : (shadowingSource.compile ⟨"x86_64", .systemV, .i64, .elf, true⟩).toOption.isSome =
      true := by
    decide +kernel
  cases compiles : shadowingSource.compile ⟨"x86_64", .systemV, .i64, .elf, true⟩ with
  | error failure =>
      rw [compiles] at succeeds
      cases succeeds
  | ok compiled =>
      obtain ⟨program, start, final, resolved⟩ :=
        compiled_calls_look_back shadowingSource _ compiled compiles
      exact ⟨compiled, program, start, final, rfl, resolved⟩

end ScalarLang
