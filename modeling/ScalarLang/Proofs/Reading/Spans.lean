import ScalarLang.Proofs.Reading.Nodes

/-!
# Spans of a program

Every span in a program is the span of a token or the union of two spans.  So what holds of
the spans of the tokens, and passes to unions, holds of all spans at any depth of a program.
-/

set_option autoImplicit false

namespace ScalarLang

/-! ## Spans of nodes -/

/-- The spans that stand in a node itself: its own, and those of the names in a call. -/
def Expr.ownSpans : Expr → List Span
  | .call name arguments _ span =>
    span :: name.span :: arguments.map fun argument => argument.label.span
  | expr => [expr.span]

def Expr.AllSpans (Holds : Span → Prop) (expr : Expr) : Prop :=
  ∀ node : Expr, node.Within expr → ∀ span ∈ node.ownSpans, Holds span

def FunctionDecl.headSpans (function : FunctionDecl) : List Span :=
  function.name.span :: (function.parameters.map (fun parameter => parameter.type.span) ++
    function.resultType.toList.map TypePath.span)

/-- Every span in a function has a property, those of the names of its parameters apart. -/
structure FunctionDecl.AllSpans (Holds : Span → Prop) (function : FunctionDecl) : Prop where
  head : ∀ span ∈ function.headSpans, Holds span
  body : ∀ expr ∈ function.body.expressions, expr.AllSpans Holds

theorem Expr.span_mem_ownSpans (expr : Expr) : expr.span ∈ expr.ownSpans := by
  cases expr <;> exact List.mem_cons_self

namespace Expr.AllSpans

variable {Holds : Span → Prop} {expr : Expr}

theorem own (all : expr.AllSpans Holds) : ∀ span ∈ expr.ownSpans, Holds span := all expr .self

theorem span (all : expr.AllSpans Holds) : Holds expr.span := all.own _ expr.span_mem_ownSpans

theorem part (all : expr.AllSpans Holds) {part : Expr} (isPart : part ∈ expr.parts) :
    part.AllSpans Holds :=
  fun node within => all node (.part isPart within)

theorem of_parts (own : ∀ span ∈ expr.ownSpans, Holds span)
    (parts : ∀ part ∈ expr.parts, part.AllSpans Holds) : expr.AllSpans Holds := by
  intro node within
  cases within with
  | self => exact own
  | part isPart within => exact parts _ isPart node within

/-- A node without parts and names has no other span than its own. -/
theorem leaf (noParts : expr.parts = []) (isOwn : expr.ownSpans = [expr.span])
    (holds : Holds expr.span) : expr.AllSpans Holds := by
  refine of_parts ?_ ?_
  · rw [isOwn]
    exact List.forall_mem_singleton.mpr holds
  · rw [noParts]
    exact List.forall_mem_nil _

theorem withSpan (all : expr.AllSpans Holds) {span : Span} (holds : Holds span) :
    (expr.withSpan span).AllSpans Holds := by
  refine of_parts ?_ ?_
  · have own := all.own
    cases expr with
    | call name arguments children _ =>
        exact List.forall_mem_cons.mpr ⟨holds, (List.forall_mem_cons.mp own).2⟩
    | _ => exact List.forall_mem_singleton.mpr holds
  · rw [parts_withSpan]
    exact fun _ isPart => all.part isPart

end Expr.AllSpans

namespace Grammar

/-! ## Spans of phrases -/

variable {Holds : Span → Prop}

def Phrase.AllSpans (Holds : Span → Prop) : Phrase → Prop
  | .expression _ tree => tree.AllSpans Holds
  | .operations _ others => ∀ pair ∈ others, pair.2.AllSpans Holds
  | .unary _ tree => tree.AllSpans Holds
  | .primary _ tree => tree.AllSpans Holds
  | .arguments list => ∀ argument ∈ list,
      Holds argument.label.span ∧ argument.value.AllSpans Holds
  | .lines trees => ∀ tree ∈ trees, tree.AllSpans Holds
  | .block body => ∀ tree ∈ body.expressions, tree.AllSpans Holds

theorem allSpans_call {name : Ident} {arguments : List CallArgument}
    {children : Option (List Expr)} {span : Span} (holds : Holds span) (ofName : Holds name.span)
    (ofArguments : (Phrase.arguments arguments).AllSpans Holds)
    (ofChildren : ∀ child ∈ children.getD [], child.AllSpans Holds) :
    (Expr.call name arguments children span).AllSpans Holds := by
  refine .of_parts ?_ ?_
  · refine List.forall_mem_cons.mpr ⟨holds, List.forall_mem_cons.mpr ⟨ofName, ?_⟩⟩
    exact List.forall_mem_map.mpr fun argument member => (ofArguments argument member).1
  · refine List.forall_mem_append.mpr ⟨?_, ofChildren⟩
    exact List.forall_mem_map.mpr fun argument member => (ofArguments argument member).2

theorem IsType.holds {path : TypePath} {tokens : List Token} (isType : IsType path tokens)
    (ofTokens : ∀ token ∈ tokens, Holds token.span) : ∀ name ∈ path.names, Holds name.span := by
  induction isType with
  | name _ => exact List.forall_mem_singleton.mpr (ofTokens _ List.mem_cons_self)
  | inner _ _ _ inductionHypothesis =>
      obtain ⟨ofName, inRest⟩ := List.forall_mem_cons.mp ofTokens
      exact List.forall_mem_cons.mpr
        ⟨ofName, inductionHypothesis (List.forall_mem_cons.mp inRest).2⟩

section Union

variable (union : ∀ left right, Holds left → Holds right → Holds (left.union right))

include union

theorem allSpans_grouping (grouping : Grouping) (first : grouping.first.AllSpans Holds)
    (others : ∀ pair ∈ grouping.others, pair.2.AllSpans Holds) :
    grouping.tree.AllSpans Holds := by
  induction grouping with
  | operand tree => exact first
  | operation op left right ofLeft ofRight =>
      obtain ⟨inLeft, inRest⟩ := List.forall_mem_append.mp others
      obtain ⟨ofFirst, inRight⟩ := List.forall_mem_cons.mp inRest
      have allLeft := ofLeft first inLeft
      have allRight := ofRight ofFirst inRight
      refine .of_parts ?_ ?_
      · exact List.forall_mem_singleton.mpr (union _ _ allLeft.span allRight.span)
      · exact List.forall_mem_cons.mpr ⟨allLeft, List.forall_mem_singleton.mpr allRight⟩

theorem Derives.allSpans {phrase : Phrase} {tokens : List Token} (derives : Derives phrase tokens)
    (ofTokens : ∀ token ∈ tokens, Holds token.span) : phrase.AllSpans Holds := by
  induction derives with
  | @expression _ grouping _ _ _ _ _ first rest =>
      obtain ⟨inFirst, inRest⟩ := List.forall_mem_append.mp ofTokens
      exact allSpans_grouping union grouping (first inFirst) (rest inRest)
  | noOperation => exact List.forall_mem_nil _
  | operation _ _ _ _ right rest =>
      simp only [List.cons_append, List.forall_mem_cons, List.forall_mem_append] at ofTokens
      obtain ⟨-, ⟨-, inRight⟩, inRest⟩ := ofTokens
      exact List.forall_mem_cons.mpr ⟨right inRight, rest inRest⟩
  | plain _ operand => exact operand ofTokens
  | not _ _ operand =>
      obtain ⟨ofSign, inOperand⟩ := List.forall_mem_cons.mp ofTokens
      have all : Expr.AllSpans Holds _ := operand inOperand
      refine .of_parts ?_ (List.forall_mem_singleton.mpr all)
      exact List.forall_mem_singleton.mpr (union _ _ ofSign all.span)
  | negative _ _ _ _ =>
      obtain ⟨ofSign, inDigits⟩ := List.forall_mem_cons.mp ofTokens
      have ofDigits := List.forall_mem_singleton.mp inDigits
      exact .leaf rfl rfl (union _ _ ofSign ofDigits)
  | negate _ _ _ operand =>
      obtain ⟨ofSign, inOperand⟩ := List.forall_mem_cons.mp ofTokens
      have all : Expr.AllSpans Holds _ := operand inOperand
      refine .of_parts ?_ (List.forall_mem_singleton.mpr all)
      exact List.forall_mem_singleton.mpr (union _ _ ofSign all.span)
  | identifier _ => exact .leaf rfl rfl (ofTokens _ List.mem_cons_self)
  | integer _ _ _ => exact .leaf rfl rfl (ofTokens _ List.mem_cons_self)
  | float _ => exact .leaf rfl rfl (ofTokens _ List.mem_cons_self)
  | boolean _ => exact .leaf rfl rfl (ofTokens _ List.mem_cons_self)
  | parentheses _ _ _ _ _ inner =>
      simp only [List.cons_append, List.forall_mem_cons, List.forall_mem_append] at ofTokens
      obtain ⟨ofOpening, ⟨⟨-, inInner⟩, -⟩, ofClosing, -⟩ := ofTokens
      exact (inner inInner).withSpan (union _ _ ofOpening ofClosing)
  | call _ _ _ _ _ inner =>
      simp only [List.cons_append, List.forall_mem_cons, List.forall_mem_append] at ofTokens
      obtain ⟨ofName, -, ⟨-, inInner⟩, ofClosing, -⟩ := ofTokens
      exact allSpans_call (union _ _ ofName ofClosing) ofName (inner inInner)
        (List.forall_mem_nil _)
  | callWithChildren _ _ _ _ _ _ _ _ _ inner innerLines =>
      simp only [List.cons_append, List.forall_mem_cons, List.forall_mem_append] at ofTokens
      obtain ⟨ofName, -, ⟨⟨-, inInner⟩, ofClosing, -⟩, -, ⟨-, inLines⟩, ofBrace, -⟩ := ofTokens
      exact allSpans_call (union _ _ (union _ _ ofName ofClosing) ofBrace) ofName (inner inInner)
        (innerLines inLines)
  | conditional _ _ _ test yes =>
      simp only [List.cons_append, List.forall_mem_cons, List.forall_mem_append] at ofTokens
      obtain ⟨ofStart, inTest, inBody, ofClosing, -⟩ := ofTokens
      have inYes := List.forall_mem_append.mpr ⟨inBody, List.forall_mem_singleton.mpr ofClosing⟩
      refine .of_parts (List.forall_mem_singleton.mpr (union _ _ ofStart ofClosing)) ?_
      exact List.forall_mem_cons.mpr ⟨test inTest,
        List.forall_mem_append.mpr ⟨yes inYes, List.forall_mem_nil _⟩⟩
  | conditionalElse _ _ _ _ _ test yes no =>
      simp only [List.cons_append, List.forall_mem_cons, List.forall_mem_append] at ofTokens
      obtain ⟨ofStart, ⟨inTest, inYes⟩, -, inBody, ofClosing, -⟩ := ofTokens
      have inNo := List.forall_mem_append.mpr ⟨inBody, List.forall_mem_singleton.mpr ofClosing⟩
      refine .of_parts (List.forall_mem_singleton.mpr (union _ _ ofStart ofClosing)) ?_
      exact List.forall_mem_cons.mpr ⟨test inTest, List.forall_mem_append.mpr ⟨yes inYes,
        List.forall_mem_append.mpr ⟨no inNo, List.forall_mem_nil _⟩⟩⟩
  | noArgument => exact List.forall_mem_nil _
  | lastArgument _ _ _ _ inner =>
      simp only [List.cons_append, List.forall_mem_cons, List.forall_mem_append] at ofTokens
      obtain ⟨ofLabel, -, inInner, -⟩ := ofTokens
      exact List.forall_mem_singleton.mpr ⟨ofLabel, inner inInner⟩
  | nextArgument _ _ _ _ _ _ _ inner rest =>
      simp only [List.cons_append, List.forall_mem_cons, List.forall_mem_append] at ofTokens
      obtain ⟨ofLabel, -, ⟨⟨inInner, -⟩, -, -⟩, inRest⟩ := ofTokens
      exact List.forall_mem_cons.mpr ⟨⟨ofLabel, inner inInner⟩, rest inRest⟩
  | noLine => exact List.forall_mem_nil _
  | lastLine _ inner => exact List.forall_mem_singleton.mpr (inner ofTokens)
  | nextLine _ _ _ _ inner rest =>
      simp only [List.forall_mem_append] at ofTokens
      obtain ⟨⟨inInner, -⟩, inRest⟩ := ofTokens
      exact List.forall_mem_cons.mpr ⟨inner inInner, rest inRest⟩
  | block _ _ _ _ inner =>
      simp only [List.cons_append, List.forall_mem_cons, List.forall_mem_append] at ofTokens
      obtain ⟨-, ⟨-, inInner⟩, -⟩ := ofTokens
      exact List.forall_mem_append.mpr ⟨inner inInner, List.forall_mem_nil _⟩
  | blockWithResult _ _ _ _ _ _ _ inner returned =>
      simp only [List.cons_append, List.forall_mem_cons, List.forall_mem_append] at ofTokens
      obtain ⟨-, ⟨⟨⟨-, inInner⟩, -, inReturned⟩, -⟩, -⟩ := ofTokens
      exact List.forall_mem_append.mpr ⟨inner inInner,
        List.forall_mem_singleton.mpr (returned inReturned)⟩

/-! ## Spans of functions -/

theorem IsType.span_holds {path : TypePath} {tokens : List Token} (isType : IsType path tokens)
    (ofTokens : ∀ token ∈ tokens, Holds token.span) : Holds path.span := by
  obtain ⟨front, last, isRow, isSpan, -⟩ := isType.exists_last
  have ofLast : Holds path.last := by
    rw [isSpan]
    exact ofTokens last (by simp [isRow])
  exact union _ _ (isType.holds ofTokens _ List.mem_cons_self) ofLast

theorem AreParameters.span_holds {parameters : List Parameter} {tokens : List Token}
    (areParameters : AreParameters parameters tokens)
    (ofTokens : ∀ token ∈ tokens, Holds token.span) :
    ∀ parameter ∈ parameters, Holds parameter.type.span := by
  have ofOne : ∀ {parameter : Parameter} {tokens : List Token}, IsParameter parameter tokens →
      (∀ token ∈ tokens, Holds token.span) → Holds parameter.type.span := by
    rintro _ _ ⟨_, _, isType⟩ ofTokens
    exact isType.span_holds union fun token member => ofTokens token (.tail _ (.tail _ member))
  induction areParameters with
  | none => exact List.forall_mem_nil _
  | last isParameter => exact List.forall_mem_singleton.mpr (ofOne isParameter ofTokens)
  | next isParameter _ _ _ inductionHypothesis =>
      obtain ⟨inFirst, inRest⟩ := List.forall_mem_append.mp ofTokens
      exact List.forall_mem_cons.mpr ⟨ofOne isParameter (List.forall_mem_append.mp inFirst).1,
        inductionHypothesis inRest⟩

theorem IsFunction.allSpans {function : FunctionDecl} {tokens : List Token}
    (isFunction : IsFunction function tokens)
    (ofTokens : ∀ token ∈ tokens, Holds token.span) : function.AllSpans Holds := by
  obtain ⟨_, _, _, _, areParameters, _, isResult, isBody⟩ := isFunction
  simp only [List.cons_append, List.forall_mem_cons, List.forall_mem_append] at ofTokens
  obtain ⟨-, ofName, -, ⟨⟨-, inList⟩, -, inResult⟩, inBody⟩ := ofTokens
  refine ⟨List.forall_mem_cons.mpr ⟨ofName, List.forall_mem_append.mpr ⟨?_, ?_⟩⟩,
    isBody.allSpans union inBody⟩
  · exact List.forall_mem_map.mpr (areParameters.span_holds union inList)
  · cases isResult with
    | none => exact List.forall_mem_nil _
    | some _ isType =>
        exact List.forall_mem_singleton.mpr
          (isType.span_holds union (List.forall_mem_cons.mp inResult).2)

theorem AreFunctions.allSpans {functions : List FunctionDecl} {tokens : List Token}
    (areFunctions : AreFunctions functions tokens)
    (ofTokens : ∀ token ∈ tokens, Holds token.span) :
    ∀ function ∈ functions, function.AllSpans Holds := by
  induction areFunctions with
  | last isFunction _ =>
      obtain ⟨inFunction, -⟩ := List.forall_mem_append.mp ofTokens
      exact List.forall_mem_singleton.mpr (isFunction.allSpans union inFunction)
  | next isFunction _ _ _ inductionHypothesis =>
      obtain ⟨inFirst, inRest⟩ := List.forall_mem_append.mp ofTokens
      obtain ⟨inFunction, -⟩ := List.forall_mem_append.mp inFirst
      exact List.forall_mem_cons.mpr
        ⟨isFunction.allSpans union inFunction, inductionHypothesis inRest⟩

/-- What holds of the tokens of a program and passes to unions holds of all its spans. -/
theorem IsProgram.allSpans {program : Module} {tokens : List Token}
    (isProgram : IsProgram program tokens)
    (ofTokens : ∀ token ∈ tokens, Holds token.span) :
    ∀ function ∈ program.functions, function.AllSpans Holds := by
  obtain ⟨_, areFunctions⟩ := isProgram
  exact areFunctions.allSpans union (List.forall_mem_append.mp ofTokens).2

end Union

end Grammar

end ScalarLang
