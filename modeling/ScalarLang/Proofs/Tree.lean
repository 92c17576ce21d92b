import ScalarLang.Tree.Basic

/-!
# Induction over trees

Expressions hold lists of arguments and children and whole blocks.  The induction
below speaks of the expressions inside them by membership, so that a property of
expressions is the only one that has to be named.
-/

set_option autoImplicit false

namespace ScalarLang

def Block.expressions (block : Block) : List Expr := block.statements ++ block.result.toList

/-- A property holds of every expression if it passes from the parts of each form to
the whole. -/
theorem Expr.induction {motive : Expr → Prop}
    (literal : ∀ value span, motive (.literal value span))
    (identifier : ∀ name span, motive (.identifier name span))
    (unary : ∀ op operand span, motive operand → motive (.unary op operand span))
    (binary : ∀ op lhs rhs span, motive lhs → motive rhs → motive (.binary op lhs rhs span))
    (call : ∀ name arguments children span, (∀ argument ∈ arguments, motive argument.value) →
      (∀ child ∈ children.getD [], motive child) → motive (.call name arguments children span))
    (conditional : ∀ condition thenBlock elseBlock span, motive condition →
      (∀ part ∈ thenBlock.expressions, motive part) →
      (∀ block ∈ elseBlock, ∀ part ∈ block.expressions, motive part) →
      motive (.conditional condition thenBlock elseBlock span))
    (expr : Expr) : motive expr := by
  refine @Expr.rec motive
    (fun block => ∀ part ∈ block.expressions, motive part)
    (fun argument => motive argument.value)
    (fun block? => ∀ block ∈ block?, ∀ part ∈ block.expressions, motive part)
    (fun arguments => ∀ argument ∈ arguments, motive argument.value)
    (fun children => ∀ child ∈ children.getD [], motive child)
    (fun parts => ∀ part ∈ parts, motive part)
    (fun part? => ∀ part ∈ part?.toList, motive part)
    ?conditional ?call ?binary ?unary ?identifier ?literal ?block ?argument ?noBlock ?someBlock
    ?noArguments ?moreArguments ?noChildren ?someChildren ?noParts ?moreParts ?noPart ?somePart expr
  case conditional =>
    intro condition thenBlock elseBlock span
    exact conditional condition thenBlock elseBlock span
  case call => exact call
  case binary => exact binary
  case unary => exact unary
  case identifier => exact identifier
  case literal => exact literal
  case block =>
    intro statements result ofStatements ofResult part member
    rcases List.mem_append.mp member with member | member
    · exact ofStatements part member
    · exact ofResult part member
  case argument => exact fun _ _ ofValue => ofValue
  case moreArguments =>
    intro first rest ofFirst ofRest argument member
    rcases List.mem_cons.mp member with rfl | member
    · exact ofFirst
    · exact ofRest argument member
  case moreParts =>
    intro first rest ofFirst ofRest part member
    rcases List.mem_cons.mp member with rfl | member
    · exact ofFirst
    · exact ofRest part member
  all_goals simp

end ScalarLang
