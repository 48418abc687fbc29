import ConstCheck.Check.Call
import ConstCheck.Check.Fold
import ConstCheck.Expr.Tree

/-!
# The checker

An expression is checked from its leaves up. Each form has one rule, which takes the checked
children and adds a node and the errors of the form itself after those of the children. The rules
are applied in two ways: along the numbers of an arena, and along the finite tree that the arena
means.

* `Context.checkParen`, `Context.checkBinary`, `Context.checkCall`: the rules of the forms.
* `Tree.check`: the check of a tree.
* `Arena.checkWithin`: the check of an expression of an arena, if its depth is within a bound.
* `Arena.check?`: the check of an expression of an arena; none for one that contains itself.
-/

namespace ConstCheck

namespace Context

/-- Parentheses change nothing of what is known. -/
def checkParen (inner : Checked) (span : Span) : Checked :=
  ⟨.mk span (.paren inner.node) inner.node.info, inner.errors⟩

/-- What a binary operation adds: the fold of two constants, and nothing otherwise. -/
def binaryInfo (ctx : Context) (op : Operator) (left right : Node) (span : Span) : Finding :=
  match left.singleType?, right.singleType?, left.constant?, right.constant? with
  | some _, some _, some a, some b =>
    let folded := a.fold op b ctx.word ⟨span, right.span⟩
    ⟨match folded.value with
      | some c => .ofConst c
      | none => .unknown,
      folded.errors⟩
  | _, _, _, _ => ⟨.unknown, []⟩

/-- A binary operation: the errors of the left operand, of the right one, of the fold. -/
def checkBinary (ctx : Context) (op : Operator) (left right : Checked) (span : Span) : Checked :=
  let finding := ctx.binaryInfo op left.node right.node span
  ⟨.mk span (.binary op left.node right.node) finding.info,
    left.errors ++ right.errors ++ finding.errors⟩

/-- A call: the errors of the callee, of the arguments in order, of the call. -/
def checkCall (ctx : Context) (func : Checked) (args : List Checked) (span : Span) : Checked :=
  let nodes := args.map Checked.node
  let finding := ctx.callInfo func.node nodes span
  ⟨.mk span (.call func.node nodes) finding.info,
    func.errors ++ args.flatMap Checked.errors ++ finding.errors⟩

end Context

namespace Tree

mutual

/-- The check of a tree. -/
def check (ctx : Context) : Tree → Checked
  | missing => Context.checkMissing
  | leaf l span => ctx.checkLeaf l span
  | paren inner span => Context.checkParen (check ctx inner) span
  | binary op left right span => ctx.checkBinary op (check ctx left) (check ctx right) span
  | call func args span => ctx.checkCall (check ctx func) (checkAll ctx args) span

/-- The checks of several trees. -/
def checkAll (ctx : Context) : List Tree → List Checked
  | [] => []
  | t :: ts => check ctx t :: checkAll ctx ts

end

end Tree

namespace Arena

/-- The check of an expression, if no path from it is longer than the bound. -/
def checkWithin (a : Arena) (ctx : Context) : Nat → ExprId → Option Checked
  | 0, _ => none
  | depth + 1, id =>
    match a.get? id with
    | none => some Context.checkMissing
    | some ⟨.leaf l, span⟩ => some (ctx.checkLeaf l span)
    | some ⟨.paren inner, span⟩ => do
      return Context.checkParen (← a.checkWithin ctx depth inner) span
    | some ⟨.binary op left right, span⟩ => do
      return ctx.checkBinary op (← a.checkWithin ctx depth left)
        (← a.checkWithin ctx depth right) span
    | some ⟨.call func args, span⟩ => do
      return ctx.checkCall (← a.checkWithin ctx depth func)
        (← (a.list args).mapM (a.checkWithin ctx depth)) span

/-- The check of an expression. A path that is longer than the arena visits an expression twice;
then the expression contains itself and has no check. -/
def check? (a : Arena) (ctx : Context) (id : ExprId) : Option Checked :=
  a.checkWithin ctx (a.exprs.size + 1) id

end Arena

end ConstCheck
