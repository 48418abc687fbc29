import ConstCheck.Expr.Arena

/-!
# Expression trees

The finite tree that an arena means at one of its expressions: numbers are followed, shared
expressions copied, and a number of no expression becomes a `missing` leaf. An expression that
reaches itself has no finite tree.

* `Tree`: the trees.
* `Arena.treeWithin`: the tree of an expression, if its depth is within a bound.
* `Arena.tree?`: the tree, if there is one. A path without repetition visits each expression of
  the arena once at most, and may end in a number of no expression.
-/

namespace ConstCheck

/-- An expression with its children in place. -/
inductive Tree where
  | missing
  | leaf (leaf : Leaf) (span : Span)
  | paren (inner : Tree) (span : Span)
  | binary (op : Operator) (left right : Tree) (span : Span)
  | call (func : Tree) (args : List Tree) (span : Span)

namespace Arena

/-- The tree of an expression, if no path from it is longer than the bound. -/
def treeWithin (a : Arena) : Nat → ExprId → Option Tree
  | 0, _ => none
  | depth + 1, id =>
    match a.get? id with
    | none => some .missing
    | some ⟨.leaf l, span⟩ => some (.leaf l span)
    | some ⟨.paren inner, span⟩ => do
      return .paren (← a.treeWithin depth inner) span
    | some ⟨.binary op left right, span⟩ => do
      return .binary op (← a.treeWithin depth left) (← a.treeWithin depth right) span
    | some ⟨.call func args, span⟩ => do
      return .call (← a.treeWithin depth func)
        (← (a.list args).mapM (a.treeWithin depth)) span

/-- The tree of an expression, if it is finite. -/
def tree? (a : Arena) (id : ExprId) : Option Tree := a.treeWithin (a.exprs.size + 1) id

end Arena

end ConstCheck
