import ConstCheck.Expr.Arena
import ConstCheck.Text.Quoted

/-!
# Dump of an arena

The text in which an arena is shown for inspection: constructors with their fields, names and
expressions by number, the span after an `@`.

* `Expr.dump`: one expression.
* `Name.dump`, `ExprId.dump`, `ExprRange.dump`: what it refers to.
-/

namespace ConstCheck

def Name.dump (n : Name) : String := s!"Name({n.index})"

def ExprId.dump (id : ExprId) : String :=
  if id.isValid then s!"ExprId({id.index})" else "ExprId::INVALID"

def ExprRange.dump (r : ExprRange) : String :=
  "ExprRange \x7b start: " ++ r.start.repr ++ ", len: " ++ r.length.repr ++ " \x7d"

/-- The word for an operator. -/
def Operator.dump : Operator → String
  | add => "Add"
  | sub => "Sub"
  | mul => "Mul"
  | quo => "Quo"
  | rem => "Rem"
  | and => "And"
  | or => "Or"
  | xor => "Xor"
  | andNot => "AndNot"
  | eq => "Eql"
  | ne => "Neq"
  | lt => "Lss"
  | le => "Leq"
  | gt => "Gtr"
  | ge => "Geq"
  | logicalAnd => "LogicalAnd"
  | logicalOr => "LogicalOr"

def Leaf.dump : Leaf → String
  | int text => s!"Int({text.dump})"
  | float text => s!"Float({text.dump})"
  | imag text => s!"Imag({text.dump})"
  | rune c => "Rune(" ++ Text.quoteChar c ++ ")"
  | string text => s!"String({text.dump})"
  | ident name => s!"Ident({name.dump})"

def ExprKind.dump : ExprKind → String
  | leaf l => l.dump
  | paren inner => s!"Paren({inner.dump})"
  | binary op left right =>
    "Binary \x7b op: " ++ op.dump ++ ", left: " ++ left.dump ++ ", right: " ++ right.dump ++ " \x7d"
  | call func args => "Call \x7b func: " ++ func.dump ++ ", args: " ++ args.dump ++ " \x7d"

def Expr.dump (e : Expr) : String := e.kind.dump ++ " @ " ++ e.span.text

end ConstCheck
