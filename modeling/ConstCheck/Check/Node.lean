import ConstCheck.Check.Builtin
import ConstCheck.Expr.Arena

/-!
# Checked expressions

The result of checking an expression is a node with the same children, checked, and with what is
known of it: the types of the values it produces, whether it is constant, and its value. A
variable has a value without being constant, namely the one it holds now.

* `Info`: what is known.
* `Node`, `NodeKind`: the nodes.
* `Node.singleType?`, `Node.constant?`: the type of a single value, the value of a constant.
-/

namespace ConstCheck

/-- What is known of an expression. -/
structure Info where
  /-- The types of the values produced; none where nothing is known, or where the expression has
  no value. -/
  known : List KnownType := []
  isConst : Bool := false
  value : Option Const := none

namespace Info

/-- Nothing is known. -/
def unknown : Info := {}

/-- A constant. -/
def ofConst (c : Const) : Info := ⟨[c.knownType], true, some c⟩

/-- A typed value that is read now, and not constant. -/
def ofReading (v : TypedValue) : Info := ⟨[.typed v.ty], false, some (.typed v)⟩

/-- Values of which the types alone are known. -/
def ofTypes (known : List KnownType) : Info := { known }

/-- The type, if there is exactly one value. -/
def singleType? (i : Info) : Option KnownType :=
  match i.known with
  | [known] => some known
  | _ => none

/-- The value of a constant. -/
def constant? (i : Info) : Option Const := if i.isConst then i.value else none

@[simp]
theorem constant?_ofConst (c : Const) : (ofConst c).constant? = some c := rfl

@[simp]
theorem singleType?_ofConst (c : Const) : (ofConst c).singleType? = some c.knownType := rfl

@[simp]
theorem constant?_unknown : unknown.constant? = none := rfl

@[simp]
theorem singleType?_unknown : unknown.singleType? = none := rfl

end Info

mutual

/-- A checked expression. -/
inductive Node where
  | mk (span : Span) (kind : NodeKind) (info : Info)

/-- The form of a checked expression. -/
inductive NodeKind where
  | literal
  /-- A variable, constant, function or package, `nil`, `true`, `false`, or an unknown name. -/
  | ident (name : Name)
  /-- The name of a builtin. A call of it looks the name up again. -/
  | builtin (name : Name)
  | typeName (ty : Ty)
  | paren (inner : Node)
  | binary (op : Operator) (left right : Node)
  | call (func : Node) (args : List Node)

end

namespace Node

def span : Node → Span
  | mk span _ _ => span

def kind : Node → NodeKind
  | mk _ kind _ => kind

def info : Node → Info
  | mk _ _ info => info

/-- The type, if the expression produces one value. -/
def singleType? (n : Node) : Option KnownType := n.info.singleType?

/-- The value of a constant expression. -/
def constant? (n : Node) : Option Const := n.info.constant?

end Node

end ConstCheck
