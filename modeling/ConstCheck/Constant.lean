import ConstCheck.Kind.Basic
import ConstCheck.Number.Text
import ConstCheck.Text.Quoted
import ConstCheck.Ty.Text
import ConstCheck.Value.Text

/-!
# Constants

The value of a constant expression: untyped, with an exact number, or of a concrete type. What is
known about the type of an expression is in the same way a kind or a type.

* `UntypedConst`, `Const`: untyped constants, and all.
* `KnownType`: a kind or a type.
* `Const.knownType`: what a constant's value says about its type.
-/

namespace ConstCheck

/-- An untyped constant; a number carries its own kind. -/
inductive UntypedConst where
  | number (n : Number)
  | string (s : String)
  | bool (b : Bool)
  | nil
  deriving DecidableEq

namespace UntypedConst

def kind : UntypedConst → Kind
  | number n => .number n.kind
  | string _ => .string
  | bool _ => .bool
  | nil => .nil

def text : UntypedConst → String
  | number n => n.text
  | string s => Text.quote s
  | bool b => toString b
  | nil => "nil"

end UntypedConst

/-- What is known of the type of an expression. -/
inductive KnownType where
  | untyped (kind : Kind)
  | typed (ty : Ty)
  deriving DecidableEq

namespace KnownType

/-- The concrete type, if it is one. -/
def ty? : KnownType → Option Ty
  | untyped _ => none
  | typed ty => some ty

def text : KnownType → String
  | untyped kind => "untyped " ++ kind.text
  | typed ty => ty.text

end KnownType

/-- The value of a constant expression. -/
inductive Const where
  | untyped (c : UntypedConst)
  | typed (v : TypedValue)

namespace Const

def number (n : Number) : Const := untyped (.number n)

def knownType : Const → KnownType
  | untyped c => .untyped c.kind
  | typed v => .typed v.ty

def text : Const → String
  | untyped c => c.text
  | typed v => v.text

end Const

end ConstCheck
