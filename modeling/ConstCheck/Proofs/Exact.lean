import Mathlib.Algebra.QuadraticAlgebra.Basic
import ConstCheck.Check.Checker
import ConstCheck.Proofs.Words
import ConstCheck.Proofs.Narrowing

/-!
# The exact meaning of constant expressions

A second evaluator, to measure the checker by. It works over complex rationals, strings and bools,
and nothing is ever rounded, wrapped or cut off: a conversion only says of what type its operand is
from now on. The one place where a fraction is dropped is the quotient of two integers.

* `Exact`, `ExactValue`, `Denotation`: complex rationals, values, and values with their known type.
* `KnownType.common?`: the type at which two operands combine.
* `Operator.Relates`, `Operator.holds_compare_iff`: the relations that comparisons stand for.
* `Operator.onExact?`, `Operator.denote?`: what an operator means.
* `Tree.denote?`: what an expression means.
* `Tree.ConstExpr`: the constant expressions, with conversions to some of the predeclared types.
-/

namespace ConstCheck

/-- The complex rationals. -/
abbrev Exact := QuadraticAlgebra ℚ (-1) 0

/-- Minus one is not the square of a rational, so complex rationals divide. -/
instance Exact.noRoot : Fact (∀ r : ℚ, r ^ 2 ≠ -1 + 0 * r) :=
  ⟨fun r h => by nlinarith [sq_nonneg r]⟩

/-- The whole part of a rational, toward zero. -/
def truncate (q : ℚ) : ℤ := if 0 ≤ q then ⌊q⌋ else ⌈q⌉

/-- The integer that a complex rational is, if it is one. -/
def Exact.integer? (x : Exact) : Option ℤ := if x.im = 0 ∧ x.re.den = 1 then some x.re.num else none

/-- The value of a constant expression, whatever its type. -/
inductive ExactValue where
  | number (x : Exact)
  | string (s : String)
  | bool (b : Bool)
  | nil

/-- A value and what is known of its type. -/
structure Denotation where
  known : KnownType
  value : ExactValue

/-! ## Constants -/

/-- The value of a number; its kind is left to the type. -/
def Number.exact (n : Number) : Exact := ⟨n.re, n.im⟩

namespace UntypedConst

def exact : UntypedConst → ExactValue
  | number n => .number n.exact
  | string s => .string s
  | bool b => .bool b
  | nil => .nil

end UntypedConst

/-- The exact value of a typed value of a basic type; none where a float is not finite. -/
def TypedValue.exactValue? (v : TypedValue) : Option ExactValue :=
  match v.value with
  | .str s => some (.string s)
  | .bool b => some (.bool b)
  | _ => v.number?.map fun n => .number n.exact

/-- What a constant denotes. -/
def Const.denote? : Const → Option Denotation
  | untyped c => some ⟨.untyped c.kind, c.exact⟩
  | typed v => v.exactValue?.map fun x => ⟨.typed v.ty, x⟩

/-! ## Types -/

/-- Whether a type can be said of a value: only the families must agree. -/
def ExactValue.suits (x : ExactValue) (ty : Ty) : Bool :=
  match x with
  | number _ => ty.isNumeric
  | string _ => ty.category == .string
  | bool _ => ty.category == .bool
  | nil => false

/-- A conversion: the same value under a type. -/
def ExactValue.retag? (x : ExactValue) (ty : Ty) : Option Denotation :=
  if x.suits ty then some ⟨.typed ty, x⟩ else none

namespace KnownType

/-- The kind of the numbers at a type. -/
def numKind : KnownType → NumKind
  | untyped kind => kind.number?.getD .int
  | typed ty => ty.numKind

/-- The type at which two operands combine. An untyped operand takes the type of a typed one; two
types must be alike below their names, and only one may have a name of its own. -/
def common? : KnownType → KnownType → Option KnownType
  | untyped (.number j), untyped (.number k) => some (untyped (.number (j.join k)))
  | untyped j, untyped k => if j = k then some (untyped j) else none
  | typed ty, untyped _ => some (typed ty)
  | untyped _, typed ty => some (typed ty)
  | typed s, typed t =>
    if s.underlying = t.underlying ∧ (s = t ∨ ¬(s.isNamed ∧ t.isNamed)) then some (typed t)
    else none

/-- The type of a comparison of operands of a type. -/
def bool : KnownType → KnownType
  | untyped _ => untyped .bool
  | typed _ => typed .bool

end KnownType

/-- **The checker combines basic types as it should**: at the right one. -/
theorem commonType?_of_isBasic {s t ty : Ty} (hs : s.category.isBasic) (ht : t.category.isBasic)
    (h : commonType? s t = some ty) :
    ty = t ∧ s.underlying = t.underlying ∧
      KnownType.common? (.typed s) (.typed t) = some (.typed t) := by
  have hs' := Ty.ne_any_of_isBasic hs
  have ht' := Ty.ne_any_of_isBasic ht
  have hst : s.assignableTo t := by
    unfold commonType? at h
    split at h
    · assumption
    · split at h
      · rename_i hts
        exact (Ty.assignableTo_comm hs' ht').2 hts
      · simp at h
  have halike := (Ty.assignableTo_iff ht').1 hst
  rw [commonType?, if_pos hst] at h
  refine ⟨(Option.some.inj h).symm, halike.1, ?_⟩
  rw [KnownType.common?, if_pos halike]

/-! ## Operators -/

namespace Operator

section

variable {κ : Type} [LinearOrder κ]

/-- The relation that a comparison stands for. -/
def Relates (op : Operator) (a b : κ) : Prop :=
  match op with
  | eq => a = b
  | ne => a ≠ b
  | lt => a < b
  | le => a ≤ b
  | gt => b < a
  | ge => b ≤ a
  | _ => False

theorem holds_compare_iff (op : Operator) (a b : κ) : op.holds (compare a b) ↔ op.Relates a b := by
  rcases lt_trichotomy a b with h | h | h
  · rw [compare_lt_iff_lt.2 h]
    cases op <;> simp [holds, Relates, h, h.ne, h.le, h.not_gt]
  · rw [compare_eq_iff_eq.2 h]
    cases op <;> simp [holds, Relates, h]
  · rw [compare_gt_iff_gt.2 h]
    cases op <;> simp [holds, Relates, h, h.ne', h.le, h.not_gt]

/-- A comparison decides its relation. -/
theorem decide_eq_holds {op : Operator} {a b : κ} {p : Prop} [Decidable p]
    (h : p ↔ op.Relates a b) : decide p = op.holds (compare a b) := by
  rw [Bool.eq_iff_iff, decide_eq_true_iff, holds_compare_iff, h]

end

/-- What an operator means on two numbers at a kind. Integral kinds have a whole quotient, a
remainder and digits; real kinds have an order. -/
def onExact? (op : Operator) (kind : NumKind) (x y : Exact) : Option ExactValue :=
  match op with
  | add => some (.number (x + y))
  | sub => some (.number (x - y))
  | mul => some (.number (x * y))
  | quo =>
    if y = 0 then none
    else if kind.isIntegral then some (.number (truncate (x / y).re : ℤ))
    else some (.number (x / y))
  | rem =>
    if y = 0 ∨ !kind.isIntegral then none
    else some (.number (x - y * (truncate (x / y).re : ℤ)))
  | and | or | xor | andNot =>
    if kind.isIntegral then do
      return .number ((op.exact (← x.integer?) (← y.integer?) : ℤ))
    else none
  | eq => some (.bool (x = y))
  | ne => some (.bool (x ≠ y))
  | lt => if kind.isReal then some (.bool (x.re < y.re)) else none
  | le => if kind.isReal then some (.bool (x.re ≤ y.re)) else none
  | gt => if kind.isReal then some (.bool (y.re < x.re)) else none
  | ge => if kind.isReal then some (.bool (y.re ≤ x.re)) else none
  | logicalAnd | logicalOr => none

/-- What an operator means on two values at a type. -/
def onValues? (op : Operator) (known : KnownType) (a b : ExactValue) : Option ExactValue :=
  match a, b with
  | .number x, .number y => op.onExact? known.numKind x y
  | .string s, .string t =>
    match op with
    | add => some (.string (s ++ t))
    | eq => some (.bool (s = t))
    | ne => some (.bool (s ≠ t))
    | lt => some (.bool (s < t))
    | le => some (.bool (s ≤ t))
    | gt => some (.bool (t < s))
    | ge => some (.bool (t ≤ s))
    | _ => none
  | .bool p, .bool q =>
    match op with
    | eq => some (.bool (p = q))
    | ne => some (.bool (p ≠ q))
    | logicalAnd => some (.bool (p ∧ q))
    | logicalOr => some (.bool (p ∨ q))
    | _ => none
  | _, _ => none

/-- What an operator means on two operands. -/
def denote? (op : Operator) (a b : Denotation) : Option Denotation := do
  let known ← a.known.common? b.known
  let value ← op.onValues? known a.value b.value
  return ⟨if op.isComparison then known.bool else known, value⟩

end Operator

/-! ## Expressions -/

/-- What a leaf means: a literal is read, an identifier stands for a constant. -/
def Leaf.denote? (ctx : Context) : Leaf → Option Denotation
  | int text => (Literal.int? (ctx.names.lookup text).toList).bind fun n => (Const.number n).denote?
  | float text =>
    (Literal.float? (ctx.names.lookup text).toList).bind fun n => (Const.number n).denote?
  | imag text =>
    (Literal.imag? (ctx.names.lookup text).toList).bind fun n => (Const.number n).denote?
  | rune c => some ⟨.untyped (.number .rune), .number (c.toNat : ℕ)⟩
  | string text => some ⟨.untyped .string, .string (ctx.names.lookup text)⟩
  | ident name =>
    match ctx.resolve? name with
    | some (.const c) => c.denote?
    | _ => none

/-- **What a constant expression means.** -/
def Tree.denote? (ctx : Context) : Tree → Option Denotation
  | leaf l _ => l.denote? ctx
  | paren inner _ => denote? ctx inner
  | binary op left right _ => do op.denote? (← denote? ctx left) (← denote? ctx right)
  | call (leaf (.ident name) _) [arg] _ =>
    match ctx.resolve? name with
    | some (.type ty) => do (← denote? ctx arg).value.retag? ty
    | _ => none
  | _ => none
termination_by structural t => t

/-- Literals, constants, and operations on them, in parentheses or not, with conversions to the
types of a class. A conversion names its type, and nothing hides the name. -/
inductive Tree.ConstExpr (ctx : Context) (T : Ty → Prop) : Tree → Prop
  | int (text span) : ConstExpr ctx T (.leaf (.int text) span)
  | float (text span) : ConstExpr ctx T (.leaf (.float text) span)
  | imag (text span) : ConstExpr ctx T (.leaf (.imag text) span)
  | rune (c span) : ConstExpr ctx T (.leaf (.rune c) span)
  | string (text span) : ConstExpr ctx T (.leaf (.string text) span)
  | ident {name c} (span) (h : ctx.resolve? name = some (.const c)) :
    ConstExpr ctx T (.leaf (.ident name) span)
  | paren {inner} (span) (h : ConstExpr ctx T inner) : ConstExpr ctx T (.paren inner span)
  | binary {l r} (op span) (hl : ConstExpr ctx T l) (hr : ConstExpr ctx T r) :
    ConstExpr ctx T (.binary op l r span)
  | convert {name ty arg} (place span) (h : ctx.resolve? name = some (.type ty)) (hty : T ty)
    (harg : ConstExpr ctx T arg) :
    ConstExpr ctx T (.call (.leaf (.ident name) place) [arg] span)

end ConstCheck
