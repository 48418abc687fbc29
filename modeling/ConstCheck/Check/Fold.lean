import ConstCheck.Check.Conversion
import ConstCheck.Check.Operation
import ConstCheck.Kind.Promotion

/-!
# Folding binary operations

The value of an operation on two constants. Two untyped constants combine at their common kind and
stay untyped. An untyped constant beside a typed one takes its type first. Two typed constants
combine if one is assignable to the other's type, exactly, and the result is narrowed back.

* `Folded`: the value, if there is one, and the errors.
* `foldUntyped`, `foldMixed`, `foldTyped`: the three shapes.
* `Const.fold`: any two constants.
-/

namespace ConstCheck

/-- Where an operation stands: the whole of it, and its divisor. -/
structure OperationSpan where
  whole : Span
  divisor : Span

/-- The value of an operation, if there is one, and the errors. -/
structure Folded where
  value : Option Const
  errors : List CheckError

namespace Folded

/-- No value, because of errors in the operation. -/
def failed (place : OperationSpan) (kinds : List ErrorKind) : Folded :=
  ⟨none, kinds.map (⟨place.whole, ·⟩)⟩

/-- A value with the losses on the way. -/
def narrowed (place : OperationSpan) (r : TypedValue × List ErrorKind) : Folded :=
  ⟨some (.typed r.1), r.2.map (⟨place.whole, ·⟩)⟩

/-- Errors that come before the others. -/
def after (place : OperationSpan) (kinds : List ErrorKind) (f : Folded) : Folded :=
  { f with errors := kinds.map (⟨place.whole, ·⟩) ++ f.errors }

end Folded

/-- The operand that a misfit names. -/
def Side.pick {α : Type} (left right : α) : Side → α
  | .left => left
  | .right => right

/-- The same constant, under another kind if it is a number. -/
def UntypedConst.withKind (kind : Kind) : UntypedConst → UntypedConst
  | number n => number (n.withKind kind)
  | c => c

/-- Two untyped constants by an operator, kinds permitting. What comes of two numbers is tagged with
a kind, the common one. -/
def UntypedConst.operate (op : Operator) (kind : Kind) (a b : UntypedConst) :
    Except OpError UntypedConst :=
  match a, b with
  | number x, number y => (op.onNumbers x y).map (withKind kind)
  | string x, string y => op.onStrings x y
  | bool x, bool y => op.onBools x y
  | _, _ => .error .undefined

/-- Two untyped constants. A division by zero has the zero of the common kind as its value. -/
def foldUntyped (op : Operator) (a b : UntypedConst) (place : OperationSpan) : Folded :=
  let undefined : ErrorKind := .undefinedOperation op (.untyped a.kind) (.untyped b.kind)
  match a.kind.promote b.kind with
  | .error misfits =>
    let bad (m : Misfit) : ErrorKind := .badConversion (m.side.pick a b) (.kind m.wanted)
    .failed place (misfits.map bad ++ [undefined])
  | .ok kind =>
    match a.operate op kind b with
    | .ok c => ⟨some (.untyped c), []⟩
    | .error .divideByZero =>
      ⟨some (.number (.zeroOf kind)), [⟨place.divisor, .divideByZero⟩]⟩
    | .error .undefined => .failed place [undefined]
    | .error .fault => .failed place [.arithmeticFault]

/-- Two typed values by an operator, as the exact constants they denote; none where a number is
not finite. -/
def TypedValue.operate (op : Operator) (a b : TypedValue) (ty : Ty) :
    Option (Except OpError UntypedConst) :=
  if ty.isNumeric then do
    return op.onNumbers (← a.number?) (← b.number?)
  else
    match a.value, b.value with
    | .str x, .str y => some (op.onStrings x y)
    | .bool x, .bool y => some (op.onBools x y)
    | _, _ => none

/-- The type of the result of an operation on values of a type. -/
def Operator.resultType (op : Operator) (ty : Ty) : Ty := if op.isComparison then .bool else ty

/-- Two values of a type, exactly, the result narrowed to the type, or to bool for a comparison.
An operand that is not finite leaves no value, and no error: it was an error before. -/
def foldAt (op : Operator) (a b : TypedValue) (ty : Ty) (word : WordSize) (place : OperationSpan) :
    Folded :=
  let result := op.resultType ty
  match a.operate op b ty with
  | none => .failed place (if ty.isNumeric then [] else [.internal])
  | some (.ok c) => .narrowed place (c.narrow result word)
  | some (.error .divideByZero) =>
    ⟨some (.typed (.zero result)), [⟨place.divisor, .divideByZero⟩]⟩
  | some (.error .undefined) =>
    .failed place [.undefinedOperation op (.typed ty) (.typed ty)]
  | some (.error .fault) => .failed place [.arithmeticFault]

/-- A typed and an untyped constant; the side tells where the typed one stands. -/
def foldMixed (op : Operator) (v : TypedValue) (c : UntypedConst) (side : Side) (word : WordSize)
    (place : OperationSpan) : Folded :=
  let known : KnownType := .typed v.ty
  let other : KnownType := .untyped c.kind
  let undefined : ErrorKind :=
    .undefinedOperation op (side.pick known other) (side.pick other known)
  if !c.kind.convertsTo v.ty then .failed place [.badConversion c (.ty v.ty), undefined]
  else
    let (converted, losses) := c.narrow v.ty word
    if !op.definedOn v.ty then .failed place (losses ++ [undefined])
    else
      .after place losses
        (foldAt op (side.pick v converted) (side.pick converted v) v.ty word place)

/-- The type at which two typed operands combine: the right one's if the left is assignable to
it, else the left one's. -/
def commonType? (left right : Ty) : Option Ty :=
  if left.assignableTo right then some right
  else if right.assignableTo left then some left
  else none

/-- Two typed constants. -/
def foldTyped (op : Operator) (a b : TypedValue) (word : WordSize) (place : OperationSpan) :
    Folded :=
  match commonType? a.ty b.ty with
  | none => .failed place [.undefinedOperation op (.typed a.ty) (.typed b.ty)]
  | some ty =>
    if op.definedOn ty then foldAt op a b ty word place
    else .failed place [.undefinedOperation op (.typed ty) (.typed ty)]

/-- Two constants. -/
def Const.fold (op : Operator) (a b : Const) (word : WordSize) (place : OperationSpan) : Folded :=
  match a, b with
  | untyped a, untyped b => foldUntyped op a b place
  | typed a, untyped b => foldMixed op a b .left word place
  | untyped a, typed b => foldMixed op b a .right word place
  | typed a, typed b => foldTyped op a b word place

end ConstCheck
