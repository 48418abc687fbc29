import ConstCheck.Check.Error
import ConstCheck.Number.Narrowing
import ConstCheck.Ty.Relations

/-!
# Conversion of constants

A constant becomes a value of a type in two ways. Narrowing takes an untyped constant and always
yields a value of the type, with the losses on the way as errors. An explicit conversion takes any
constant and yields none where the types do not convert.

* `Kind.convertsTo`: which kinds convert to which types.
* `UntypedConst.narrow`: an untyped constant as a value of a type.
* `Const.convert`: the explicit conversion of a constant.
-/

namespace ConstCheck

/-- Whether the untyped constants of a kind convert to a type. -/
def Kind.convertsTo (k : Kind) (ty : Ty) : Bool :=
  match k with
  | number _ => ty.isNumeric
  | string => ty.category == .string
  | bool => ty.category == .bool
  | nil => ty.isNilable

/-- The errors that a narrowed number reports: first what was cut off, then what did not fit. -/
def Narrowed.losses {α : Type} (r : Narrowed α) (n : Number) (kind : NumKind) (ty : Ty) :
    List ErrorKind :=
  (if r.truncated then [.truncated n kind] else []) ++
    (if r.overflowed then [.overflowed n ty] else [])

/-- A number as a value of a type. Parts of complex values are rounded without a report. -/
def Number.narrow (n : Number) (ty : Ty) (word : WordSize) : TypedValue × List ErrorKind :=
  let bits := (ty.bits? word).getD 64
  match ty.category with
  | .signed =>
    let r := n.toSigned bits
    (⟨ty, .int r.value⟩, r.losses n .int ty)
  | .unsigned =>
    let r := n.toUnsigned bits
    (⟨ty, .uint r.value⟩, r.losses n .int ty)
  | .float =>
    let r := n.toFloat (if bits = 32 then .binary32 else .binary64)
    (⟨ty, .float r.value⟩, r.losses n .float ty)
  | .complex =>
    let (re, im) := n.toComplex (if bits = 64 then .binary32 else .binary64)
    (⟨ty, .complex re im⟩, [])
  | _ => (.zero ty, [.badConversion (.number n) (.ty ty)])

/-- An untyped constant as a value of a type. Where the kind does not convert, the value is the
zero of the type and the error says so. -/
def UntypedConst.narrow (c : UntypedConst) (ty : Ty) (word : WordSize) :
    TypedValue × List ErrorKind :=
  match c with
  | number n => n.narrow ty word
  | string s => if ty.category = .string then (⟨ty, .str s⟩, []) else (.zero ty, [.internal])
  | bool b =>
    if ty.category = .bool then (⟨ty, .bool b⟩, [])
    else (.zero ty, [.badConversion c (.ty ty)])
  | nil => if ty.isNilable then (.zero ty, []) else (.zero ty, [.badConversion c (.ty ty)])

/-- The explicit conversion of a constant to a type. A typed number is narrowed from its exact
value again; one that is not finite has no value of a numeric type, and no error, since that it
is not finite was an error before. -/
def Const.convert (c : Const) (ty : Ty) (word : WordSize) : Option TypedValue × List ErrorKind :=
  match c with
  | untyped u =>
    if u.kind.convertsTo ty then
      let (v, errors) := u.narrow ty word
      (some v, errors)
    else (none, [.badConversion u (.ty ty)])
  | typed v =>
    if !v.ty.convertibleTo ty then (none, [.invalidConversion v.text v.ty ty])
    else if ty.isNumeric then
      match v.number? with
      | some n =>
        let (v, errors) := n.narrow ty word
        (some v, errors)
      | none => (none, [])
    else (some ⟨ty, v.value⟩, [])

end ConstCheck
