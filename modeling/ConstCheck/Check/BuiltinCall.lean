import ConstCheck.Check.Conversion
import ConstCheck.Value.Store

/-!
# Calls of builtin functions

Each builtin has two sides: its value on arguments whose values are known, and the types of its
results where only the types of the arguments are. A call changes the store only where it makes a
new cell.

* `Builtin.call`: the value of a call.
* `Builtin.resultTypes`: the types of its results.
-/

namespace ConstCheck

/-- The only loss that passing an argument allows: precision of a float. -/
def ErrorKind.isRounding : ErrorKind → Bool
  | truncated _ .float => true
  | _ => false

/-- An untyped constant passed as an argument of a type. Rounding to a float is accepted, a number
off the real axis or out of range is not. -/
def UntypedConst.pass? (c : UntypedConst) (ty : Ty) (word : WordSize) : Option TypedValue :=
  let onAxis :=
    match c with
    | number n => n.isRealValued || ty.category == .complex
    | _ => true
  if c.kind.convertsTo ty && onAxis then
    let (v, errors) := c.narrow ty word
    if errors.all ErrorKind.isRounding then some v else none
  else none

/-- A constant as a float of a nameless type; a typed one must be of that type below its names. -/
def Const.float? (c : Const) (ty : Ty) (word : WordSize) : Option FloatValue :=
  match c with
  | typed v => if v.ty.underlying = ty then v.float? else none
  | untyped u => (u.pass? ty word).bind TypedValue.float?

namespace Ty

/-- The types whose values have a length. -/
def hasLength (ty : Ty) : Bool :=
  match ty.underlying with
  | slice _ | map _ _ | chan _ | array _ _ => true
  | _ => ty.category == .string

/-- The types whose values have a capacity. -/
def hasCapacity (ty : Ty) : Bool :=
  match ty.underlying with
  | slice _ | chan _ | array _ _ => true
  | _ => false

end Ty

namespace Builtin

/-- The arguments of a function of one. -/
def one (b : Builtin) (args : List Arg) : Except BuiltinError Arg :=
  match args with
  | [arg] => .ok arg
  | _ => .error (.wrongArgumentCount b)

/-- The arguments of a function of two. -/
def two (b : Builtin) (args : List Arg) : Except BuiltinError (Arg × Arg) :=
  match args with
  | [x, y] => .ok (x, y)
  | _ => .error (.wrongArgumentCount b)

/-- The largest length that a value of type `int` can say. -/
def maxLength : Nat := 0x7FFFFFFFFFFFFFFF

/-- A length as a constant of type `int`. -/
def lengthConst (n : Nat) : Const := .typed ⟨.int, .int (min n maxLength)⟩

/-- Two floats of one width as a complex value, the wider width first. -/
def complexOf? (word : WordSize) (re im : Const) : Option TypedValue :=
  let pair (float complex : Ty) : Option TypedValue := do
    return ⟨complex, .complex (← re.float? float word) (← im.float? float word)⟩
  (pair .float64 .complex128).or (pair .float32 .complex64)

/-- Two untyped numbers on the real axis make an untyped complex number; all else is a pair of
floats of one width. -/
def complexCall (word : WordSize) (args : List Arg) : Except BuiltinError Const := do
  let (re, im) ← two complex args
  match re.const?, im.const? with
  | some (.untyped (.number r)), some (.untyped (.number i)) =>
    if r.isRealValued && i.isRealValued then return .number (.ofParts r.re i.re)
    else .error (.badComplexArguments re im)
  | some r, some i =>
    match complexOf? word r i with
    | some v => return .typed v
    | none => .error (.badComplexArguments re im)
  | _, _ => .error (.badComplexArguments re im)

/-- The float type of the parts of a complex type. -/
def partType? (ty : Ty) : Option Ty :=
  match ty.underlying with
  | .basic .complex128 => some .float64
  | .basic .complex64 => some .float32
  | _ => none

/-- A part of an untyped number or of a complex value. -/
def partCall (b : Builtin) (exact : Number → Number) (pick : FloatValue × FloatValue → FloatValue)
    (args : List Arg) : Except BuiltinError Const := do
  let arg ← one b args
  match arg.const? with
  | some (.untyped (.number n)) => return .number (exact n)
  | some (.typed v) =>
    match partType? v.ty, v.complex? with
    | some ty, some parts => return .typed ⟨ty, .float (pick parts)⟩
    | _, _ => .error (.badArgument b arg)
  | _ => .error (.badArgument b arg)

/-- The length of a value: bytes of a string, elements, entries; zero for a nil that could have
some. -/
def length? (v : TypedValue) : Option Nat :=
  match v.value with
  | .str s => some s.utf8ByteSize
  | .array elems | .slice elems _ => some elems.length
  | .map entries => some entries.length
  | .nil => if v.ty.isNilable && v.ty.hasLength then some 0 else none
  | _ => none

def lenCall (args : List Arg) : Except BuiltinError Const := do
  let arg ← one len args
  match arg.const? with
  | some (.untyped (.string s)) => return lengthConst s.utf8ByteSize
  | some (.typed v) =>
    match length? v with
    | some n => return lengthConst n
    | none => .error (.badArgument len arg)
  | _ => .error (.badArgument len arg)

/-- The capacity of a value; zero for a nil that could have one. -/
def capacity? (v : TypedValue) : Option Nat :=
  match v.value with
  | .array elems => some elems.length
  | .slice _ room => some room
  | .nil => if v.ty.hasCapacity then some 0 else none
  | _ => none

def capCall (args : List Arg) : Except BuiltinError Const := do
  let arg ← one cap args
  match arg.const? with
  | some (.typed v) =>
    match capacity? v with
    | some n => return lengthConst n
    | none => .error (.noCapacity arg)
  | _ => .error (.noCapacity arg)

/-- The type of a slice argument, and of its elements. -/
def sliceType (arg : Arg) : Except BuiltinError (Ty × Ty) :=
  match arg.ty? with
  | none => .error (.notASlice arg)
  | some ty =>
    match ty.underlying with
    | .slice elem => .ok (ty, elem)
    | _ => .error (.notASlice arg)

/-- The value to append to a slice. -/
def elementOf (word : WordSize) (arg : Arg) (elem : Ty) : Except BuiltinError Value :=
  match arg.const? with
  | some (.typed v) =>
    if v.ty.assignableTo elem then .ok v.value else .error (.wrongElement v.ty elem)
  | some (.untyped c) =>
    match c.pass? elem word with
    | some v => .ok v.value
    | none => .error (.unconvertibleElement c elem)
  | none => .error (.unknownElement arg elem)

/-- A slice with one more element; nil is the empty slice. -/
def appendCall (word : WordSize) (args : List Arg) : Except BuiltinError Const := do
  let (s, x) ← two append args
  let (ty, elem) ← sliceType s
  let v ← elementOf word x elem
  match s.const? with
  | some (.typed ⟨_, .slice elems room⟩) =>
    return .typed ⟨ty, .ofSlice (Slice.push ⟨elems, room⟩ v)⟩
  | some (.typed ⟨_, .nil⟩) => return .typed ⟨ty, .ofSlice (.ofList [v])⟩
  | _ => .error (.badArgument append s)

/-- A pointer to a new cell that holds the zero value of a type. -/
def newCall (store : Store) (args : List Arg) : Except BuiltinError (Const × Store) := do
  match ← one new args with
  | .type ty =>
    let (cell, store) := store.alloc (.zero ty)
    return (.typed ⟨.pointer ty, .pointer cell⟩, store)
  | .value _ _ => .error .notAType

/-- A panic fails with its argument. -/
def panicCall (args : List Arg) : Except BuiltinError Const := do
  .error (.panicked (← one panic args))

/-- The value of a call, and the store after it. -/
def call (word : WordSize) (store : Store) (b : Builtin) (args : List Arg) :
    Except BuiltinError (Const × Store) :=
  let keep (r : Except BuiltinError Const) : Except BuiltinError (Const × Store) :=
    r.map fun c => (c, store)
  match b with
  | complex => keep (complexCall word args)
  | real => keep (partCall real Number.realPart Prod.fst args)
  | imag => keep (partCall imag Number.imagPart Prod.snd args)
  | len => keep (lenCall args)
  | cap => keep (capCall args)
  | append => keep (appendCall word args)
  | new => newCall store args
  | panic => keep (panicCall args)

/-- The width that a part brings to a complex number: none for an untyped number. -/
def complexWidth? (arg : Arg) : Option (Option Ty) :=
  match arg.known? with
  | some (.typed ty) =>
    match ty.underlying with
    | .basic .float32 => some (some .complex64)
    | .basic .float64 => some (some .complex128)
    | _ => none
  | some (.untyped kind) => if kind.isNumeric then some none else none
  | none => none

/-- The result type of `complex`; of two typed parts the second decides. -/
def complexResult (args : List Arg) : Except BuiltinError KnownType := do
  let (re, im) ← two complex args
  match complexWidth? re, complexWidth? im with
  | some _, some (some ty) | some (some ty), some none => return .typed ty
  | some none, some none => return .untyped (.number .complex)
  | _, _ => .error (.badComplexArguments re im)

/-- The result type of `real` and `imag`. -/
def partResult (b : Builtin) (args : List Arg) : Except BuiltinError KnownType := do
  let arg ← one b args
  match arg.known? with
  | some (.untyped kind) =>
    if kind.isNumeric then return .untyped (.number .float) else .error (.badArgument b arg)
  | some (.typed ty) =>
    match partType? ty with
    | some part => return .typed part
    | none => .error (.badArgument b arg)
  | none => .error (.badArgument b arg)

def lenResult (args : List Arg) : Except BuiltinError KnownType := do
  let arg ← one len args
  match arg.known? with
  | some (.untyped .string) => return .typed .int
  | some (.typed ty) => if ty.hasLength then return .typed .int else .error (.badArgument len arg)
  | _ => .error (.badArgument len arg)

def capResult (args : List Arg) : Except BuiltinError KnownType := do
  let arg ← one cap args
  match arg.ty? with
  | some ty => if ty.hasCapacity then return .typed .int else .error (.noCapacity arg)
  | none => .error (.noCapacity arg)

def appendResult (args : List Arg) : Except BuiltinError KnownType := do
  let (s, _) ← two append args
  let (ty, _) ← sliceType s
  return .typed ty

def newResult (args : List Arg) : Except BuiltinError KnownType := do
  match ← one new args with
  | .type ty => return .typed (.pointer ty)
  | .value _ _ => .error .notAType

/-- The types of the results of a call. `panic` has none, whatever its arguments. -/
def resultTypes (b : Builtin) (args : List Arg) : Except BuiltinError (List KnownType) :=
  match b with
  | complex => (complexResult args).map ([·])
  | real => (partResult real args).map ([·])
  | imag => (partResult imag args).map ([·])
  | len => (lenResult args).map ([·])
  | cap => (capResult args).map ([·])
  | append => (appendResult args).map ([·])
  | new => (newResult args).map ([·])
  | panic => .ok []

end Builtin

end ConstCheck
