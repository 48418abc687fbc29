import ConstCheck.Constant

/-!
# Builtin functions

The eight builtin functions by name, with what they share: how many arguments they take, whether a
call of constants is a constant, the form of their arguments, and the ways in which they fail.

* `Builtin`, `Builtin.ofName?`: the functions and their names.
* `Arg`: a type, or a value of a known type.
* `BuiltinError`: the causes of failure, worded by `BuiltinError.message`.
-/

namespace ConstCheck

/-- A builtin function. -/
inductive Builtin where
  | complex
  | real
  | imag
  | len
  | cap
  | append
  | new
  | panic
  deriving DecidableEq

namespace Builtin

def all : List Builtin := [complex, real, imag, len, cap, append, new, panic]

def name : Builtin → String
  | complex => "complex"
  | real => "real"
  | imag => "imag"
  | len => "len"
  | cap => "cap"
  | append => "append"
  | new => "new"
  | panic => "panic"

def ofName? (s : String) : Option Builtin := all.find? (·.name == s)

/-- The number of arguments of a call. -/
def arity : Builtin → Nat
  | complex | append => 2
  | real | imag | len | cap | new | panic => 1

/-- Whether a call of constants is a constant. -/
def isFoldable : Builtin → Bool
  | complex | real | imag | len | cap => true
  | append | new | panic => false

theorem ofName?_name (b : Builtin) : ofName? b.name = some b := by
  cases b <;> decide

end Builtin

/-- An argument of a builtin: a type, or a value whose type is known and which may be known
itself. -/
inductive Arg where
  | type (ty : Ty)
  | value (known : KnownType) (const : Option Const)

namespace Arg

/-- A constant as an argument. -/
def ofConst (c : Const) : Arg := value c.knownType (some c)

def known? : Arg → Option KnownType
  | type _ => none
  | value known _ => some known

def const? : Arg → Option Const
  | type _ => none
  | value _ const => const

/-- The concrete type of a value. -/
def ty? (a : Arg) : Option Ty := a.known?.bind KnownType.ty?

def text : Arg → String
  | type ty => ty.text
  | value _ (some c) => c.text
  | value known none => s!"value of type {known.text}"

end Arg

/-- Why a builtin fails. -/
inductive BuiltinError where
  /-- Two parts that make no complex number. -/
  | badComplexArguments (re im : Arg)
  | badArgument (builtin : Builtin) (arg : Arg)
  | wrongArgumentCount (builtin : Builtin)
  | noCapacity (arg : Arg)
  /-- The first argument of `append` is not a slice. -/
  | notASlice (arg : Arg)
  /-- A value of the wrong type for the elements of a slice. -/
  | wrongElement (source elem : Ty)
  /-- An untyped constant that does not convert to the element type. -/
  | unconvertibleElement (c : UntypedConst) (elem : Ty)
  /-- An element of which there is no value. -/
  | unknownElement (arg : Arg) (elem : Ty)
  | notAType
  /-- The panic that `panic` raises. -/
  | panicked (arg : Arg)

namespace BuiltinError

/-- An element that cannot be appended. -/
def appendMessage (what : String) (elem : Ty) : String :=
  s!"cannot use {what} as type {elem.text} in append"

/-- The wording of an argument that a builtin does not take. -/
def badArgumentMessage (builtin : Builtin) (arg : String) : String :=
  s!"invalid argument {arg} for {builtin.name}"

def message : BuiltinError → String
  | badComplexArguments re im =>
    s!"invalid operation: complex({re.text}, {im.text}) (mismatched types)"
  | badArgument builtin arg => badArgumentMessage builtin arg.text
  | wrongArgumentCount builtin => s!"wrong number of arguments to {builtin.name}"
  | noCapacity arg =>
    match arg.known? with
    | some known => s!"invalid argument {arg.text} (type {known.text}) for cap"
    | none => s!"invalid argument {arg.text} for cap"
  | notASlice arg =>
    match arg.known? with
    | some known => s!"first argument to append must be a slice; have {known.text}"
    | none => "first argument to append must be a slice"
  | wrongElement source elem => appendMessage s!"type {source.text}" elem
  | unconvertibleElement c elem => appendMessage c.text elem
  | unknownElement arg elem => appendMessage arg.text elem
  | notAType => "new parameter is not a type"
  | panicked arg => s!"panic: {arg.text}"

end BuiltinError

end ConstCheck
