/-!
# Concrete types

The types that a value can have: sized basic types, composites of other types, two interfaces,
declared types over any of them, and the type of an imported package. The word size decides the
width of three basic types.

* `WordSize`, `BasicType`, `Ty`: machine words, basic types, all types.
* `Ty.named`: a declared type; names below it are seen through.
* `Ty.underlying`: a type without the names around it.
* `Ty.category`: what a value of the type looks like.
* `Ty.beq_iff_eq`: equality of types is decided by `Ty.beq`.
-/

namespace ConstCheck

/-- Width of a machine word. -/
inductive WordSize where
  | bits32
  | bits64
  deriving DecidableEq

def WordSize.bits : WordSize → Nat
  | bits32 => 32
  | bits64 => 64

instance : Inhabited WordSize := ⟨.bits64⟩

/-- What a value of a type looks like, widths and names aside. `nilable` types have `nil` as
their zero value. -/
inductive Category where
  | signed
  | unsigned
  | float
  | complex
  | string
  | bool
  | nilable
  | array
  | package
  deriving DecidableEq

namespace Category

def isIntegral : Category → Bool
  | signed | unsigned => true
  | _ => false

def isReal : Category → Bool
  | signed | unsigned | float => true
  | _ => false

def isNumeric : Category → Bool
  | signed | unsigned | float | complex => true
  | _ => false

end Category

/-- The basic types. -/
inductive BasicType where
  | int
  | int8
  | int16
  | int32
  | int64
  | uint
  | uint8
  | uint16
  | uint32
  | uint64
  | uintptr
  | float32
  | float64
  | complex64
  | complex128
  | string
  | bool
  deriving DecidableEq

namespace BasicType

def all : List BasicType :=
  [int, int8, int16, int32, int64, uint, uint8, uint16, uint32, uint64, uintptr, float32,
    float64, complex64, complex128, string, bool]

def text : BasicType → String
  | int => "int"
  | int8 => "int8"
  | int16 => "int16"
  | int32 => "int32"
  | int64 => "int64"
  | uint => "uint"
  | uint8 => "uint8"
  | uint16 => "uint16"
  | uint32 => "uint32"
  | uint64 => "uint64"
  | uintptr => "uintptr"
  | float32 => "float32"
  | float64 => "float64"
  | complex64 => "complex64"
  | complex128 => "complex128"
  | string => "string"
  | bool => "bool"

def category : BasicType → Category
  | int | int8 | int16 | int32 | int64 => .signed
  | uint | uint8 | uint16 | uint32 | uint64 | uintptr => .unsigned
  | float32 | float64 => .float
  | complex64 | complex128 => .complex
  | string => .string
  | bool => .bool

/-- Width in bits; of a complex type, that of both parts together. -/
def bits? (word : WordSize) : BasicType → Option Nat
  | int8 | uint8 => some 8
  | int16 | uint16 => some 16
  | int32 | uint32 | float32 => some 32
  | int64 | uint64 | float64 | complex64 => some 64
  | complex128 => some 128
  | int | uint | uintptr => some word.bits
  | string | bool => none

end BasicType

/-- The two interfaces: the one that every type satisfies, and `error`. -/
inductive Interface where
  | empty
  | error
  deriving DecidableEq

/-- A concrete type. -/
inductive Ty where
  | basic (b : BasicType)
  | pointer (elem : Ty)
  | slice (elem : Ty)
  | array (length : Nat) (elem : Ty)
  | map (key value : Ty)
  | chan (elem : Ty)
  | func (params results : List Ty) (variadic : Bool)
  | interface (i : Interface)
  /-- A declared type over any type, names included; `Ty.named` sees through those. -/
  | declared (name : String) (body : Ty)
  | package

namespace Ty

abbrev int : Ty := basic .int
abbrev float32 : Ty := basic .float32
abbrev float64 : Ty := basic .float64
abbrev complex64 : Ty := basic .complex64
abbrev complex128 : Ty := basic .complex128
abbrev string : Ty := basic .string
abbrev bool : Ty := basic .bool
/-- The interface that every type satisfies. -/
abbrev any : Ty := interface .empty

mutual

/-- Equality of types. -/
def beq : Ty → Ty → Bool
  | basic a, basic b => a == b
  | pointer a, pointer b => beq a b
  | slice a, slice b => beq a b
  | array m a, array n b => m == n && beq a b
  | map k a, map l b => beq k l && beq a b
  | chan a, chan b => beq a b
  | func ps rs v, func qs ss w => beqList ps qs && beqList rs ss && v == w
  | interface i, interface j => i == j
  | declared m a, declared n b => m == n && beq a b
  | package, package => true
  | _, _ => false

/-- Equality of lists of types. -/
def beqList : List Ty → List Ty → Bool
  | [], [] => true
  | a :: as, b :: bs => beq a b && beqList as bs
  | _, _ => false

end

mutual

theorem beq_iff_eq : ∀ a b : Ty, beq a b ↔ a = b
  | basic _, b => by cases b <;> simp [beq]
  | pointer a, b => by cases b <;> simp [beq, beq_iff_eq a]
  | slice a, b => by cases b <;> simp [beq, beq_iff_eq a]
  | array _ a, b => by cases b <;> simp [beq, beq_iff_eq a]
  | map k a, b => by cases b <;> simp [beq, beq_iff_eq k, beq_iff_eq a]
  | chan a, b => by cases b <;> simp [beq, beq_iff_eq a]
  | func ps rs _, b => by
    cases b <;> simp [beq, beqList_iff_eq ps, beqList_iff_eq rs, and_assoc]
  | interface _, b => by cases b <;> simp [beq]
  | declared _ a, b => by cases b <;> simp [beq, beq_iff_eq a]
  | package, b => by cases b <;> simp [beq]

theorem beqList_iff_eq : ∀ as bs : List Ty, beqList as bs ↔ as = bs
  | [], bs => by cases bs <;> simp [beqList]
  | a :: as, bs => by
    cases bs <;> simp [beqList, beq_iff_eq a, beqList_iff_eq as]

end

instance : DecidableEq Ty := fun _ _ => decidable_of_iff _ (beq_iff_eq _ _)

/-- A type without the names around it. -/
def underlying : Ty → Ty
  | declared _ body => body.underlying
  | t => t

/-- A declared type; its underlying type is nameless. -/
def named (name : String) (body : Ty) : Ty := declared name body.underlying

def isNamed : Ty → Bool
  | declared _ _ => true
  | _ => false

/-- The basic type below the names. -/
def basic? (t : Ty) : Option BasicType :=
  match t.underlying with
  | basic b => some b
  | _ => none

def category : Ty → Category
  | basic b => b.category
  | pointer _ | slice _ | map _ _ | chan _ | func _ _ _ | interface _ => .nilable
  | array _ _ => .array
  | package => .package
  | declared _ body => body.category

def bits? (word : WordSize) (t : Ty) : Option Nat := t.basic?.bind (BasicType.bits? word)

def isIntegral (t : Ty) : Bool := t.category.isIntegral

def isReal (t : Ty) : Bool := t.category.isReal

def isNumeric (t : Ty) : Bool := t.category.isNumeric

def isNilable (t : Ty) : Bool := t.category == .nilable

/-- The types whose values `<` and its like compare. -/
def isOrdered (t : Ty) : Bool := t.isReal || t.category == .string

/-- A function type, taken apart. -/
structure Signature where
  params : List Ty
  results : List Ty
  variadic : Bool

def signature? (t : Ty) : Option Signature :=
  match t.underlying with
  | func params results variadic => some { params, results, variadic }
  | _ => none

@[simp]
theorem underlying_underlying (t : Ty) : t.underlying.underlying = t.underlying := by
  fun_induction underlying t with
  | case1 _ _ ih => exact ih
  | case2 t h => cases t <;> first | rfl | exact absurd rfl (h _ _)

@[simp]
theorem underlying_declared (name : String) (t : Ty) :
    (declared name t).underlying = t.underlying := rfl

@[simp]
theorem underlying_named (name : String) (t : Ty) : (named name t).underlying = t.underlying := by
  simp [named]

@[simp]
theorem category_underlying (t : Ty) : t.underlying.category = t.category := by
  fun_induction underlying t with
  | case1 _ _ ih => exact ih
  | case2 => rfl

end Ty

end ConstCheck
