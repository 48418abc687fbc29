/-!
# Kinds of untyped constants

An untyped constant has a kind: one of four numeric kinds, or string, bool or nil. The numeric
kinds form a chain `int < rune < float < complex`, and two numbers combine at the higher of
their kinds.

* `NumKind`, `Kind`: the numeric kinds, and all seven.
* `NumKind.join`: the higher of two numeric kinds.
* `Kind.isIntegral`, `Kind.isReal`, `Kind.isNumeric`: the families that operators ask for.
-/

namespace ConstCheck

/-- Kinds of a numeric constant, least first. -/
inductive NumKind where
  | int
  | rune
  | float
  | complex
  deriving DecidableEq

namespace NumKind

/-- Place in the chain `int < rune < float < complex`. -/
def rank : NumKind → Nat
  | int => 0
  | rune => 1
  | float => 2
  | complex => 3

/-- The higher of two kinds. -/
def join (a b : NumKind) : NumKind :=
  if a.rank < b.rank then b else a

/-- The kinds of whole numbers. -/
def isIntegral : NumKind → Bool
  | int | rune => true
  | float | complex => false

/-- The kinds of ordered numbers. -/
def isReal : NumKind → Bool
  | int | rune | float => true
  | complex => false

def text : NumKind → String
  | int => "int"
  | rune => "rune"
  | float => "float"
  | complex => "complex"

theorem rank_join (a b : NumKind) : (a.join b).rank = max a.rank b.rank := by
  cases a <;> cases b <;> rfl

theorem join_comm (a b : NumKind) : a.join b = b.join a := by
  cases a <;> cases b <;> rfl

theorem join_assoc (a b c : NumKind) : (a.join b).join c = a.join (b.join c) := by
  cases a <;> cases b <;> cases c <;> rfl

@[simp]
theorem join_self (a : NumKind) : a.join a = a := by
  cases a <;> rfl

end NumKind

/-- Kinds of an untyped constant. -/
inductive Kind where
  | number (kind : NumKind)
  | string
  | bool
  | nil
  deriving DecidableEq

namespace Kind

/-- All kinds: the numeric ones in their order, then string, bool and nil. -/
def all : List Kind :=
  [number .int, number .rune, number .float, number .complex, string, bool, nil]

/-- The numeric kind, if it is one. -/
def number? : Kind → Option NumKind
  | number k => some k
  | string | bool | nil => none

def isNumeric (k : Kind) : Bool := k.number?.isSome

def isIntegral (k : Kind) : Bool := k.number?.any NumKind.isIntegral

def isReal (k : Kind) : Bool := k.number?.any NumKind.isReal

def text : Kind → String
  | number k => k.text
  | string => "string"
  | bool => "bool"
  | nil => "nil"

end Kind

end ConstCheck
