import ConstCheck.Number.Basic
import ConstCheck.Number.Scale

/-!
# Numeric literals

The spelling of a literal as an exact number of any size. An underscore may stand anywhere among
digits and counts for nothing; a literal needs one digit.

* `Literal.int?`: `42`, `0x2A`, `0o52`, `0b101010`, and `052`, where a leading zero with
  something after it means base eight.
* `Literal.float?`: `3.14`, `.5`, `1e-9`, `6.02E23`, and `0x1.8p1`, whose exponent is of two and
  cannot be left out.
* `Literal.imag?`: either of the two before an `i`; a run of digits without prefix is decimal
  there, leading zero or not.
-/

namespace ConstCheck.Literal

/-- The value of a digit in a base up to 16. -/
def digit? (base : Nat) (c : Char) : Option Nat :=
  let value :=
    if '0' ≤ c ∧ c ≤ '9' then some (c.toNat - '0'.toNat)
    else if 'a' ≤ c ∧ c ≤ 'f' then some (c.toNat - 'a'.toNat + 10)
    else if 'A' ≤ c ∧ c ≤ 'F' then some (c.toNat - 'A'.toNat + 10)
    else none
  value.filter (· < base)

/-- The characters of a run of digits, underscores left out. -/
def strip (cs : List Char) : List Char := cs.filter (· != '_')

/-- The values of the digits of a run; none where a character is no digit. -/
def digits? (base : Nat) (cs : List Char) : Option (List Nat) :=
  (strip cs).mapM (digit? base)

/-- The number that a list of digits writes. -/
def positional (base : Nat) (ds : List Nat) : Nat :=
  ds.foldl (fun n d => n * base + d) 0

/-- The number that a run of digits writes, of which there must be one. -/
def natural? (base : Nat) (cs : List Char) : Option Nat := do
  let ds ← digits? base cs
  if ds.isEmpty then none else some (positional base ds)

/-- The base that a literal names in front, and the rest. -/
def radix? : List Char → Option (Nat × List Char)
  | '0' :: 'x' :: rest | '0' :: 'X' :: rest => some (16, rest)
  | '0' :: 'o' :: rest | '0' :: 'O' :: rest => some (8, rest)
  | '0' :: 'b' :: rest | '0' :: 'B' :: rest => some (2, rest)
  | _ => none

/-- Base and digits of an integer literal. -/
def intParts (cs : List Char) : Nat × List Char :=
  match radix? cs with
  | some parts => parts
  | none =>
    match cs with
    | '0' :: c :: rest => (8, c :: rest)
    | _ => (10, cs)

def int? (cs : List Char) : Option Number :=
  let (base, digits) := intParts cs
  (natural? base digits).map fun n : Nat => .ofInt n

/-- The largest exponent that a literal may write. -/
def maxExponent : Nat := 10000

/-- An exponent: a sign or none, and decimal digits. -/
def exponent? (cs : List Char) : Option Int :=
  let bounded (digits : List Char) : Option Nat :=
    (natural? 10 digits).filter (· ≤ maxExponent)
  match cs with
  | '-' :: digits => (bounded digits).map fun n : Nat => -(n : Int)
  | '+' :: digits => (bounded digits).map fun n : Nat => (n : Int)
  | digits => (bounded digits).map fun n : Nat => (n : Int)

/-- What stands before and after the first character of a class; none without such a one. -/
def splitAtFirst? (p : Char → Bool) : List Char → Option (List Char × List Char)
  | [] => none
  | c :: rest =>
    if p c then some ([], rest)
    else (splitAtFirst? p rest).map fun (front, back) => (c :: front, back)

/-- A mantissa scaled by a power of the base; none where the exponent of the power has more than 32
bits. -/
def scale? (m : Nat) (base : Nat) (e : Int) : Option Rat :=
  if e.natAbs < UInt32.size then some (scale m base e) else none

/-- The digits of a mantissa as one natural number, and how many stand after the point. -/
def mantissa? (base : Nat) (cs : List Char) : Option (Nat × Nat) :=
  let (whole, fraction) := (splitAtFirst? (· == '.') cs).getD (cs, [])
  (natural? base (whole ++ fraction)).map fun n => (n, (strip fraction).length)

def isDecimalMark (c : Char) : Bool := c == 'e' || c == 'E'

def isBinaryMark (c : Char) : Bool := c == 'p' || c == 'P'

/-- The part of a base-16 float after its prefix. Every digit after the point divides by 16. -/
def hexFloat? (cs : List Char) : Option Number := do
  let (mantissa, exponent) ← splitAtFirst? isBinaryMark cs
  let (m, places) ← mantissa? 16 mantissa
  let e ← exponent? exponent
  return .ofRat (← scale? m 2 (e - 4 * places))

def decimalFloat? (cs : List Char) : Option Number := do
  match splitAtFirst? isDecimalMark cs with
  | some (mantissa, exponent) =>
    let e ← exponent? exponent
    let (m, places) ← mantissa? 10 mantissa
    return .ofRat (← scale? m 10 (e - places))
  | none =>
    let (m, places) ← mantissa? 10 cs
    return .ofRat (← scale? m 10 (-places))

def float? (cs : List Char) : Option Number :=
  match radix? cs with
  | some (16, rest) => hexFloat? rest
  | _ => decimalFloat? cs

/-- A literal with a prefix that is not a base-16 float. -/
def isPrefixedInt (cs : List Char) : Bool :=
  match radix? cs with
  | some (16, rest) => !rest.any fun c => c == '.' || isBinaryMark c
  | some _ => true
  | none => false

/-- What stands before a final `i`. -/
def beforeUnit? (cs : List Char) : Option (List Char) :=
  if cs.getLast? = some 'i' then some cs.dropLast else none

def imag? (cs : List Char) : Option Number := do
  let body ← beforeUnit? cs
  let value ← if isPrefixedInt body then int? body else float? body
  return .imaginary value.re

end ConstCheck.Literal
