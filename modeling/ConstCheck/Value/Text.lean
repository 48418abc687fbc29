import ConstCheck.Decimal.Shortest
import ConstCheck.Text.Quoted
import ConstCheck.Ty.Text
import ConstCheck.Value.Basic

/-!
# Text of values

Sequences are written in brackets, separated by blanks; map entries as `key:value`. A string is
written as it is, unless it is known to be of a string type: then it is quoted. A complex value is
the sum of its parts in parentheses; a plus sign stands between them unless the imaginary part
has its sign bit set, be it a NaN, whose text shows no sign.

* `Value.text`: a value without its type.
* `TypedValue.text`: a value with its type.
-/

namespace ConstCheck

/-- The text of a complex value. -/
def FloatValue.complexText (re im : FloatValue) : String :=
  let sign := if im.isNegative then "" else "+"
  "(" ++ re.text ++ sign ++ im.text ++ "i)"

namespace Value

mutual

def text : Value → String
  | int i => toString i
  | uint n => toString n
  | float x => x.text
  | complex re im => FloatValue.complexText re im
  | str s => s
  | bool b => toString b
  | nil => "<nil>"
  | slice elems _ => "[" ++ " ".intercalate (texts elems) ++ "]"
  | array elems => "[" ++ " ".intercalate (texts elems) ++ "]"
  | map entries => "map[" ++ " ".intercalate (entryTexts entries) ++ "]"
  | pointer cell => "0x" ++ .ofList (Nat.toDigits 16 cell.index)
  | func _ => "<func>"
  | package _ => "<package>"

def texts : List Value → List String
  | [] => []
  | v :: vs => text v :: texts vs

def entryTexts : List (Value × Value) → List String
  | [] => []
  | (k, v) :: rest => (text k ++ ":" ++ text v) :: entryTexts rest

end

mutual

/-- Whether a pointer occurs anywhere in a value. -/
def hasPointer : Value → Bool
  | slice elems _ => anyPointer elems
  | array elems => anyPointer elems
  | map entries => anyPointerEntry entries
  | pointer _ => true
  | _ => false

def anyPointer : List Value → Bool
  | [] => false
  | v :: vs => hasPointer v || anyPointer vs

def anyPointerEntry : List (Value × Value) → Bool
  | [] => false
  | (k, v) :: rest => hasPointer k || hasPointer v || anyPointerEntry rest

end

end Value

/-- The text of a value with its type: a string of a string type is quoted, a function is
written as its type. -/
def TypedValue.text (v : TypedValue) : String :=
  match v.value, v.ty.category with
  | .str s, .string => Text.quote s
  | .func _, _ => v.ty.text
  | value, _ => value.text

end ConstCheck
