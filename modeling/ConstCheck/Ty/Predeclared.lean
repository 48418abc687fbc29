import ConstCheck.Ty.Basic

/-!
# Predeclared type names

The names that stand for types without a declaration: the basic types, two aliases among them,
and `error`.

* `Ty.predeclared`: the names and their types.
* `Ty.ofName?`: the type of a name.
-/

namespace ConstCheck.Ty

/-- The predeclared names, each once. -/
def predeclared : List (String × Ty) :=
  BasicType.all.map (fun b => (b.text, basic b)) ++
    [("byte", basic .uint8), ("rune", basic .int32), ("error", interface .error)]

/-- The type that a predeclared name stands for. -/
def ofName? (name : String) : Option Ty := predeclared.lookup name

end ConstCheck.Ty
