import ConstCheck.Ty.Basic

/-!
# Text of types

A composite type is written before its element type, a declared type as its name alone. A
function type lists its parameters in parentheses, then its results: none, one as it is, or
several in parentheses.

* `Ty.text`: the text of a type.
* `Ty.listText`: a list of types, separated by commas.
-/

namespace ConstCheck.Ty

mutual

def text : Ty → String
  | basic b => b.text
  | pointer elem => "*" ++ text elem
  | slice elem => "[]" ++ text elem
  | array length elem => "[" ++ length.repr ++ "]" ++ text elem
  | map key value => "map[" ++ text key ++ "]" ++ text value
  | chan elem => "chan " ++ text elem
  | func params results _ => "func(" ++ listText params ++ ")" ++ resultsText results
  | interface .empty => "interface \x7b\x7d"
  | interface .error => "error"
  | declared name _ => name
  | package => "package"

def listText : List Ty → String
  | [] => ""
  | [t] => text t
  | t :: ts => text t ++ ", " ++ listText ts

/-- The results of a function type, after its parameters. -/
def resultsText : List Ty → String
  | [] => ""
  | [t] => " " ++ text t
  | t :: ts => " (" ++ text t ++ ", " ++ listText ts ++ ")"

end

end ConstCheck.Ty
