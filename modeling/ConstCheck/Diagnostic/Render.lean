import ConstCheck.Diagnostic.Basic
import ConstCheck.Diagnostic.LineTable

/-!
# Rendering diagnostics

A diagnostic as plain text against its source: the headline, then for every label the position,
the source line and a row of carets under the labelled text, then notes and suggestions.

```
error[E2003]: division by zero
 --> 1:5
  |
1 | 1 / 0
  |     ^ divisor is zero
  = note: ...
```

* `Label.caretCount`: how many carets a label has.
* `Label.rows`: the rows of a label.
* `Diagnostic.render`, `Diagnostic.renderAll`: one diagnostic, and several.
-/

namespace ConstCheck

namespace Label

/-- One caret for each character of the labelled text and at least one; one caret too if the span
is not a piece of the source. -/
def caretCount (source : List Char) (label : Label) : Nat :=
  match Text.slice? label.span.start label.span.stop source with
  | some text => max 1 text.length
  | none => 1

/-- A run of blanks. -/
def blanks (n : Nat) : String := .ofList (.replicate n ' ')

/-- The rows of a label. -/
def rows (table : LineTable) (source : List Char) (label : Label) : List String :=
  let position := table.position source label.span.start
  let number := position.line.toNat.repr
  let line := (LineTable.lines source)[(position.line - 1).toNat]?.getD []
  let gutter := blanks number.length
  let carets := String.ofList (.replicate (label.caretCount source) '^')
  [s!" --> {number}:{position.column.toNat}",
    gutter ++ " |",
    number ++ " | " ++ .ofList line,
    gutter ++ " | " ++ blanks (position.column - 1).toNat ++ carets ++ " " ++ label.message]

end Label

namespace Diagnostic

/-- All rows of a diagnostic. -/
def rows (table : LineTable) (source : List Char) (d : Diagnostic) : List String :=
  d.headline :: d.labels.flatMap (Label.rows table source) ++
    d.notes.map ("  = note: " ++ ·) ++ d.suggestions.map ("  = help: " ++ ·)

/-- The rows, each ended by a newline. -/
def renderWith (table : LineTable) (source : List Char) (d : Diagnostic) : String :=
  String.join ((d.rows table source).map (· ++ "\n"))

def render (source : String) (d : Diagnostic) : String :=
  d.renderWith (.ofSource source.toList) source.toList

/-- Several diagnostics, with an empty line between two. -/
def renderAll (source : String) (ds : List Diagnostic) : String :=
  let table := LineTable.ofSource source.toList
  "\n".intercalate (ds.map (renderWith table source.toList))

end Diagnostic

end ConstCheck
