import ConstCheck.Proofs.Carets
import ConstCheck.Proofs.Unfold

/-!
# The width of the underline

A label is printed with one line of the source, the one in which its text starts, and with a caret
for every character of its text. So the carets end under that line exactly if the text does: a text
that runs over the end of the line has carets for the characters that are not printed as well, those
that end the line among them.

* `LineTable.EndsWithinLine`: a piece of a source that has no character of a line's end.
* `LineTable.length_le_drop_lineAround_iff`: **such a piece, and no other, has room in its line**.
* `underline_within_line_iff` (every source whose offsets fit a word, every label on a piece of it):
  what is printed, and when the carets stay under the printed line.
* `underline_leaves_line`: the carets of a sum over two lines do not.
-/

namespace ConstCheck

open Text (byteLength)

/-! ## Room in a line -/

namespace LineTable

variable {before piece after line : List Char}

/-- A piece of a source, with what comes after it, has no character of a line's end. -/
structure EndsWithinLine (piece after : List Char) : Prop where
  newline_not_mem : '\n' ∉ piece
  not_cut : ¬(piece.getLast? = some '\r' ∧ after.head? = some '\n')

theorem length_bare_le (line : List Char) : (bare line).length ≤ line.length := by
  unfold bare
  split_ifs
  · rw [List.length_dropLast]
    omega
  · exact le_rfl

/-- With a carriage return at its end, a line is printed without it. -/
theorem length_bare_lt (h : line.getLast? = some '\r') : (bare line).length < line.length := by
  have hpos : 0 < line.length := by
    apply List.length_pos_of_ne_nil
    rintro rfl
    cases h
  unfold bare
  rw [if_pos h, List.length_dropLast]
  omega

/-- What a line has from a place on: the text after the place up to the line's end. -/
theorem length_drop_lineAround_le (before after : List Char) :
    ((lineAround before after).drop (lastLine before).length).length ≤
      (firstLine after).length := by
  have hline : (lineAround before after).length ≤ (lastLine before ++ firstLine after).length := by
    unfold lineAround
    dsimp only
    split_ifs
    · exact length_bare_le _
    · exact le_rfl
  rw [List.length_append] at hline
  rw [List.length_drop]
  omega

/-- A piece with a newline in it is longer than what its line has of it. -/
theorem length_drop_lineAround_lt_of_newline (before after : List Char) (h : '\n' ∈ piece) :
    ((lineAround before (piece ++ after)).drop (lastLine before).length).length < piece.length := by
  obtain ⟨front, rest, rfl, hfront⟩ := List.eq_append_cons_of_mem h
  have hfirst : firstLine (front ++ '\n' :: rest ++ after) = front := by
    rw [List.append_assoc, firstLine_append hfront]
    exact List.append_nil front
  have hle := length_drop_lineAround_le before (front ++ '\n' :: rest ++ after)
  rw [hfirst] at hle
  rw [List.length_append, List.length_cons]
  omega

/-- A piece whose last character belongs to the line's end is longer than what its line has of
it. -/
theorem length_drop_lineAround_lt_of_cut (before : List Char) (hline : '\n' ∉ piece)
    (hlast : piece.getLast? = some '\r') (hafter : after.head? = some '\n') :
    ((lineAround before (piece ++ after)).drop (lastLine before).length).length < piece.length := by
  obtain ⟨rest, rfl⟩ : ∃ rest, after = '\n' :: rest := List.head?_eq_some_iff.1 hafter
  have hne : piece ≠ [] := by
    rintro rfl
    cases hlast
  have hfirst : firstLine (piece ++ '\n' :: rest) = piece := by
    rw [firstLine_append hline]
    exact List.append_nil piece
  have hcut : (lastLine before ++ piece).getLast? = some '\r' := by
    rw [List.getLast?_append_of_ne_nil _ hne, hlast]
  have hmem : '\n' ∈ piece ++ '\n' :: rest := by simp
  have hlt := length_bare_lt hcut
  have hpos := List.length_pos_of_ne_nil hne
  unfold lineAround
  rw [hfirst]
  simp only [hmem, if_true]
  rw [List.length_append] at hlt
  rw [List.length_drop]
  omega

/-- **A piece has room in its line exactly if it has no character of the line's end.** -/
theorem length_le_drop_lineAround_iff :
    piece.length ≤ ((lineAround before (piece ++ after)).drop (lastLine before).length).length ↔
      EndsWithinLine piece after := by
  constructor
  · intro hle
    refine ⟨fun hmem => ?_, fun ⟨hlast, hafter⟩ => ?_⟩
    · have := length_drop_lineAround_lt_of_newline before after hmem
      omega
    · by_cases hmem : '\n' ∈ piece
      · have := length_drop_lineAround_lt_of_newline before after hmem
        omega
      · have := length_drop_lineAround_lt_of_cut before hmem hlast hafter
        omega
  · rintro ⟨hline, hend⟩
    have htake := congrArg List.length (take_drop_lineAround before hline hend)
    rw [List.length_take] at htake
    omega

end LineTable

/-! ## The carets of a label -/

open LineTable in
/-- **The carets stay under the printed line exactly if the labelled text does**, for every source
whose offsets fit a word and every label on a piece of it. There is a caret for every character of
the piece, and one at least. After what is printed of the headline and of the labels before it, the
label has four rows, if the line and the column of the place where the piece starts are words: these
two; the gutter; the line around that place; and the carets, behind a blank for every character
before the place. There are as many carets as the line has characters from the column on, or fewer,
one being always allowed, exactly if the piece has one character at most or none that ends a
line. -/
theorem underline_within_line_iff {source : String} {d : Diagnostic} {earlier later : List Label}
    {label : Label} {before piece after : List Char} (hlen : byteLength source.toList < 2 ^ 32)
    (hlabel : d.labels = earlier ++ label :: later)
    (hsource : source.toList = before ++ (piece ++ after))
    (hstart : label.span.start = byteLength before)
    (hstop : label.span.stop = byteLength before + byteLength piece) :
    let number := 1 + before.count '\n'
    let column := 1 + (lastLine before).length
    let line := lineAround before (piece ++ after)
    let carets := max 1 piece.length
    let gutter := Label.blanks number.repr.length
    let rows := [s!" --> {number}:{column}",
      gutter ++ " |",
      s!"{number} | " ++ .ofList line,
      gutter ++ " | " ++ Label.blanks (column - 1) ++ .ofList (.replicate carets '^') ++ " " ++
        label.message]
    label.caretCount source.toList = carets ∧
    (number < 2 ^ 32 → column < 2 ^ 32 → ∃ rest, d.render source =
      ({ d with labels := earlier, notes := [], suggestions := [] } : Diagnostic).render source ++
        (String.join (rows.map (· ++ "\n")) ++ rest)) ∧
    (carets ≤ max 1 (line.drop (column - 1)).length ↔
      piece.length ≤ 1 ∨ EndsWithinLine piece after) := by
  intro number column line carets gutter rows
  have hmax : byteLength (before ++ (piece ++ after)) ≤ maxOffset := by
    rw [← hsource]
    exact Nat.le_of_lt_succ hlen
  have hcolumn : column - 1 = (lastLine before).length := Nat.add_sub_cancel_left _ _
  refine ⟨?_, ?_, ?_⟩
  · rw [hsource]
    exact Label.caretCount_append hstart hstop
  · intro hnumber hword
    have hfits : (Place.after before).Fits := ⟨Nat.le_of_lt_succ hnumber, Nat.le_of_lt_succ hword⟩
    have hrows : label.rows (.ofSource source.toList) source.toList = rows := by
      rw [hsource, Label.rows_append hmax hstart hstop, Place.wrapped_eq_iff.2 hfits, ← hcolumn]
      rfl
    rw [← hrows]
    exact Diagnostic.renderWith_label hlabel _ _
  · have hroom : piece.length ≤ (line.drop (column - 1)).length ↔ EndsWithinLine piece after := by
      rw [hcolumn]
      exact length_le_drop_lineAround_iff
    rw [← hroom]
    simp only [carets]
    omega

/-! ## A sum over two lines

The sum of two bools, which addition is not defined on. The second stands in a line of its own. -/

namespace Underline

/-- The text of the sum. -/
def source : String := "true +\ntrue"

/-- The sum and its operands, with their places in the text. -/
def arena : Arena where
  exprs := #[⟨.leaf (.ident ⟨1⟩), ⟨0, 4⟩⟩, ⟨.leaf (.ident ⟨1⟩), ⟨7, 11⟩⟩,
    ⟨.binary .add ⟨0⟩ ⟨1⟩, ⟨0, 11⟩⟩]

/-- The name of the operands, and no bindings. -/
def context : Context where
  names := { strings := #["", "true"], numbers := {} }
  env := .empty
  word := .bits64

/-- What the check of the sum reports. -/
def report : CheckError := ⟨⟨0, 11⟩, .undefinedOperation .add (.untyped .bool) (.untyped .bool)⟩

end Underline

open Underline in
/-- The label is on all of the text, of which the printed line has six characters. -/
theorem underline_within_line_iff_twoLines :
    byteLength source.toList < 2 ^ 32 ∧
    (∃ rest, report.diagnostic.render source =
      ({ report.diagnostic with labels := [], notes := [], suggestions := [] } : Diagnostic).render
        source ++
        (String.join ([" --> 1:1", "  |", "1 | true +",
          "  | ^^^^^^^^^^^ operator not defined here"].map (· ++ "\n")) ++ rest)) ∧
    ¬11 ≤ max 1 "true +".toList.length := by
  have hlen : byteLength source.toList < 2 ^ 32 := by decide
  have hsource : source.toList = [] ++ (source.toList ++ []) := by rw [List.append_nil]; rfl
  have hlabel : report.diagnostic.labels =
    [] ++ ⟨⟨0, 11⟩, "operator not defined here"⟩ :: [] := rfl
  obtain ⟨-, hrows, hcarets⟩ := underline_within_line_iff hlen hlabel hsource rfl rfl
  refine ⟨hlen, hrows (by decide) (by decide), fun hle => ?_⟩
  rcases hcarets.1 hle with h | h
  · exact absurd h (by decide)
  · exact absurd h.newline_not_mem (by decide)

open Underline in
/-- **The carets of a sum over two lines leave the printed line**: there are eleven of them, under a
line of six characters. -/
theorem underline_leaves_line : ∃ r,
    arena.check? context ⟨2⟩ = some r ∧ r.errors = [report] ∧
    report.diagnostic.render source =
      "error[E2001]: invalid operation: operator + not defined on untyped bool and untyped bool\n" ++
      " --> 1:1\n" ++ "  |\n" ++ "1 | true +\n" ++
      "  | ^^^^^^^^^^^ operator not defined here\n" ∧
    ¬"^^^^^^^^^^^".length ≤ max 1 "true +".length := by
  have htree : arena.tree? ⟨2⟩ =
    some (.binary .add (.leaf (.ident ⟨1⟩) ⟨0, 4⟩) (.leaf (.ident ⟨1⟩) ⟨7, 11⟩) ⟨0, 11⟩) := rfl
  refine ⟨_, Arena.check?_of_tree? htree, rfl, ?_, by decide⟩
  let label : Label := ⟨⟨0, 11⟩, "operator not defined here"⟩
  let table : LineTable := .ofSource source.toList
  have hsource : source.toList = [] ++ (source.toList ++ []) := by rw [List.append_nil]; rfl
  have hlabel : label.rows table source.toList =
      [" --> 1:1", "  |", "1 | true +", "  | ^^^^^^^^^^^ operator not defined here"] := by
    rw [show table = .ofSource ([] ++ (source.toList ++ [])) from rfl, hsource]
    exact Label.rows_append (by decide) rfl rfl
  have hrows : report.diagnostic.rows table source.toList =
      report.diagnostic.headline :: label.rows table source.toList := rfl
  have hrender : report.diagnostic.render source =
    String.join ((report.diagnostic.rows table source.toList).map (· ++ "\n")) := rfl
  rw [hrender, hrows, hlabel]
  rfl

end ConstCheck
