import ConstCheck.Diagnostic.Render
import ConstCheck.Proofs.Positions

/-!
# Carets under the labelled text

For a label three views of a source have to agree: its bytes, which spans count; its lines, which
are printed without what ends them; and the characters of a line, which carets stand under. A place
in a source is a split of its text. The line around a place is what stands between the last newline
before it and the first one after it, and it is the line with the number of the place. The column of
the place counts the characters before it in that line, so that the carets, which start as many
blanks behind the margin, are under the labelled text.

* `LineTable.lines_append_newline`: a newline ends the first line.
* `LineTable.getElem?_lines`: **the line with the number of a place is the line around it**.
* `LineTable.take_drop_lineAround`: what is at a place stands in the line around it.
* `Label.rows_append`: **the rows of a label** whose text is a piece of the source.
* `carets_align` (every source whose offsets fit a word, every label within a line): what is
  printed, and that the carets are under the labelled text.
* `carets_column_wraps`: what is printed at the end of an overfull line.
-/

namespace ConstCheck

open Text (byteLength)

/-! ## The lines of a text -/

namespace LineTable

variable {line cs : List Char}

/-- A line that a newline ends, without a carriage return before it. -/
def bare (line : List Char) : List Char :=
  if line.getLast? = some '\r' then line.dropLast else line

theorem bare_cons (c : Char) (hne : line ≠ []) : bare (c :: line) = c :: bare line := by
  obtain ⟨d, rest, rfl⟩ := List.exists_cons_of_ne_nil hne
  unfold bare
  rw [List.getLast?_cons_cons, List.dropLast_cons_cons]
  split_ifs <;> rfl

/-- A character that is no part of a line's end goes to the first of the lines after it. -/
theorem lines_cons {c : Char} (hc : c ≠ '\n') (hcr : c = '\r' → cs.head? ≠ some '\n') :
    lines (c :: cs) =
      match lines cs with
      | [] => [[c]]
      | l :: ls => (c :: l) :: ls := by
  apply lines.eq_4 c cs hc
  rintro tail rfl rfl
  exact hcr rfl rfl

/-- **A newline ends the first line.** -/
theorem lines_append_newline (hline : '\n' ∉ line) (cs : List Char) :
    lines (line ++ '\n' :: cs) = bare line :: lines cs := by
  induction line with
  | nil => rfl
  | cons c line ih =>
    obtain ⟨hc, hrest⟩ := not_or.1 (mt List.mem_cons.2 hline)
    have hafter := ih hrest
    rcases line with _ | ⟨d, line⟩
    · -- one character before the newline: it is cut if it is a carriage return
      by_cases hcr : c = '\r'
      · rw [hcr]
        rfl
      · rw [List.singleton_append, lines_cons (Ne.symm hc) (fun h => absurd h hcr), lines]
        simp [bare, hcr]
    · have hd : c = '\r' → (d :: line ++ '\n' :: cs).head? ≠ some '\n' := by
        intro _ hd
        have hdn : d = '\n' := Option.some.inj hd
        exact hrest (hdn ▸ List.mem_cons_self)
      rw [List.cons_append, lines_cons (Ne.symm hc) hd, hafter,
        bare_cons c (List.cons_ne_nil d line)]

/-- Without a newline a text is a line, unless it is empty. -/
theorem lines_of_newline_not_mem (hline : '\n' ∉ line) (hne : line ≠ []) : lines line = [line] := by
  induction line with
  | nil => exact absurd rfl hne
  | cons c line ih =>
    obtain ⟨hc, hrest⟩ := not_or.1 (mt List.mem_cons.2 hline)
    have hcr : c = '\r' → line.head? ≠ some '\n' :=
      fun _ h => hrest (List.mem_of_mem_head? h)
    rw [lines_cons (Ne.symm hc) hcr]
    rcases line with _ | ⟨d, line⟩
    · rfl
    · rw [ih hrest (List.cons_ne_nil d line)]

/-- The lines after a newline are those of the text after it. -/
theorem drop_lines (front cs : List Char) :
    (lines (front ++ '\n' :: cs)).drop (front.count '\n' + 1) = lines cs := by
  induction hn : front.count '\n' generalizing front with
  | zero =>
    rw [lines_append_newline (List.count_eq_zero.1 hn)]
    rfl
  | succ n ih =>
    -- the first line goes, and with it one newline
    have hmem : '\n' ∈ front := List.count_pos_iff.1 (by omega)
    obtain ⟨line, rest, rfl, hline⟩ := List.eq_append_cons_of_mem hmem
    rw [List.count_append, List.count_eq_zero.2 hline, List.count_cons_self, Nat.zero_add] at hn
    rw [List.append_assoc, List.cons_append, lines_append_newline hline, List.drop_succ_cons]
    exact ih rest (Nat.succ.inj hn)

/-! ## The line around a place -/

/-- The text up to its first newline, that one not included. -/
def firstLine (cs : List Char) : List Char := cs.takeWhile (· ≠ '\n')

theorem firstLine_append (hline : '\n' ∉ line) (cs : List Char) :
    firstLine (line ++ cs) = line ++ firstLine cs := by
  apply List.takeWhile_append_of_pos
  intro c hc
  have hne : c ≠ '\n' := fun h => hline (h ▸ hc)
  exact decide_eq_true hne

theorem firstLine_of_newline_not_mem (hline : '\n' ∉ line) : firstLine line = line := by
  have h := firstLine_append hline []
  rwa [List.append_nil, show firstLine [] = [] from rfl, List.append_nil] at h

/-- The first line is empty only in a text that is, or that starts with a newline. -/
theorem firstLine_eq_nil (h : firstLine cs = []) : cs = [] ∨ cs.head? = some '\n' := by
  rcases cs with _ | ⟨c, cs⟩
  · exact .inl rfl
  · by_cases hc : c = '\n'
    · exact .inr (congrArg some hc)
    · rw [firstLine, List.takeWhile_cons_of_pos (by simpa using hc)] at h
      exact absurd h (List.cons_ne_nil _ _)

/-- The line around a place in a text: from the last newline before it to the first one after it,
without what ends the line. -/
def lineAround (before after : List Char) : List Char :=
  let line := lastLine before ++ firstLine after
  if '\n' ∈ after then bare line else line

/-- The first line of a text goes up to its first newline. -/
theorem head?_lines (hline : '\n' ∉ line) (after : List Char) :
    (lines (line ++ after)).head?.getD [] =
      if '\n' ∈ after then bare (line ++ firstLine after) else line ++ firstLine after := by
  by_cases hmem : '\n' ∈ after
  · obtain ⟨front, rest, rfl, hfront⟩ := List.eq_append_cons_of_mem hmem
    have hfirst : firstLine (front ++ '\n' :: rest) = front := by
      rw [firstLine_append hfront]
      exact List.append_nil front
    have hfull : '\n' ∉ line ++ front := fun h => (List.mem_append.1 h).elim hline hfront
    rw [if_pos hmem, hfirst, ← List.append_assoc, lines_append_newline hfull]
    rfl
  · have hfull : '\n' ∉ line ++ after := fun h => (List.mem_append.1 h).elim hline hmem
    rw [if_neg hmem, firstLine_of_newline_not_mem hmem]
    by_cases hne : line ++ after = []
    · rw [hne]
      rfl
    · rw [lines_of_newline_not_mem hfull hne]
      rfl

/-- **The line with the number of a place is the line around it.** -/
theorem getElem?_lines (before after : List Char) :
    (lines (before ++ after))[before.count '\n']?.getD [] = lineAround before after := by
  have hlast := newline_not_mem_lastLine before
  have hdrop : (lines (before ++ after)).drop (before.count '\n') =
      lines (lastLine before ++ after) := by
    have hcount : before.count '\n' = (linesBefore before).count '\n' := by
      conv_lhs => rw [← linesBefore_append_lastLine before]
      rw [List.count_append, List.count_eq_zero.2 hlast, Nat.add_zero]
    have htext : before ++ after = linesBefore before ++ (lastLine before ++ after) := by
      rw [← List.append_assoc, linesBefore_append_lastLine]
    rw [hcount, htext]
    rcases linesBefore_cases before with h | ⟨front, h⟩
    · rw [h]
      rfl
    · rw [h, List.count_append, List.append_assoc]
      exact drop_lines front _
  rw [← List.head?_drop, hdrop, head?_lines hlast]
  rfl

/-- **What is at a place stands in the line around it**, behind what comes before it there. -/
theorem take_drop_lineAround {piece after : List Char} (before : List Char) (hline : '\n' ∉ piece)
    (hend : ¬(piece.getLast? = some '\r' ∧ after.head? = some '\n')) :
    ((lineAround before (piece ++ after)).drop (lastLine before).length).take piece.length =
      piece := by
  have hwhole : ∀ rest, ((lastLine before ++ (piece ++ rest)).drop (lastLine before).length).take
      piece.length = piece := by
    intro rest
    rw [List.drop_left, List.take_left]
  unfold lineAround bare
  simp only [firstLine_append hline]
  split_ifs with hmem hcr
  · by_cases hrest : firstLine after = []
    · -- the newline comes at once, so no carriage return is cut from a piece that has text
      have hnewline : after.head? = some '\n' := by
        rcases firstLine_eq_nil hrest with rfl | h
        · rw [List.append_nil] at hmem
          exact absurd hmem hline
        · exact h
      by_cases hpiece : piece = []
      · rw [hpiece]
        rfl
      · rw [hrest, List.append_nil, List.getLast?_append_of_ne_nil _ hpiece] at hcr
        exact absurd ⟨hcr, hnewline⟩ hend
    · rw [List.dropLast_append_of_ne_nil (List.append_ne_nil_of_right_ne_nil _ hrest),
        List.dropLast_append_of_ne_nil hrest]
      exact hwhole _
  · exact hwhole _
  · exact hwhole _

end LineTable

/-! ## The rows of a label -/

namespace Label

variable {label : Label} {before piece after : List Char}

theorem length_blanks (n : ℕ) : (blanks n).length = n := by
  unfold blanks
  rw [String.length_ofList, List.length_replicate]

/-- The margins of the source row and of the caret row are of one width. -/
theorem length_margin (n : ℕ) : (s!"{n} | ").length = (blanks n.repr.length ++ " | ").length := by
  have hn : s!"{n} | " = n.repr ++ " | " := rfl
  rw [hn, String.length_append, String.length_append, length_blanks]

/-- A caret for every character of the labelled text, and one at least. -/
theorem caretCount_append (hstart : label.span.start = byteLength before)
    (hstop : label.span.stop = byteLength before + byteLength piece) :
    label.caretCount (before ++ (piece ++ after)) = max 1 piece.length := by
  unfold caretCount
  rw [hstart, hstop, Text.slice?_append]

/-- The rows of a label at a place: the numbers of the place, the gutter, the line behind its
margin, and the carets behind theirs. -/
def rowsAt (place : Place) (line : List Char) (indent carets : ℕ) (message : String) :
    List String :=
  [s!" --> {place.line}:{place.column}",
    blanks place.line.repr.length ++ " |",
    s!"{place.line} | " ++ .ofList line,
    blanks place.line.repr.length ++ " | " ++ blanks indent ++
      .ofList (.replicate carets '^') ++ " " ++ message]

/-- **The rows of a label** whose text is a piece of the source. The numbers of the place are
printed as words; the line and the indent are those of the place in any case, since they are counted
before the numbers are. -/
theorem rows_append (hmax : byteLength (before ++ (piece ++ after)) ≤ maxOffset)
    (hstart : label.span.start = byteLength before)
    (hstop : label.span.stop = byteLength before + byteLength piece) :
    label.rows (.ofSource (before ++ (piece ++ after))) (before ++ (piece ++ after)) =
      rowsAt (Place.after before).wrapped (LineTable.lineAround before (piece ++ after))
        (LineTable.lastLine before).length (max 1 piece.length) label.message := by
  have hbefore : byteLength before ≤ maxOffset := by
    rw [Text.byteLength_append] at hmax
    omega
  have hcount := LineTable.count_newline_le hbefore
  have hlength := LineTable.length_lastLine_le hbefore
  have hposition := LineTable.position_append hmax
  rw [← hstart] at hposition
  have hline := LineTable.getElem?_lines before (piece ++ after)
  unfold rows
  simp only [hposition, toNat_ordinal hcount, toNat_ordinal hlength, toNat_ordinal_sub_one hcount,
    toNat_ordinal_sub_one hlength, hline, caretCount_append hstart hstop]
  rfl

/-- The rows of a label at a place of words. -/
theorem rows_of_not_overfull (hmax : byteLength (before ++ (piece ++ after)) ≤ maxOffset)
    (hfull : ¬Overfull before) (hstart : label.span.start = byteLength before)
    (hstop : label.span.stop = byteLength before + byteLength piece) :
    label.rows (.ofSource (before ++ (piece ++ after))) (before ++ (piece ++ after)) =
      rowsAt (Place.after before) (LineTable.lineAround before (piece ++ after))
        (LineTable.lastLine before).length (max 1 piece.length) label.message := by
  have hbefore : byteLength before ≤ maxOffset := by
    rw [Text.byteLength_append] at hmax
    omega
  have hfits := (LineTable.fits_after_iff hbefore).2 hfull
  rw [rows_append hmax hstart hstop, Place.wrapped_eq_iff.2 hfits]

end Label

/-! ## The rendered text -/

/-- The rows of a label come after those of the headline and of the labels before it. -/
theorem Diagnostic.renderWith_label {d : Diagnostic} {earlier later : List Label} {label : Label}
    (hd : d.labels = earlier ++ label :: later) (table : LineTable) (source : List Char) :
    ∃ rest, d.renderWith table source =
      ({ d with labels := earlier, notes := [], suggestions := [] } : Diagnostic).renderWith table
        source ++ (String.join ((label.rows table source).map (· ++ "\n")) ++ rest) := by
  let first : Diagnostic := { d with labels := earlier, notes := [], suggestions := [] }
  let rest := later.flatMap (Label.rows table source) ++ d.notes.map ("  = note: " ++ ·) ++
    d.suggestions.map ("  = help: " ++ ·)
  have hrows : d.rows table source =
      first.rows table source ++ (label.rows table source ++ rest) := by
    simp [rows, hd, first, rest, headline]
  refine ⟨String.join (rest.map (· ++ "\n")), ?_⟩
  unfold renderWith
  rw [hrows, List.map_append, List.map_append, String.join_append, String.join_append]

open LineTable in
/-- **Carets are under the labelled text**, for every source whose offsets fit a word and every
label on a piece of it that has no character of a line's end and starts at a place of words. That is
every place but the end of an overfull source. After what is printed of the headline and of the
labels before it, a label has four rows: line and column of the place where the piece starts; the
gutter; the line around that place behind its margin; and, behind a margin of the same width, a
blank for every character before the place and a caret for every character of the piece, one at
least. From the column on the line has the characters of the piece. -/
theorem carets_align {source : String} {d : Diagnostic} {earlier later : List Label} {label : Label}
    {before piece after : List Char} (hlen : byteLength source.toList < 2 ^ 32)
    (hlabel : d.labels = earlier ++ label :: later)
    (hsource : source.toList = before ++ (piece ++ after)) (hfull : ¬Overfull before)
    (hstart : label.span.start = byteLength before)
    (hstop : label.span.stop = byteLength before + byteLength piece) (hline : '\n' ∉ piece)
    (hend : ¬(piece.getLast? = some '\r' ∧ after.head? = some '\n')) :
    let number := 1 + before.count '\n'
    let column := 1 + (lastLine before).length
    let line := lineAround before (piece ++ after)
    let margin := s!"{number} | "
    let indent := Label.blanks number.repr.length ++ " | "
    let rows := [s!" --> {number}:{column}",
      Label.blanks number.repr.length ++ " |",
      margin ++ .ofList line,
      indent ++ Label.blanks (column - 1) ++ .ofList (.replicate (max 1 piece.length) '^') ++ " " ++
        label.message]
    (∃ rest, d.render source =
      ({ d with labels := earlier, notes := [], suggestions := [] } : Diagnostic).render source ++
        (String.join (rows.map (· ++ "\n")) ++ rest)) ∧
    margin.length = indent.length ∧
    (line.drop (column - 1)).take piece.length = piece := by
  intro number column line margin indent rows
  have hmax : byteLength (before ++ (piece ++ after)) ≤ maxOffset := by
    rw [← hsource]
    exact Nat.le_of_lt_succ hlen
  have hcolumn : column - 1 = (lastLine before).length := Nat.add_sub_cancel_left _ _
  refine ⟨?_, Label.length_margin number, ?_⟩
  · have hrows : label.rows (.ofSource source.toList) source.toList = rows := by
      rw [hsource, Label.rows_of_not_overfull hmax hfull hstart hstop, ← hcolumn]
      rfl
    rw [← hrows]
    exact Diagnostic.renderWith_label hlabel _ _
  · rw [hcolumn]
    exact take_drop_lineAround before hline hend

/-- A division by zero with a label on characters of three bytes and of two, in a line that a
carriage return ends. -/
def Diagnostic.wide : Diagnostic :=
  { code := .divideByZero, message := "division by zero", labels := [⟨⟨6, 11⟩, "is zero"⟩] }

/-- The label is on the third and the fourth character of the second line. -/
theorem carets_align_wide :
    ∃ rest, Diagnostic.wide.render "1\r\né/日é\r\n" = "error[E2003]: division by zero\n" ++
      (String.join ([" --> 2:3", "  |", "2 | é/日é", "  |   ^^ is zero"].map (· ++ "\n")) ++
        rest) := by
  have hsource : "1\r\né/日é\r\n".toList =
      ['1', '\r', '\n', 'é', '/'] ++ (['日', 'é'] ++ ['\r', '\n']) := by decide
  have hlabel : Diagnostic.wide.labels = [] ++ ⟨⟨6, 11⟩, "is zero"⟩ :: [] := rfl
  have hpiece : '\n' ∉ ['日', 'é'] := by decide
  have hfull : ¬Overfull ['1', '\r', '\n', 'é', '/'] := fun h => absurd h.length_eq (by decide)
  obtain ⟨hrows, -, -⟩ := carets_align (by decide) hlabel hsource hfull rfl rfl hpiece (by decide)
  exact hrows

/-- A division by zero with a label at the end of a text. -/
def Diagnostic.atEnd (text : List Char) : Diagnostic where
  code := .divideByZero
  message := "division by zero"
  labels := [⟨⟨byteLength text, byteLength text⟩, "is zero"⟩]

/-- At the end of an overfull line the column is printed as zero. -/
theorem Diagnostic.render_atEnd {text : List Char} (hmax : byteLength text ≤ maxOffset)
    (hlength : text.length = maxOffset) (hnone : '\n' ∉ text) :
    ∃ rest, (atEnd text).render (.ofList text) =
      "error[E2003]: division by zero\n" ++ (" --> 1:0\n" ++ rest) := by
  let label : Label := ⟨⟨byteLength text, byteLength text⟩, "is zero"⟩
  have hlabel : (atEnd text).labels = [] ++ label :: [] := rfl
  have hplace : (Place.after text).wrapped = ⟨1, 0⟩ := by
    rw [Place.after, List.count_eq_zero.2 hnone, LineTable.lastLine_of_newline_not_mem hnone,
      hlength]
    rfl
  have hrows : label.rows (.ofSource (text ++ ([] ++ []))) (text ++ ([] ++ [])) = _ :=
    Label.rows_append (by simpa using hmax) rfl rfl
  rw [List.append_nil, List.append_nil, hplace] at hrows
  obtain ⟨others, hfirst⟩ : ∃ others, label.rows (.ofSource text) text = " --> 1:0" :: others :=
    ⟨_, hrows⟩
  obtain ⟨rest, hrender⟩ := renderWith_label hlabel (.ofSource text) text
  rw [hfirst, List.map_cons, String.join_cons, String.append_assoc] at hrender
  rw [render, String.toList_ofList, hrender]
  exact ⟨_, rfl⟩

/-- **Behind the greatest number of letters the column is printed as zero**, and not as one more
than their number, which is no word. -/
theorem carets_column_wraps :
    byteLength (List.replicate maxOffset 'a') < 2 ^ 32 ∧
    (∃ rest, (Diagnostic.atEnd (List.replicate maxOffset 'a')).render
      (.ofList (List.replicate maxOffset 'a')) =
        "error[E2003]: division by zero\n" ++ (" --> 1:0\n" ++ rest)) ∧
    ¬∃ rest, (Diagnostic.atEnd (List.replicate maxOffset 'a')).render
      (.ofList (List.replicate maxOffset 'a')) =
        "error[E2003]: division by zero\n" ++ (" --> 1:4294967296\n" ++ rest) := by
  have hbytes := byteLength_letters maxOffset
  have hrender := Diagnostic.render_atEnd hbytes.le List.length_replicate
    (newline_not_mem_letters _)
  refine ⟨hbytes.trans_lt (by decide), hrender, ?_⟩
  rintro ⟨rest, h⟩
  obtain ⟨rest', h'⟩ := hrender
  have hsame := congrArg String.toList (h.symm.trans h')
  simp [String.toList_append] at hsame

end ConstCheck
