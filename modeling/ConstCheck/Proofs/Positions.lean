import Mathlib.Algebra.Group.Nat.Defs
import Mathlib.Data.List.DropRight
import Mathlib.Data.Prod.Lex
import Mathlib.Order.Monotone.Basic
import ConstCheck.Diagnostic.LineTable

/-!
# Positions in a source

The table of a source lists the starts of its lines in order, so the search for an offset passes the
starts up to it. In UTF-8 no byte of another character is that of a newline: the starts are counted
in bytes and the newlines in characters alike. The position of an offset is therefore a matter of
the text before it alone, and every further character moves it on. Lines and columns are counted in
words, which is enough for all texts but those that have as many characters as a word can count, all
in one of the two numbers.

* `binarySearch_passed`: **the search passes the numbers up to the one looked for**.
* `LineTable.getLast?_starts`: the last start in a text is the offset after its last newline.
* `Place.after`: the line and the column that a text ends at, of any size.
* `Overfull`, `LineTable.fits_after_iff`: **they are words, unless the text is overfull**.
* `LineTable.positionOf_append`: **the position of an offset is the place that the text before it
  ends at**, in words.
* `Place.after_lt`: places grow with the text.
* `position_exact` (every source whose offsets fit a word): the laws together.
* `position_wraps`: the column at the end of an overfull line.
-/

namespace ConstCheck

open Text (bytes byteLength)

/-! ## Binary search -/

/-- How many numbers a search passes: all before the one looked for, and that one if it is found. -/
def Slot.passed : Slot → ℕ
  | found index => index + 1
  | missing index => index

section

variable {xs : Array ℕ} {x : ℕ}

/-- A number splits an array: the numbers before a place are at most that number, those from there
on are greater. -/
structure SplitsAt (xs : Array ℕ) (x place : ℕ) : Prop where
  le_size : place ≤ xs.size
  below : ∀ j (hj : j < xs.size), j < place → xs[j] ≤ x
  above : ∀ j (hj : j < xs.size), place ≤ j → x < xs[j]

theorem getElem_lt_of_pairwise (hs : xs.toList.Pairwise (· < ·)) {i j : ℕ} (hij : i < j)
    (hj : j < xs.size) : xs[i] < xs[j] := by
  have hlt := List.pairwise_iff_getElem.1 hs i j (by simpa using hij.trans hj) (by simpa using hj)
    hij
  simpa using hlt

/-- **The search passes the numbers up to the one looked for.** The invariant of the window: what is
before it is less, and what is behind it is greater. -/
theorem binarySearch_passed {lo hi : ℕ} {hhi : hi ≤ xs.size}
    (hs : xs.toList.Pairwise (· < ·)) (hle : lo ≤ hi)
    (hlo : ∀ j (hj : j < xs.size), j < lo → xs[j] < x)
    (hgreater : ∀ j (hj : j < xs.size), hi ≤ j → x < xs[j]) :
    SplitsAt xs x (binarySearch xs x lo hi hhi).passed := by
  fun_induction binarySearch xs x lo hi hhi with
  | case1 lo hi hhi hlt mid hmid heq =>
    -- found in the middle: the array is in order around it
    refine ⟨hmid, fun j hj hjm => ?_, fun j hj hjm => ?_⟩
    · rcases Nat.lt_succ_iff_lt_or_eq.1 hjm with hjm | rfl
      · have := getElem_lt_of_pairwise hs hjm hmid
        omega
      · exact heq.le
    · have := getElem_lt_of_pairwise hs (show mid < j from hjm) hj
      omega
  | case2 lo hi hhi hlt mid hmid hne hless ih =>
    have hm : mid = lo + (hi - lo) / 2 := rfl
    apply ih (by omega) _ hgreater
    intro j hj hjm
    rcases Nat.lt_succ_iff_lt_or_eq.1 hjm with hjm | rfl
    · exact (getElem_lt_of_pairwise hs hjm hmid).trans hless
    · exact hless
  | case3 lo hi hhi hlt mid hmid hne hless ih =>
    have hm : mid = lo + (hi - lo) / 2 := rfl
    apply ih (by omega) hlo
    intro j hj hjm
    rcases Nat.eq_or_lt_of_le hjm with rfl | hjm
    · omega
    · have := getElem_lt_of_pairwise hs hjm hj
      omega
  | case4 lo hi hhi hlt =>
    have heq : hi = lo := by omega
    subst heq
    exact ⟨hhi, fun j hj hjl => (hlo j hj hjl).le, hgreater⟩

/-- There is one place at which a number splits an array. -/
theorem SplitsAt.eq_length {place : ℕ} (h : SplitsAt xs x place) {pre post : List ℕ}
    (hxs : xs.toList = pre ++ post) (hpre : ∀ s ∈ pre, s ≤ x) (hpost : ∀ s ∈ post, x < s) :
    place = pre.length := by
  have hsize : xs.size = pre.length + post.length := by
    rw [← Array.length_toList, hxs, List.length_append]
  rcases lt_trichotomy place pre.length with hlt | heq | hlt
  · -- a number of the first part would be greater
    have hj : place < xs.size := by omega
    have hmem : xs[place] ∈ pre := by
      have hget : xs[place] = pre[place] := by
        rw [← Array.getElem_toList]
        simp only [hxs]
        exact List.getElem_append_left hlt
      rw [hget]
      exact List.getElem_mem hlt
    have := h.above place hj le_rfl
    have := hpre _ hmem
    omega
  · exact heq
  · have hplace := h.le_size
    have hj : pre.length < xs.size := by omega
    have hpost0 : 0 < post.length := by omega
    have hmem : xs[pre.length] ∈ post := by
      have hget : xs[pre.length] = post[0] := by
        rw [← Array.getElem_toList]
        simp only [hxs]
        rw [List.getElem_append_right le_rfl]
        simp
      rw [hget]
      exact List.getElem_mem _
    have := h.below pre.length hj hlt
    have := hpost _ hmem
    omega

end

/-! ## Bytes and characters -/

namespace Text

/-- In the bytes of a character there is a newline only if the character is one: all bytes of the
longer forms are 128 or more. -/
theorem count_newline_utf8EncodeChar (c : Char) :
    (String.utf8EncodeChar c).count LineTable.newline = if c = '\n' then 1 else 0 := by
  by_cases hc : c = '\n'
  · subst hc
    rfl
  · have hv : c.val.toNat ≠ 10 := fun h => hc (Char.toNat_inj.1 h)
    have hbyte : ∀ v : ℕ, UInt8.ofNat v = LineTable.newline → v % 256 = 10 := by
      intro v hbyte
      have hnat := congrArg UInt8.toNat hbyte
      rwa [UInt8.toNat_ofNat'] at hnat
    rw [if_neg hc, List.count_eq_zero]
    intro hmem
    unfold String.utf8EncodeChar at hmem
    simp only at hmem
    split_ifs at hmem <;> simp only [List.mem_cons, List.not_mem_nil, or_false] at hmem
    · have := hbyte _ hmem.symm
      omega
    · rcases hmem with h | h <;> have := hbyte _ h.symm <;> omega
    · rcases hmem with h | h | h <;> have := hbyte _ h.symm <;> omega
    · rcases hmem with h | h | h | h <;> have := hbyte _ h.symm <;> omega

theorem bytes_append (xs ys : List Char) : bytes (xs ++ ys) = bytes xs ++ bytes ys :=
  List.flatMap_append

/-- **Newlines are counted in bytes and characters alike.** -/
theorem count_newline_bytes (cs : List Char) :
    (bytes cs).count LineTable.newline = cs.count '\n' := by
  induction cs with
  | nil => rfl
  | cons c cs ih =>
    have hcons : bytes (c :: cs) = String.utf8EncodeChar c ++ bytes cs := rfl
    rw [hcons, List.count_append, count_newline_utf8EncodeChar, ih, List.count_cons, Nat.add_comm]
    simp

/-- A character has a byte at least. -/
theorem length_le_byteLength (cs : List Char) : cs.length ≤ byteLength cs := by
  induction cs with
  | nil => exact le_rfl
  | cons c cs ih =>
    have := c.utf8Size_pos
    simp only [List.length_cons, byteLength]
    omega

/-- An offset at which a character starts, or the text ends. -/
def IsBoundary (cs : List Char) (offset : ℕ) : Prop :=
  ∃ before after, cs = before ++ after ∧ offset = byteLength before

/-- Of two boundaries the text before the first begins the text before the second. -/
theorem exists_append_of_byteLength_lt {a b c d : List Char} (h : a ++ b = c ++ d)
    (hlt : byteLength a < byteLength c) : ∃ between, between ≠ [] ∧ c = a ++ between := by
  rcases List.append_eq_append_iff.1 h with ⟨between, rfl, -⟩ | ⟨between, rfl, -⟩
  · refine ⟨between, ?_, rfl⟩
    rintro rfl
    rw [List.append_nil] at hlt
    exact lt_irrefl _ hlt
  · rw [byteLength_append] at hlt
    omega

end Text

/-! ## The starts of lines -/

namespace LineTable

variable {offset : ℕ} {bs : List UInt8}

theorem startsAfter_append (offset : ℕ) (bs cs : List UInt8) :
    startsAfter offset (bs ++ cs) =
      startsAfter offset bs ++ startsAfter (offset + bs.length) cs := by
  induction bs generalizing offset with
  | nil => rfl
  | cons b bs ih =>
    have hlen : offset + 1 + bs.length = offset + (b :: bs).length := by
      rw [List.length_cons]; omega
    simp only [List.cons_append, startsAfter, ih, hlen]
    split_ifs <;> rfl

theorem length_startsAfter (offset : ℕ) (bs : List UInt8) :
    (startsAfter offset bs).length = bs.count newline := by
  induction bs generalizing offset with
  | nil => rfl
  | cons b bs ih =>
    unfold startsAfter
    rw [List.count_cons]
    by_cases hb : b = newline
    · simp [hb, ih]
    · simp [hb, ih]

/-- Starts lie behind the offset of the text, and not behind its end. -/
theorem bounds_of_mem_startsAfter (hmax : offset + bs.length ≤ maxOffset) {s : ℕ}
    (hs : s ∈ startsAfter offset bs) : offset < s ∧ s ≤ offset + bs.length := by
  induction bs generalizing offset with
  | nil => cases hs
  | cons b bs ih =>
    rw [List.length_cons] at hmax ⊢
    have hrest : s ∈ startsAfter (offset + 1) bs → offset < s ∧ s ≤ offset + (bs.length + 1) := by
      intro hs
      have := ih (by omega) hs
      omega
    unfold startsAfter at hs
    split at hs
    · rcases List.mem_cons.1 hs with rfl | hs
      · rw [Nat.min_eq_left (by omega)]
        omega
      · exact hrest hs
    · exact hrest hs

/-- Starts are in order. -/
theorem pairwise_startsAfter (hmax : offset + bs.length ≤ maxOffset) :
    (startsAfter offset bs).Pairwise (· < ·) := by
  induction bs generalizing offset with
  | nil => exact List.Pairwise.nil
  | cons b bs ih =>
    rw [List.length_cons] at hmax
    have hrest : (startsAfter (offset + 1) bs).Pairwise (· < ·) := ih (by omega)
    unfold startsAfter
    split
    · refine List.pairwise_cons.2 ⟨fun s hs => ?_, hrest⟩
      have := (bounds_of_mem_startsAfter (by omega) hs).1
      omega
    · exact hrest

variable {xs ys : List Char}

theorem startsAfter_eq_nil (h : '\n' ∉ xs) (offset : ℕ) : startsAfter offset (bytes xs) = [] := by
  rw [← List.length_eq_zero_iff, length_startsAfter, Text.count_newline_bytes]
  exact List.count_eq_zero.2 h

/-- The starts in a text, and those in what follows it. -/
theorem toList_starts_ofSource (xs ys : List Char) :
    (ofSource (xs ++ ys)).starts.toList =
      (0 :: startsAfter 0 (bytes xs)) ++ startsAfter (byteLength xs) (bytes ys) := by
  have hoffset : 0 + (bytes xs).length = byteLength xs := by rw [Text.length_bytes, Nat.zero_add]
  unfold ofSource
  rw [Text.bytes_append, startsAfter_append, hoffset]
  rfl

/-- The text up to its last newline, that one included. -/
def linesBefore (xs : List Char) : List Char := xs.rdropWhile (· ≠ '\n')

/-- The text after its last newline. -/
def lastLine (xs : List Char) : List Char := xs.rtakeWhile (· ≠ '\n')

theorem linesBefore_append_lastLine (xs : List Char) : linesBefore xs ++ lastLine xs = xs :=
  List.rdropWhile_append_rtakeWhile

theorem newline_not_mem_lastLine (xs : List Char) : '\n' ∉ lastLine xs := by
  intro h
  have := List.mem_rtakeWhile_imp h
  simp at this

/-- What comes before the last line is nothing, or ends with a newline. -/
theorem linesBefore_cases (xs : List Char) :
    linesBefore xs = [] ∨ ∃ front, linesBefore xs = front ++ ['\n'] := by
  rcases List.eq_nil_or_concat' (linesBefore xs) with h | ⟨front, c, h⟩
  · exact .inl h
  · have hne : xs.rdropWhile (· ≠ '\n') ≠ [] := by
      change linesBefore xs ≠ []
      rw [h]
      simp
    have hlast := List.rdropWhile_last_not _ _ hne
    rw [List.getLast_congr hne (List.concat_ne_nil c front) h,
      List.getLast_concat] at hlast
    have hc : c = '\n' := by simpa using hlast
    exact .inr ⟨front, by rw [h, hc]⟩

/-- **The last start in a text is the offset after its last newline**, or zero. -/
theorem getLast?_starts (hmax : byteLength xs ≤ maxOffset) :
    (0 :: startsAfter 0 (bytes xs)).getLast? = some (byteLength (linesBefore xs)) := by
  have hlast : startsAfter 0 (bytes xs) = startsAfter 0 (bytes (linesBefore xs)) := by
    conv_lhs => rw [← linesBefore_append_lastLine xs]
    rw [Text.bytes_append, startsAfter_append, startsAfter_eq_nil (newline_not_mem_lastLine xs),
      List.append_nil]
  rw [hlast]
  rcases linesBefore_cases xs with h | ⟨front, h⟩
  · rw [h]
    rfl
  · have hle : byteLength (linesBefore xs) ≤ byteLength xs := by
      conv_rhs => rw [← linesBefore_append_lastLine xs]
      rw [Text.byteLength_append]
      omega
    have hfront : byteLength (front ++ ['\n']) = byteLength front + 1 := by
      rw [Text.byteLength_append]
      rfl
    rw [h] at hle ⊢
    have hend : startsAfter (0 + (bytes front).length) (bytes ['\n']) = [byteLength front + 1] := by
      have hmin : min (byteLength front + 1) maxOffset = byteLength front + 1 :=
        Nat.min_eq_left (by omega)
      rw [Text.length_bytes, Nat.zero_add, ← hmin]
      rfl
    rw [Text.bytes_append, startsAfter_append, hend, hfront, ← List.cons_append,
      List.getLast?_append]
    rfl

end LineTable

/-! ## Counting in words -/

theorem ofNat_le_maxOffset {n : ℕ} (h : n ≤ maxOffset) : (UInt32.ofNat n).toNat = n :=
  UInt32.toNat_ofNat_of_lt' (Nat.lt_succ_of_le h)

/-- The number after a count is its successor, or zero if that is no word. -/
theorem toNat_ordinal {n : ℕ} (h : n ≤ maxOffset) :
    (ordinal n).toNat = (1 + n) % (maxOffset + 1) := by
  rw [ordinal, if_pos h, UInt32.toNat_add, ofNat_le_maxOffset h, Nat.add_comm]
  rfl

/-- The number before that after a count is the count, also where the sum wraps. -/
theorem toNat_ordinal_sub_one {n : ℕ} (h : n ≤ maxOffset) : (ordinal n - 1).toNat = n := by
  rw [ordinal, if_pos h, UInt32.add_sub_cancel, ofNat_le_maxOffset h]

/-! ## Places -/

/-- A line and a column, both counted from one and of any size. -/
structure Place where
  line : ℕ
  column : ℕ
  deriving DecidableEq

/-- The place that a position names. -/
def Position.place (p : Position) : Place := ⟨p.line.toNat, p.column.toNat⟩

namespace Place

/-- The place that a text ends at: a line for every newline, and a column for every character after
the last of them. -/
def after (text : List Char) : Place :=
  ⟨1 + text.count '\n', 1 + (LineTable.lastLine text).length⟩

/-- Line and column as words. -/
def wrapped (p : Place) : Place := ⟨p.line % (maxOffset + 1), p.column % (maxOffset + 1)⟩

/-- Line and column are words. -/
structure Fits (p : Place) : Prop where
  line_le : p.line ≤ maxOffset
  column_le : p.column ≤ maxOffset

theorem wrapped_eq_iff {p : Place} : p.wrapped = p ↔ p.Fits := by
  obtain ⟨line, column⟩ := p
  have hword : ∀ n, n % (maxOffset + 1) = n ↔ n ≤ maxOffset := by
    intro n
    rw [Nat.mod_eq_iff_lt (Nat.succ_ne_zero _), Nat.lt_succ_iff]
  rw [wrapped, mk.injEq, hword, hword]
  exact ⟨fun h => ⟨h.1, h.2⟩, fun h => ⟨h.1, h.2⟩⟩

/-- Places in their order: by line, in a line by column. -/
def key (p : Place) : ℕ ×ₗ ℕ := toLex (p.line, p.column)

/-- **A further character moves the place on**: a newline to the start of the next line, any
other character by a column. -/
theorem after_concat (text : List Char) (c : Char) :
    after (text ++ [c]) =
      if c = '\n' then ⟨(after text).line + 1, 1⟩
      else ⟨(after text).line, (after text).column + 1⟩ := by
  unfold after LineTable.lastLine
  by_cases hc : c = '\n'
  · rw [if_pos hc, List.rtakeWhile_concat_neg _ _ _ (by simpa using hc)]
    simp [hc, Nat.add_assoc]
  · rw [if_neg hc, List.rtakeWhile_concat_pos _ _ _ (by simpa using hc)]
    simp [hc, Nat.add_assoc]

theorem after_lt_concat (text : List Char) (c : Char) :
    (after text).key < (after (text ++ [c])).key := by
  rw [after_concat]
  split_ifs
  · exact Prod.Lex.toLex_lt_toLex.2 (.inl (Nat.lt_succ_self _))
  · exact Prod.Lex.toLex_lt_toLex.2 (.inr ⟨rfl, Nat.lt_succ_self _⟩)

/-- **Places grow with the text.** -/
theorem after_lt (text : List Char) {further : List Char} (hne : further ≠ []) :
    (after text).key < (after (text ++ further)).key := by
  induction further using List.reverseRecOn with
  | nil => exact absurd rfl hne
  | append_singleton front c ih =>
    rw [← List.append_assoc]
    have hstep := after_lt_concat (text ++ front) c
    cases front with
    | nil => simpa using hstep
    | cons d front => exact (ih (List.cons_ne_nil d front)).trans hstep

end Place

/-- No word is left for the line or for the column of the end of a text: it has as many characters
as there are offsets but one, and all of them are counted in one of the two numbers. -/
structure Overfull (text : List Char) : Prop where
  length_eq : text.length = maxOffset
  one_number : (∀ c ∈ text, c = '\n') ∨ '\n' ∉ text

/-- A boundary of characters whose line and column are words. -/
def IsNumbered (source : List Char) (offset : ℕ) : Prop :=
  ∃ before after, source = before ++ after ∧ ¬Overfull before ∧ offset = byteLength before

namespace LineTable

/-- A text of one line is its last line. -/
theorem lastLine_of_newline_not_mem {text : List Char} (h : '\n' ∉ text) :
    lastLine text = text := by
  apply List.rtakeWhile_eq_self_iff.2
  intro c hc
  have hne : c ≠ '\n' := fun heq => h (heq ▸ hc)
  exact decide_eq_true hne

/-- **A place that a text ends at is one of words, unless the text is overfull.** -/
theorem fits_after_iff {text : List Char} (hmax : byteLength text ≤ maxOffset) :
    (Place.after text).Fits ↔ ¬Overfull text := by
  have hlength : text.length ≤ maxOffset := (Text.length_le_byteLength text).trans hmax
  have hcount : text.count '\n' ≤ text.length := List.count_le_length
  have hsuffix := List.rtakeWhile_suffix (fun c => decide (c ≠ '\n')) text
  constructor
  · rintro ⟨hline, hcolumn⟩ ⟨hfull, hall | hnone⟩
    · have heq : text.count '\n' = text.length :=
        List.count_eq_length.2 fun c hc => (hall c hc).symm
      have hline' : 1 + text.count '\n' ≤ maxOffset := hline
      omega
    · have hcolumn' : 1 + (lastLine text).length ≤ maxOffset := hcolumn
      rw [lastLine_of_newline_not_mem hnone] at hcolumn'
      omega
  · intro hnot
    refine ⟨?_, ?_⟩
    · by_contra hline
      have hline' : ¬1 + text.count '\n' ≤ maxOffset := hline
      have heq : text.count '\n' = text.length := by omega
      have hall : ∀ c ∈ text, c = '\n' := fun c hc => (List.count_eq_length.1 heq c hc).symm
      exact hnot ⟨by omega, .inl hall⟩
    · by_contra hcolumn
      have hcolumn' : ¬1 + (lastLine text).length ≤ maxOffset := hcolumn
      have hle : (lastLine text).length ≤ text.length := hsuffix.length_le
      -- the last line is all of the text
      have heq : lastLine text = text := hsuffix.eq_of_length (by unfold lastLine at *; omega)
      have hnone : '\n' ∉ text := heq ▸ newline_not_mem_lastLine text
      exact hnot ⟨by omega, .inr hnone⟩

variable {xs ys : List Char} {offset : ℕ}

/-- Line and column of an offset, by the table of the source. -/
def positionOf (source : List Char) (offset : ℕ) : Place :=
  ((ofSource source).position source offset).place

/-- The search for an offset passes zero, and as many starts as there are newlines before it. -/
theorem passed_ofSource (hmax : byteLength (xs ++ ys) ≤ maxOffset) (hle : byteLength xs ≤ offset)
    (hlt : ∀ s ∈ startsAfter (byteLength xs) (bytes ys), offset < s) :
    (binarySearch (ofSource (xs ++ ys)).starts offset 0 _ le_rfl).passed = xs.count '\n' + 1 := by
  have hbytes : 0 + (bytes (xs ++ ys)).length ≤ maxOffset := by
    rwa [Text.length_bytes, Nat.zero_add]
  have hxs : 0 + (bytes xs).length ≤ maxOffset := by
    rw [Text.byteLength_append] at hmax
    rw [Text.length_bytes]
    omega
  have hsorted : (ofSource (xs ++ ys)).starts.toList.Pairwise (· < ·) := by
    refine List.pairwise_cons.2 ⟨fun s hs => ?_, pairwise_startsAfter hbytes⟩
    exact (bounds_of_mem_startsAfter hbytes hs).1
  have hsplit : SplitsAt (ofSource (xs ++ ys)).starts offset
      (binarySearch (ofSource (xs ++ ys)).starts offset 0 _ le_rfl).passed :=
    binarySearch_passed hsorted (Nat.zero_le _) (fun j _ hj0 => absurd hj0 (Nat.not_lt_zero j))
      fun _ hj hle => absurd hj hle.not_gt
  have hpre : ∀ s ∈ 0 :: startsAfter 0 (bytes xs), s ≤ offset := by
    intro s hs
    rcases List.mem_cons.1 hs with rfl | hs
    · exact Nat.zero_le _
    · have := (bounds_of_mem_startsAfter hxs hs).2
      rw [Text.length_bytes] at this
      omega
  rw [hsplit.eq_length (toList_starts_ofSource xs ys) hpre hlt, List.length_cons,
    length_startsAfter, Text.count_newline_bytes]

/-- The line of an offset is the number of starts that the search for it passes. -/
theorem line_of_passed {table : LineTable} {n : ℕ}
    (hpassed : (binarySearch table.starts offset 0 _ le_rfl).passed = n + 1) :
    table.line offset = ordinal n := by
  unfold line
  cases hslot : binarySearch table.starts offset 0 _ le_rfl with
  | found index =>
    rw [hslot] at hpassed
    have hindex : index = n := Nat.succ.inj hpassed
    rw [hindex]
  | missing index =>
    rw [hslot] at hpassed
    have hindex : index = n + 1 := hpassed
    rw [hindex]
    rfl

/-- The line of an offset counts the newlines of the text before it. -/
theorem line_ofSource (hmax : byteLength (xs ++ ys) ≤ maxOffset) (hle : byteLength xs ≤ offset)
    (hlt : ∀ s ∈ startsAfter (byteLength xs) (bytes ys), offset < s) :
    (ofSource (xs ++ ys)).line offset = ordinal (xs.count '\n') :=
  line_of_passed (passed_ofSource hmax hle hlt)

/-- The newlines of a text are not more than its bytes. -/
theorem count_newline_le (hmax : byteLength xs ≤ maxOffset) : xs.count '\n' ≤ maxOffset :=
  (List.count_le_length.trans (Text.length_le_byteLength xs)).trans hmax

theorem length_lastLine_le (hmax : byteLength xs ≤ maxOffset) :
    (lastLine xs).length ≤ maxOffset :=
  ((List.rtakeWhile_suffix _ xs).length_le.trans (Text.length_le_byteLength xs)).trans hmax

/-- The line of an offset starts after the last newline before it. -/
theorem lineStart_ofSource (hmax : byteLength xs ≤ maxOffset) :
    (ofSource (xs ++ ys)).lineStart (ordinal (xs.count '\n')) = byteLength (linesBefore xs) := by
  have hindex : (ordinal (xs.count '\n') - 1).toNat = (startsAfter 0 (bytes xs)).length := by
    rw [length_startsAfter, Text.count_newline_bytes, toNat_ordinal_sub_one (count_newline_le hmax)]
  have hlast := getLast?_starts hmax
  rw [List.getLast?_eq_getElem?, List.length_cons, Nat.add_sub_cancel] at hlast
  unfold lineStart
  rw [hindex, ← Array.getElem?_toList, toList_starts_ofSource,
    List.getElem?_append_left (by simp), hlast]
  rfl

/-- The position of an offset counts the newlines of the text before it, and the characters of its
last line. -/
theorem position_append (hmax : byteLength (xs ++ ys) ≤ maxOffset) :
    (ofSource (xs ++ ys)).position (xs ++ ys) (byteLength xs) =
      ⟨ordinal (xs.count '\n'), ordinal (lastLine xs).length⟩ := by
  have hxs : byteLength xs ≤ byteLength (xs ++ ys) := by
    rw [Text.byteLength_append]
    omega
  have hbytes : byteLength xs + (bytes ys).length ≤ maxOffset := by
    rwa [Text.length_bytes, ← Text.byteLength_append]
  have hline : (ofSource (xs ++ ys)).line (byteLength xs) = ordinal (xs.count '\n') :=
    line_ofSource hmax le_rfl fun s hs => (bounds_of_mem_startsAfter hbytes hs).1
  -- the characters of the line before the offset are a piece of the source
  have hslice : Text.slice? (byteLength (linesBefore xs)) (byteLength xs) (xs ++ ys) =
      some (lastLine xs) := by
    have h := Text.slice?_append (linesBefore xs) (lastLine xs) ys
    rwa [← Text.byteLength_append, ← List.append_assoc, linesBefore_append_lastLine] at h
  unfold position
  simp only [hline, lineStart_ofSource (hxs.trans hmax), Nat.min_eq_left hxs, hslice,
    Option.getD_some]

/-- **The position of an offset is the place that the text before it ends at**, in words. -/
theorem positionOf_append (hmax : byteLength (xs ++ ys) ≤ maxOffset) :
    positionOf (xs ++ ys) (byteLength xs) = (Place.after xs).wrapped := by
  have hxs : byteLength xs ≤ maxOffset := by
    rw [Text.byteLength_append] at hmax
    omega
  rw [positionOf, position_append hmax, Position.place, toNat_ordinal (count_newline_le hxs),
    toNat_ordinal (length_lastLine_le hxs)]
  rfl

/-- The position of the end of a source. -/
theorem positionOf_byteLength (hmax : byteLength xs ≤ maxOffset) :
    positionOf xs (byteLength xs) = (Place.after xs).wrapped := by
  have hposition : positionOf (xs ++ []) (byteLength xs) = (Place.after xs).wrapped :=
    positionOf_append (by rwa [List.append_nil])
  rwa [List.append_nil] at hposition

/-- Past the end of a source there is its last position. -/
theorem positionOf_of_le (hmax : byteLength xs ≤ maxOffset) (hle : byteLength xs ≤ offset) :
    positionOf xs offset = positionOf xs (byteLength xs) := by
  have hline : ∀ o, byteLength xs ≤ o → (ofSource xs).line o = ordinal (xs.count '\n') := by
    intro o ho
    have h : (ofSource (xs ++ [])).line o = ordinal (xs.count '\n') :=
      line_ofSource (by rwa [List.append_nil]) ho nofun
    rwa [List.append_nil] at h
  unfold positionOf position
  simp only [hline offset hle, hline _ le_rfl, Nat.min_eq_right hle, Nat.min_self]

end LineTable

open LineTable in
/-- **Positions are exact**, for every source whose offsets fit a word, at every boundary of
characters but one: the end of a source of the greatest length of which all characters are newlines,
or all of one byte and none a newline. Its line or its column is no word. Everywhere else the line
is one more than the number of newlines before the boundary, and the column one more than the number
of characters since the last of them. Positions there are in the order of the offsets, so no two are
the same; a further character moves the position to the start of the next line or to the next
column; and past the end there is the position of the end. -/
theorem position_exact {source : List Char} (hlen : byteLength source < 2 ^ 32) :
    (∀ before after, source = before ++ after → ¬Overfull before →
      positionOf source (byteLength before) =
        ⟨1 + (bytes before).count newline, 1 + (before.rtakeWhile (· ≠ '\n')).length⟩) ∧
    StrictMonoOn (fun o => toLex ((positionOf source o).line, (positionOf source o).column))
      {o | IsNumbered source o} ∧
    Set.InjOn (positionOf source) {o | IsNumbered source o} ∧
    (∀ before c after, source = before ++ c :: after → ¬Overfull (before ++ [c]) →
      positionOf source (byteLength before + c.utf8Size) =
        if c = '\n' then ⟨(positionOf source (byteLength before)).line + 1, 1⟩
        else ⟨(positionOf source (byteLength before)).line,
          (positionOf source (byteLength before)).column + 1⟩) ∧
    (∀ o, byteLength source ≤ o → positionOf source o = positionOf source (byteLength source)) ∧
    ∀ before after, source = before ++ after → Overfull before →
      after = [] ∧ byteLength source = 2 ^ 32 - 1 := by
  have hmax : byteLength source ≤ maxOffset := Nat.le_of_lt_succ hlen
  have hbytes : ∀ before after, source = before ++ after → byteLength before ≤ maxOffset := by
    rintro before after rfl
    rw [Text.byteLength_append] at hmax
    omega
  have hexact : ∀ before after, source = before ++ after → ¬Overfull before →
      positionOf source (byteLength before) = Place.after before := by
    intro before after h hfull
    have hfits := (fits_after_iff (hbytes before after h)).2 hfull
    subst h
    rw [positionOf_append hmax, Place.wrapped_eq_iff.2 hfits]
  have hend : ∀ before after, source = before ++ after → Overfull before →
      after = [] ∧ byteLength source = 2 ^ 32 - 1 := by
    rintro before after rfl hfull
    have hlength := hfull.length_eq
    have hbefore := Text.length_le_byteLength before
    have hafter := Text.length_le_byteLength after
    rw [Text.byteLength_append] at hmax ⊢
    refine ⟨List.eq_nil_of_length_eq_zero (by omega), ?_⟩
    rw [hlength] at hbefore
    exact Nat.le_antisymm hmax (hbefore.trans (Nat.le_add_right _ _))
  have hmono : StrictMonoOn (fun o => (positionOf source o).key) {o | IsNumbered source o} := by
    rintro _ ⟨a, b, hab, hfull, rfl⟩ _ ⟨c, d, hcd, hfull', rfl⟩ hlt
    obtain ⟨between, hne, rfl⟩ := Text.exists_append_of_byteLength_lt (hab.symm.trans hcd) hlt
    have hgrow := Place.after_lt a hne
    simpa only [hexact _ _ hab hfull, hexact _ _ hcd hfull'] using hgrow
  refine ⟨?_, hmono, ?_, ?_, fun o ho => positionOf_of_le hmax ho, hend⟩
  · intro before after h hfull
    rw [hexact before after h hfull, Text.count_newline_bytes]
    rfl
  · intro a ha b hb heq
    exact hmono.injOn ha hb (congrArg Place.key heq)
  · intro before c after h hfull
    have hnext : byteLength before + c.utf8Size = byteLength (before ++ [c]) := by
      rw [Text.byteLength_append]
      rfl
    have hsplit : source = (before ++ [c]) ++ after := by
      rw [h, List.append_assoc]
      rfl
    -- before a character no text is overfull
    have hbefore : ¬Overfull before := fun hover => List.cons_ne_nil _ _ (hend _ _ h hover).1
    rw [hnext, hexact _ _ hsplit hfull, hexact _ _ h hbefore, Place.after_concat]

open LineTable in
/-- Characters of three, one and two bytes: the byte 9 is the second character of the second
line. -/
theorem position_exact_wide :
    byteLength ['日', '本', '\n', 'é', '+'] < 2 ^ 32 ∧
    ¬Overfull ['日', '本', '\n', 'é'] ∧
    positionOf ['日', '本', '\n', 'é', '+'] 9 = ⟨2, 2⟩ ∧
    positionOf ['日', '本', '\n', 'é', '+'] 1000 = positionOf ['日', '本', '\n', 'é', '+'] 10 := by
  have hlen : byteLength ['日', '本', '\n', 'é', '+'] < 2 ^ 32 := by decide
  have hfull : ¬Overfull ['日', '本', '\n', 'é'] := by
    rintro ⟨hlength, -⟩
    exact absurd hlength (by decide)
  obtain ⟨hexact, -, -, -, hpast, -⟩ := position_exact hlen
  have hend : byteLength ['日', '本', '\n', 'é', '+'] ≤ 1000 := by decide
  exact ⟨hlen, hfull, hexact ['日', '本', '\n', 'é'] ['+'] rfl hfull, hpast 1000 hend⟩

/-- At the end of an overfull text the line or the column is not the number that it counts. -/
theorem LineTable.positionOf_ne_of_overfull {text : List Char} (hmax : byteLength text ≤ maxOffset)
    (hfull : Overfull text) :
    positionOf text (byteLength text) ≠
      ⟨1 + (bytes text).count newline, 1 + (text.rtakeWhile (· ≠ '\n')).length⟩ := by
  rw [positionOf_byteLength hmax, Text.count_newline_bytes]
  intro heq
  exact (fits_after_iff hmax).1 (Place.wrapped_eq_iff.1 heq) hfull

theorem byteLength_letters (n : ℕ) : byteLength (List.replicate n 'a') = n := by
  induction n with
  | zero => rfl
  | succ n ih =>
    rw [List.replicate_succ, byteLength, ih, Nat.add_comm]
    rfl

theorem newline_not_mem_letters (n : ℕ) : '\n' ∉ List.replicate n 'a' :=
  fun h => absurd (List.eq_of_mem_replicate h) (by decide)

/-- As many letters as there are offsets but one, in one line. -/
theorem overfull_letters : Overfull (List.replicate maxOffset 'a') where
  length_eq := List.length_replicate
  one_number := .inr (newline_not_mem_letters _)

open LineTable in
/-- At the end of an overfull line the column is zero. -/
theorem LineTable.positionOf_of_overfull_line {text : List Char}
    (hmax : byteLength text ≤ maxOffset) (hlength : text.length = maxOffset) (h : '\n' ∉ text) :
    positionOf text (byteLength text) = ⟨1, 0⟩ := by
  rw [positionOf_byteLength hmax, Place.after, List.count_eq_zero.2 h,
    lastLine_of_newline_not_mem h, hlength]
  rfl

open LineTable in
/-- **Behind the greatest number of letters the column is zero**, and not one more than their
number, which is no word. -/
theorem position_wraps :
    byteLength (List.replicate maxOffset 'a') < 2 ^ 32 ∧
    Text.IsBoundary (List.replicate maxOffset 'a') (byteLength (List.replicate maxOffset 'a')) ∧
    positionOf (List.replicate maxOffset 'a') (byteLength (List.replicate maxOffset 'a')) =
      ⟨1, 0⟩ ∧
    positionOf (List.replicate maxOffset 'a') (byteLength (List.replicate maxOffset 'a')) ≠
      ⟨1 + (bytes (List.replicate maxOffset 'a')).count newline,
        1 + ((List.replicate maxOffset 'a').rtakeWhile (· ≠ '\n')).length⟩ := by
  have hbytes := byteLength_letters maxOffset
  refine ⟨hbytes.trans_lt (by decide), ⟨_, [], (List.append_nil _).symm, rfl⟩, ?_, ?_⟩
  · exact positionOf_of_overfull_line hbytes.le List.length_replicate (newline_not_mem_letters _)
  · exact positionOf_ne_of_overfull hbytes.le overfull_letters

end ConstCheck
