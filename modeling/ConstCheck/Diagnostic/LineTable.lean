import ConstCheck.Text.Bytes

/-!
# Lines and columns

A position in a source has a line, counted from one, and a column, the number of characters from
the start of the line plus one. The table of a source lists the byte offsets at which its lines
start; the line of an offset is found by binary search. Offsets, lines and columns are words of 32
bits; an offset or a count that is no word is cut.

* `binarySearch`: where a number stands in a sorted array, or would stand.
* `ordinal`: counting from one, in words.
* `LineTable.ofSource`: the table of a source.
* `LineTable.line`, `LineTable.position`: line, and line with column, of a byte offset.
* `LineTable.lines`: the lines of a source, without what ends them.
-/

namespace ConstCheck

/-- Where a search in a sorted array ends. -/
inductive Slot where
  /-- At the number that was looked for. -/
  | found (index : Nat)
  /-- Nowhere; this is where the number would have to be inserted. -/
  | missing (index : Nat)

/-- Binary search for a number in the part of an array from `lo` up to `hi`. -/
def binarySearch (xs : Array Nat) (x lo hi : Nat) (hhi : hi ≤ xs.size) : Slot :=
  if h : lo < hi then
    let mid := lo + (hi - lo) / 2
    have hmid : mid < xs.size := by omega
    if xs[mid] = x then .found mid
    else if xs[mid] < x then binarySearch xs x (mid + 1) hi hhi
    else binarySearch xs x lo mid (by omega)
  else .missing lo
termination_by hi - lo

/-- The greatest offset, and the greatest word. -/
def maxOffset : Nat := 0xFFFFFFFF

/-- The number, counted from one, of what has so many others before it. A count that is no word is
cut, to the last but one. The sum is one of words: after a count of the greatest word it wraps to
zero, or, where sums of words are checked, it goes no further. -/
def ordinal (before : Nat) : UInt32 :=
  (if before ≤ maxOffset then .ofNat before else .ofNat (maxOffset - 1)) + 1

/-- The byte offsets of the starts of lines, in order. The default table has none. -/
structure LineTable where
  starts : Array Nat := #[]

/-- A line and a column, both counted from one. -/
structure Position where
  line : UInt32
  column : UInt32
  deriving DecidableEq

namespace LineTable

/-- The byte that ends a line. -/
def newline : UInt8 := '\n'.toUInt8

/-- The offsets after the newlines of a text that starts at an offset. -/
def startsAfter (offset : Nat) : List UInt8 → List Nat
  | [] => []
  | b :: bs =>
    if b = newline then min (offset + 1) maxOffset :: startsAfter (offset + 1) bs
    else startsAfter (offset + 1) bs

/-- The table of a source: a line starts at zero, and after every newline. -/
def ofSource (source : List Char) : LineTable :=
  ⟨(0 :: startsAfter 0 (Text.bytes source)).toArray⟩

/-- The line of an offset: that of the last start at or before it. -/
def line (table : LineTable) (offset : Nat) : UInt32 :=
  match binarySearch table.starts offset 0 table.starts.size (Nat.le_refl _) with
  | .found index => ordinal index
  | .missing index => ordinal (index - 1)

/-- The start of a line. -/
def lineStart (table : LineTable) (line : UInt32) : Nat := table.starts[(line - 1).toNat]?.getD 0

/-- Line and column of an offset; what lies past the end has the position of the end, and an
offset inside a character has column one. -/
def position (table : LineTable) (source : List Char) (offset : Nat) : Position :=
  let line := table.line offset
  let stop := min offset (Text.byteLength source)
  let before := (Text.slice? (table.lineStart line) stop source).getD []
  { line, column := ordinal before.length }

/-- The lines of a source. A newline ends a line, with a carriage return before it; after the last
newline there is a line only if there is text. -/
def lines : List Char → List (List Char)
  | [] => []
  | '\n' :: cs => [] :: lines cs
  | '\r' :: '\n' :: cs => [] :: lines cs
  | c :: cs =>
    match lines cs with
    | [] => [[c]]
    | l :: ls => (c :: l) :: ls

end LineTable

end ConstCheck
