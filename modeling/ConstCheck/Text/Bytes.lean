/-!
# Byte positions in text

Positions in a source are byte offsets of its UTF-8 form. A text is a list of characters here,
and an offset is used by walking past that many bytes; an offset inside a character or past the
end has no place in the text.

* `Text.bytes`: the UTF-8 form.
* `Text.dropBytes?`: the text from an offset on.
* `Text.takeBytes?`: the text before an offset.
* `Text.slice?`: the text between two offsets.
* `Text.slice?_append`: the offsets of a piece of a text give that piece back.
-/

namespace ConstCheck.Text

/-- The UTF-8 form of a text. -/
def bytes (cs : List Char) : List UInt8 := cs.flatMap String.utf8EncodeChar

/-- Length of a text in bytes. -/
def byteLength : List Char → Nat
  | [] => 0
  | c :: cs => c.utf8Size + byteLength cs

/-- What follows the first `n` bytes. -/
def dropBytes? : Nat → List Char → Option (List Char)
  | 0, cs => some cs
  | _ + 1, [] => none
  | n + 1, c :: cs => if c.utf8Size ≤ n + 1 then dropBytes? (n + 1 - c.utf8Size) cs else none

/-- The first `n` bytes. -/
def takeBytes? : Nat → List Char → Option (List Char)
  | 0, _ => some []
  | _ + 1, [] => none
  | n + 1, c :: cs =>
    if c.utf8Size ≤ n + 1 then (takeBytes? (n + 1 - c.utf8Size) cs).map (c :: ·) else none

/-- The text between two offsets, if both are boundaries in order. -/
def slice? (start stop : Nat) (cs : List Char) : Option (List Char) :=
  if start ≤ stop then (dropBytes? start cs).bind (takeBytes? (stop - start)) else none

theorem length_bytes (cs : List Char) : (bytes cs).length = byteLength cs := by
  induction cs with
  | nil => rfl
  | cons c cs ih =>
    rw [byteLength, ← ih, ← String.length_utf8EncodeChar c]
    exact List.length_append

theorem byteLength_append (xs ys : List Char) :
    byteLength (xs ++ ys) = byteLength xs + byteLength ys := by
  induction xs with
  | nil => simp [byteLength]
  | cons c cs ih => simp only [List.cons_append, byteLength, ih, Nat.add_assoc]

/-- An offset that is a sum of whole characters is a boundary. -/
theorem dropBytes?_append (xs ys : List Char) :
    dropBytes? (byteLength xs) (xs ++ ys) = some ys := by
  induction xs with
  | nil => simp [byteLength, dropBytes?]
  | cons c cs ih =>
    obtain ⟨n, hn⟩ : ∃ n, byteLength (c :: cs) = n + 1 :=
      ⟨byteLength (c :: cs) - 1, by have := c.utf8Size_pos; simp only [byteLength]; omega⟩
    have hc : c.utf8Size ≤ n + 1 := by simp only [byteLength] at hn; omega
    have hr : n + 1 - c.utf8Size = byteLength cs := by simp only [byteLength] at hn; omega
    rw [hn, List.cons_append, dropBytes?, if_pos hc, hr, ih]

theorem takeBytes?_append (xs ys : List Char) :
    takeBytes? (byteLength xs) (xs ++ ys) = some xs := by
  induction xs with
  | nil => simp [byteLength, takeBytes?]
  | cons c cs ih =>
    obtain ⟨n, hn⟩ : ∃ n, byteLength (c :: cs) = n + 1 :=
      ⟨byteLength (c :: cs) - 1, by have := c.utf8Size_pos; simp only [byteLength]; omega⟩
    have hc : c.utf8Size ≤ n + 1 := by simp only [byteLength] at hn; omega
    have hr : n + 1 - c.utf8Size = byteLength cs := by simp only [byteLength] at hn; omega
    rw [hn, List.cons_append, takeBytes?, if_pos hc, hr, ih]
    rfl

/-- **The offsets of a piece of a text give that piece back.** -/
theorem slice?_append (xs ys zs : List Char) :
    slice? (byteLength xs) (byteLength xs + byteLength ys) (xs ++ (ys ++ zs)) = some ys := by
  rw [slice?, if_pos (Nat.le_add_right _ _), dropBytes?_append, Option.bind_some,
    Nat.add_sub_cancel_left, takeBytes?_append]

end ConstCheck.Text
