import Mathlib.Order.Bounds.Basic
import ConstCheck.Proofs.BuiltinTypes

/-!
# The growth of slices

A slice without spare room that is pushed to again and again doubles its capacity each time it is
full. So its capacity is always the least of the lengths `k`, `2k`, `4k`, … that is enough, `k`
being the length at the start. A start without elements has nothing to double: its first element
makes it a slice of one. Where the capacity is below the length, one push makes up for it.

* `Slice.pushAll`: one element after another is pushed.
* `Slice.cap_push`: **a push leaves room for all elements, and never takes room away**.
* `Slice.Doubled`: the capacity is the least doubling that is enough.
* `Slice.Doubled.push`, `Slice.Doubled.pushAll`: one push keeps that, and so do all.
* `Builtin.append_eq_push`: `append` is a push, to nil as to the empty slice.
* `slice_growth` (every start and every list of pushes): elements and capacity in closed form.
-/

namespace ConstCheck

namespace Slice

variable {α : Type} {s : Slice α} {k : ℕ}

/-- Pushes one element after another. -/
def pushAll (s : Slice α) (xs : List α) : Slice α := xs.foldl push s

theorem pushAll_cons (s : Slice α) (x : α) (xs : List α) :
    s.pushAll (x :: xs) = (s.push x).pushAll xs := rfl

/-- The elements are in the order in which they were pushed. -/
theorem elems_pushAll (s : Slice α) (xs : List α) : (s.pushAll xs).elems = s.elems ++ xs := by
  induction xs generalizing s with
  | nil => exact (List.append_nil _).symm
  | cons x xs ih =>
    rw [pushAll_cons, ih, elems_push, List.append_assoc]
    rfl

/-! ## One push -/

/-- Where there is room, a push takes it. -/
theorem cap_push_of_room (h : s.elems.length < s.cap) (x : α) : (s.push x).cap = s.cap := by
  unfold push
  dsimp only
  rw [if_neg (by omega)]

/-- A full slice doubles its capacity. -/
theorem cap_push_of_full (h : s.elems.length = s.cap) (hpos : 0 < s.cap) (x : α) :
    (s.push x).cap = s.cap * 2 := by
  unfold push
  dsimp only
  rw [if_pos (by omega)]
  omega

/-- **A push leaves room for all elements and never takes room away**, also where the capacity was
below the length. -/
theorem cap_push (s : Slice α) (x : α) :
    (s.push x).elems.length ≤ (s.push x).cap ∧ s.cap ≤ (s.push x).cap := by
  rw [length_push]
  unfold push
  dsimp only
  split_ifs with hfull
  · omega
  · omega

/-! ## All pushes -/

/-- The capacity of a slice is the least doubling of a number that is enough for the elements. -/
def Doubled (k : ℕ) (s : Slice α) : Prop :=
  IsLeast {c | (∃ j, c = k * 2 ^ j) ∧ s.elems.length ≤ c} s.cap

theorem doubled_ofList (xs : List α) : (ofList xs).Doubled xs.length :=
  ⟨⟨⟨0, by simp⟩, le_rfl⟩, fun _ hc => hc.2⟩

/-- **A push keeps the capacity the least doubling.** If the slice is full its length is that
doubling, so the next one is needed and is enough. -/
theorem Doubled.push (h : s.Doubled k) (hk : 0 < k) (x : α) : (s.push x).Doubled k := by
  obtain ⟨⟨⟨j, hj⟩, hlen⟩, hleast⟩ := h
  rcases Nat.eq_or_lt_of_le hlen with hfull | hroom
  · have hpos : 0 < s.cap := by
      rw [hj]
      exact Nat.mul_pos hk (Nat.two_pow_pos j)
    refine ⟨⟨⟨j + 1, ?_⟩, (cap_push s x).1⟩, ?_⟩
    · rw [cap_push_of_full hfull hpos, hj, pow_succ, mul_assoc]
    · rintro c ⟨⟨i, rfl⟩, hc⟩
      rw [length_push, hfull, hj] at hc
      have hij : j < i := (Nat.pow_lt_pow_iff_right Nat.one_lt_two).1 (Nat.lt_of_mul_lt_mul_left hc)
      rw [cap_push_of_full hfull hpos, hj, mul_assoc, ← pow_succ]
      exact Nat.mul_le_mul_left k (Nat.pow_le_pow_right Nat.two_pos hij)
  · rw [Doubled, cap_push_of_room hroom]
    refine ⟨⟨⟨j, hj⟩, ?_⟩, ?_⟩
    · rw [length_push]
      exact hroom
    · rintro c ⟨hdoubling, hc⟩
      rw [length_push] at hc
      exact hleast ⟨hdoubling, by omega⟩

theorem Doubled.pushAll (h : s.Doubled k) (hk : 0 < k) (xs : List α) :
    (s.pushAll xs).Doubled k := by
  induction xs generalizing s with
  | nil => exact h
  | cons x xs ih => exact ih (h.push hk x)

end Slice

/-! ## Appending -/

/-- The slice that a value is; nil is the empty one. -/
def Value.asSlice? : Value → Option (Slice Value)
  | slice elems room => some ⟨elems, room⟩
  | nil => some (.ofList [])
  | _ => none

/-- **`append` is a push of what is accepted as an element**, to nil as to the empty slice; and what
is refused as an element is refused. -/
theorem Builtin.append_eq_push {word : WordSize} {s x : Arg} {ty elem t : Ty} {value : Value}
    {content : Slice Value} (hty : s.ty? = some ty) (helem : ty.underlying = .slice elem)
    (hs : s.const? = some (.typed ⟨t, value⟩)) (hcontent : value.asSlice? = some content)
    (store : Store) :
    append.call word store [s, x] =
      (elementOf word x elem).map fun v => (.typed ⟨ty, .ofSlice (content.push v)⟩, store) := by
  have hslice : sliceType s = .ok (ty, elem) := by
    simp only [sliceType, hty, helem]
  have hcall : appendCall word [s, x] =
      (elementOf word x elem).map fun v => .typed ⟨ty, .ofSlice (content.push v)⟩ := by
    simp only [appendCall, two, bind, Except.bind, hslice]
    cases elementOf word x elem with
    | error e => rfl
    | ok v =>
      simp only [hs]
      cases value with
      | slice elems room | nil =>
        obtain rfl := Option.some.inj hcontent
        rfl
      | _ => cases hcontent
  simp only [call, hcall]
  cases elementOf word x elem <;> rfl

/-- **Slices grow by doubling.** Pushed one after another to a slice without spare room, elements
come behind those it has, in their order. Its capacity stays as it is without a push; it is the
least of the doublings of the length at the start that is enough for all elements; and at a start
without elements the least power of two that is. To any slice, one whose capacity is below its
length included, a push leaves room for all elements, and never less than there was. `append` of
what is accepted as an element is a push to the slice, or to the empty one if it is nil. -/
theorem slice_growth :
    (∀ xs ys : List Value,
      let grown := (Slice.ofList xs).pushAll ys
      grown.elems = xs ++ ys ∧
      (ys.length = 0 → grown.cap = xs.length) ∧
      (0 < xs.length →
        IsLeast {c | (∃ j, c = xs.length * 2 ^ j) ∧ xs.length + ys.length ≤ c} grown.cap) ∧
      (xs.length = 0 → 0 < ys.length →
        IsLeast {c | (∃ j, c = 2 ^ j) ∧ ys.length ≤ c} grown.cap)) ∧
    (∀ (s : Slice Value) (x : Value),
      (s.push x).elems.length ≤ (s.push x).cap ∧ s.cap ≤ (s.push x).cap) ∧
    ∀ (word : WordSize) (store : Store) (ty elem : Ty) (s : Slice Value) (x : Arg),
      ty.underlying = .slice elem →
      let pushed (s : Slice Value) := (Builtin.elementOf word x elem).map fun v =>
        (Const.typed ⟨ty, .ofSlice (s.push v)⟩, store)
      Builtin.append.call word store [.ofConst (.typed ⟨ty, .nil⟩), x] = pushed (.ofList []) ∧
      Builtin.append.call word store [.ofConst (.typed ⟨ty, .ofSlice s⟩), x] = pushed s := by
  refine ⟨?_, Slice.cap_push, ?_⟩
  · intro xs ys
    have helems : ((Slice.ofList xs).pushAll ys).elems = xs ++ ys := Slice.elems_pushAll _ _
    refine ⟨helems, ?_, ?_, ?_⟩
    · intro hys
      rw [List.eq_nil_of_length_eq_zero hys]
      rfl
    · intro hxs
      have hleast := (Slice.doubled_ofList xs).pushAll hxs ys
      rwa [Slice.Doubled, helems, List.length_append] at hleast
    · intro hxs hys
      obtain rfl := List.eq_nil_of_length_eq_zero hxs
      obtain ⟨y, rest, rfl⟩ := List.exists_cons_of_length_pos hys
      -- after its first element it is a slice of one, whose doublings are the powers of two
      have hleast := (Slice.doubled_ofList [y]).pushAll Nat.one_pos rest
      have hone : ∀ j, [y].length * 2 ^ j = 2 ^ j := fun j => Nat.one_mul _
      simp only [Slice.Doubled, Slice.elems_pushAll, hone] at hleast
      exact hleast
  · intro word store ty elem s x helem
    exact ⟨Builtin.append_eq_push rfl helem rfl rfl store,
      Builtin.append_eq_push rfl helem rfl rfl store⟩

/-- A slice of three has room for twelve after four pushes, and one without elements room for four
after three. An octet appended to nil, of a named type, is in a slice of one. -/
theorem slice_growth_octets :
    (0 < [Value.uint 1, .uint 2, .uint 3].length ∧
      IsLeast {c | (∃ j, c = 3 * 2 ^ j) ∧ 3 + 4 ≤ c}
        ((Slice.ofList [Value.uint 1, .uint 2, .uint 3]).pushAll (.replicate 4 (.uint 0))).cap) ∧
    (0 < [Value.uint 1, .uint 2, .uint 3].length ∧
      IsLeast {c | (∃ j, c = 2 ^ j) ∧ 3 ≤ c}
        ((Slice.ofList []).pushAll [Value.uint 1, .uint 2, .uint 3]).cap) ∧
    (Ty.named "Octets" (.slice (.basic .uint8))).underlying = .slice (.basic .uint8) ∧
      Builtin.append.call .bits32 .empty
        [.ofConst (.typed ⟨.named "Octets" (.slice (.basic .uint8)), .nil⟩),
          .ofConst (.number (.ofInt 7))] =
        .ok (.typed ⟨.named "Octets" (.slice (.basic .uint8)), .slice [.uint 7] 1⟩, .empty) := by
  obtain ⟨hgrown, -, happend⟩ := slice_growth
  have hthree : 0 < [Value.uint 1, .uint 2, .uint 3].length := by decide
  obtain ⟨-, -, hdoubled, -⟩ := hgrown [.uint 1, .uint 2, .uint 3] (.replicate 4 (.uint 0))
  obtain ⟨-, -, -, hpower⟩ := hgrown [] [.uint 1, .uint 2, .uint 3]
  have hnamed : (Ty.named "Octets" (.slice (.basic .uint8))).underlying =
    .slice (.basic .uint8) := rfl
  obtain ⟨hnil, -⟩ := happend .bits32 .empty _ _ (.ofList []) (.ofConst (.number (.ofInt 7))) hnamed
  exact ⟨⟨hthree, hdoubled hthree⟩, ⟨hthree, hpower rfl hthree⟩, hnamed, hnil⟩

end ConstCheck
