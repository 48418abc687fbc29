import ConstCheck.Proofs.Outcomes

/-!
# Complex numbers and their parts

`complex` makes a complex number of two parts, `real` and `imag` take it apart again. Untyped
numbers keep their exact parts. Values keep theirs bit for bit, an infinity, a NaN and the sign of a
zero included: the parts are of one width and are passed on as they are, without another rounding.

* `Builtin.Returns`: a call on arguments of known values has a constant as its value.
* `Builtin.complex_numbers`, `Builtin.complex_floats`: what `complex` makes of two parts.
* `Builtin.TakesPart.number`, `Builtin.TakesPart.value`: what `real` and `imag` take out of it.
* `complex_parts_inverse` (every word, number and value): **taking apart and making undo each
  other**.
-/

namespace ConstCheck

namespace Builtin

/-- A call on arguments that hold the given constants has a constant as its value, whatever else is
known of the arguments, and leaves every store as it is. -/
def Returns (word : WordSize) (b : Builtin) (consts : List Const) (c : Const) : Prop :=
  ∀ (store : Store) (args : List Arg), args.map Arg.const? = consts.map some →
    b.call word store args = .ok (c, store)

section

variable {word : WordSize} {b : Builtin} {c d e : Const}

/-- A function of one argument looks at the constant of that argument. -/
theorem exists_of_map_singleton {args : List Arg} (h : args.map Arg.const? = [d].map some) :
    ∃ a, args = [a] ∧ a.const? = some d := by
  rw [List.map_singleton] at h
  obtain ⟨a, rfl, ha⟩ := List.map_eq_singleton_iff.1 h
  exact ⟨a, rfl, ha⟩

/-- A function of two arguments looks at the constants of those two. -/
theorem exists_of_map_pair {args : List Arg} (h : args.map Arg.const? = [d, e].map some) :
    ∃ a b, args = [a, b] ∧ a.const? = some d ∧ b.const? = some e := by
  rw [List.map_cons] at h
  obtain ⟨a, rest, rfl, ha, hrest⟩ := List.map_eq_cons_iff.1 h
  obtain ⟨b, rfl, hb⟩ := exists_of_map_singleton hrest
  exact ⟨a, b, rfl, ha, hb⟩

theorem returns_complex
    (h : ∀ re im : Arg, re.const? = some d → im.const? = some e →
      complexCall word [re, im] = .ok c) : complex.Returns word [d, e] c := by
  intro store args hargs
  obtain ⟨re, im, rfl, hre, him⟩ := exists_of_map_pair hargs
  have hcall := h re im hre him
  exact map_eq_ok.2 ⟨c, hcall, rfl⟩

/-! ## Making a complex number -/

/-- Two numbers on the real axis are the parts of a complex number. -/
theorem complex_numbers {r i : Number} (hr : r.isRealValued) (hi : i.isRealValued) :
    complex.Returns word [.number r, .number i] (.number (.ofParts r.re i.re)) := by
  apply returns_complex
  intro re im hre him
  have hboth : (r.isRealValued && i.isRealValued) = true := by rw [hr, hi]; rfl
  refine bind_eq_ok.2 ⟨(re, im), rfl, ?_⟩
  simp only [hre, him, Const.number, hboth, if_true]
  rfl

/-- A float is used as it is where a float of its type below the names is wanted. -/
theorem float?_of_underlying {ty part : Ty} {x : FloatValue} (h : ty.underlying = part) :
    (Const.typed ⟨ty, .float x⟩).float? part word = some x := by
  simp only [Const.float?, h, if_true]
  rfl

/-- The wider width is tried first; two floats of the other one are not of that. -/
theorem complexOf?_floats {s t part whole : Ty} {x y : FloatValue}
    (hpart : partType? whole = some part) (hs : s.underlying = part) (ht : t.underlying = part) :
    complexOf? word (.typed ⟨s, .float x⟩) (.typed ⟨t, .float y⟩) =
      some ⟨whole.underlying, .complex x y⟩ := by
  have hx : (Const.typed ⟨s, .float x⟩).float? part word = some x := float?_of_underlying hs
  have hy : (Const.typed ⟨t, .float y⟩).float? part word = some y := float?_of_underlying ht
  rcases partType?_cases hpart with ⟨hwhole, rfl⟩ | ⟨hwhole, rfl⟩
  · simp [complexOf?, hx, hy, hwhole]
  · have hwide : (Const.typed ⟨s, .float x⟩).float? .float64 word = none := by
      simp [Const.float?, hs]
    simp [complexOf?, hwide, hx, hy, hwhole]

/-- **Two floats of one width are the parts of a value of the complex type with parts of that
width**; names of their types are seen through. -/
theorem complex_floats {s t part whole : Ty} {x y : FloatValue}
    (hpart : partType? whole = some part) (hs : s.underlying = part) (ht : t.underlying = part) :
    complex.Returns word [.typed ⟨s, .float x⟩, .typed ⟨t, .float y⟩]
      (.typed ⟨whole.underlying, .complex x y⟩) := by
  apply returns_complex
  intro re im hre him
  refine bind_eq_ok.2 ⟨(re, im), rfl, ?_⟩
  simp only [hre, him, complexOf?_floats hpart hs ht]
  rfl

/-! ## Taking it apart -/

section

variable {exact : Number → Number} {pick : FloatValue × FloatValue → FloatValue}

/-- A builtin that takes a part of its one argument. -/
def TakesPart (word : WordSize) (b : Builtin) (exact : Number → Number)
    (pick : FloatValue × FloatValue → FloatValue) : Prop :=
  ∀ store args, b.call word store args = (partCall b exact pick args).map fun c => (c, store)

theorem real_takesPart (word : WordSize) : real.TakesPart word Number.realPart Prod.fst :=
  fun _ _ => rfl

theorem imag_takesPart (word : WordSize) : imag.TakesPart word Number.imagPart Prod.snd :=
  fun _ _ => rfl

/-- A part of an untyped number is exact. -/
theorem TakesPart.number (hb : b.TakesPart word exact pick) (n : Number) :
    b.Returns word [.number n] (.number (exact n)) := by
  intro store args hargs
  obtain ⟨a, rfl, ha⟩ := exists_of_map_singleton hargs
  have hpart : partCall b exact pick [a] = .ok (.number (exact n)) := by
    refine bind_eq_ok.2 ⟨a, rfl, ?_⟩
    simp only [ha, Const.number]
    rfl
  rw [hb, hpart]
  rfl

/-- **A part of a complex value is that float**, of the float type of the width. -/
theorem TakesPart.value (hb : b.TakesPart word exact pick) {whole part : Ty} {x y : FloatValue}
    (hwhole : partType? whole = some part) :
    b.Returns word [.typed ⟨whole, .complex x y⟩] (.typed ⟨part, .float (pick (x, y))⟩) := by
  intro store args hargs
  obtain ⟨a, rfl, ha⟩ := exists_of_map_singleton hargs
  have hpart : partCall b exact pick [a] = .ok (.typed ⟨part, .float (pick (x, y))⟩) := by
    refine bind_eq_ok.2 ⟨a, rfl, ?_⟩
    simp only [ha, hwhole, TypedValue.complex?]
    rfl
  rw [hb, hpart]
  rfl

end

/-- The parts of a complex type are of a float type. -/
theorem exists_partType? {ty : Ty}
    (h : ty.underlying = .complex128 ∨ ty.underlying = .complex64) :
    ∃ part, partType? ty = some part ∧ part.underlying = part := by
  rcases h with h | h
  · exact ⟨.float64, by simp only [partType?, h], rfl⟩
  · exact ⟨.float32, by simp only [partType?, h], rfl⟩

/-- A float type is that of the parts of a complex type without a name. -/
theorem exists_partType?_eq {part : Ty} (h : part = .float64 ∨ part = .float32) :
    ∃ whole, partType? whole = some part ∧ partType? whole.underlying = some part := by
  rcases h with rfl | rfl
  · exact ⟨.complex128, rfl, rfl⟩
  · exact ⟨.complex64, rfl, rfl⟩

end

end Builtin

open Builtin in
/-- **Complex numbers and their parts**, for every word size. Two untyped numbers on the real axis
come back from the complex number that they make, as floats without a type, and every untyped number
is made again of its parts. Two floats of one width come back bit for bit, of the nameless type of
that width, and every value of a complex type is made again of its parts, bit for bit and of the
type below its names. -/
theorem complex_parts_inverse (word : WordSize) :
    (∀ r i : Number, r.isRealValued → i.isRealValued → ∃ z x y : Number,
      complex.Returns word [.number r, .number i] (.number z) ∧
      real.Returns word [.number z] (.number x) ∧ imag.Returns word [.number z] (.number y) ∧
      x.sameValue r ∧ y.sameValue i ∧ x.kind = .float ∧ y.kind = .float) ∧
    (∀ z : Number, ∃ x y w : Number,
      real.Returns word [.number z] (.number x) ∧ imag.Returns word [.number z] (.number y) ∧
      complex.Returns word [.number x, .number y] (.number w) ∧ w.sameValue z) ∧
    (∀ (part s t : Ty) (x y : FloatValue), part = .float64 ∨ part = .float32 →
      s.underlying = part → t.underlying = part → ∃ z,
        complex.Returns word [.typed ⟨s, .float x⟩, .typed ⟨t, .float y⟩] z ∧
        real.Returns word [z] (.typed ⟨part, .float x⟩) ∧
        imag.Returns word [z] (.typed ⟨part, .float y⟩)) ∧
    ∀ (ty : Ty) (x y : FloatValue), ty.underlying = .complex128 ∨ ty.underlying = .complex64 →
      ∃ re im, real.Returns word [.typed ⟨ty, .complex x y⟩] re ∧
        imag.Returns word [.typed ⟨ty, .complex x y⟩] im ∧
        complex.Returns word [re, im] (.typed ⟨ty.underlying, .complex x y⟩) := by
  have hreal := real_takesPart word
  have himag := imag_takesPart word
  refine ⟨?_, ?_, ?_, ?_⟩
  · intro r i hr hi
    have hr0 : r.im = 0 := eq_of_beq hr
    have hi0 : i.im = 0 := eq_of_beq hi
    refine ⟨_, _, _, complex_numbers hr hi, hreal.number _, himag.number _, ?_, ?_, rfl, rfl⟩
    · exact Number.sameValue_iff.2 ⟨rfl, hr0.symm⟩
    · exact Number.sameValue_iff.2 ⟨rfl, hi0.symm⟩
  · intro z
    -- a part is real, so that the two parts make a number
    have hre : z.realPart.isRealValued := rfl
    have him : z.imagPart.isRealValued := rfl
    refine ⟨_, _, _, hreal.number z, himag.number z, complex_numbers hre him, ?_⟩
    exact Number.sameValue_iff.2 ⟨rfl, rfl⟩
  · intro part s t x y hpart hs ht
    obtain ⟨whole, hwhole, hnameless⟩ := exists_partType?_eq hpart
    exact ⟨_, complex_floats hwhole hs ht, hreal.value hnameless, himag.value hnameless⟩
  · intro ty x y hty
    obtain ⟨part, hpart, hnameless⟩ := exists_partType? hty
    exact ⟨_, _, hreal.value hpart, himag.value hpart,
      complex_floats hpart hnameless hnameless⟩

open Builtin in
/-- A third and a whole number; a negative zero and a NaN, once of a named type over `float32`, once
as the parts of a value of a named type over `complex64`. -/
theorem complex_parts_inverse_negZero :
    ((Number.ofRat (1 / 3)).isRealValued ∧ (Number.ofInt (-2)).isRealValued ∧ ∃ z x y : Number,
      complex.Returns .bits32 [.number (.ofRat (1 / 3)), .number (.ofInt (-2))] (.number z) ∧
      real.Returns .bits32 [.number z] (.number x) ∧
      imag.Returns .bits32 [.number z] (.number y) ∧
      x.sameValue (.ofRat (1 / 3)) ∧ y.sameValue (.ofInt (-2)) ∧
      x.kind = .float ∧ y.kind = .float) ∧
    ((Ty.named "Ohm" .float32).underlying = .float32 ∧ ∃ z,
      complex.Returns .bits32
        [.typed ⟨.named "Ohm" .float32, .float .negZero⟩, .typed ⟨.float32, .float (.nan true 1)⟩]
        z ∧
      real.Returns .bits32 [z] (.typed ⟨.float32, .float .negZero⟩) ∧
      imag.Returns .bits32 [z] (.typed ⟨.float32, .float (.nan true 1)⟩)) ∧
    (Ty.named "Impedance" .complex64).underlying = .complex64 ∧ ∃ re im,
      real.Returns .bits32
        [.typed ⟨.named "Impedance" .complex64, .complex .negZero (.nan true 1)⟩] re ∧
      imag.Returns .bits32
        [.typed ⟨.named "Impedance" .complex64, .complex .negZero (.nan true 1)⟩] im ∧
      complex.Returns .bits32 [re, im] (.typed ⟨.complex64, .complex .negZero (.nan true 1)⟩) := by
  obtain ⟨hnumbers, -, hfloats, hvalues⟩ := complex_parts_inverse .bits32
  refine ⟨⟨rfl, rfl, hnumbers _ _ rfl rfl⟩, ⟨rfl, ?_⟩, rfl, ?_⟩
  · exact hfloats .float32 _ _ _ _ (.inr rfl) rfl rfl
  · exact hvalues (.named "Impedance" .complex64) _ _ (.inr rfl)

end ConstCheck
