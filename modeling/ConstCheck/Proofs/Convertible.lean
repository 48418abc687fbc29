import ConstCheck.Proofs.OperatorTable

/-!
# Classes of types

Any value can be used where any type is wanted. Among all other types conversion goes both ways and
in steps: the real types form a class, the complex types another, and every type else stands with
the types that are alike below their names. A conversion of a typed constant has a value where the
class of its type is that of the target, unless a number is wanted of a value that is not finite.

* `Ty.conversionClass`: the class of a type.
* `Ty.convertibleTo_iff_conversionClass`: **types convert to each other inside a class**.
* `Const.convert_refuses_iff`: what an invalid conversion is.
* `Const.convert_isSome_iff`: where a conversion has a value.
* `convertibility_is_equivalence` (every type and typed constant): the laws together.
-/

namespace ConstCheck

namespace Ty

variable {ty source target : Ty}

/-- The types that convert to each other. -/
inductive ConversionClass where
  | real
  | complex
  /-- The types that are alike below their names. -/
  | alike (ty : Ty)

/-- The class of a type. -/
def conversionClass (ty : Ty) : ConversionClass :=
  if ty.isReal then .real
  else if ty.category = .complex then .complex
  else .alike ty.underlying

theorem conversionClass_eq_real_iff : ty.conversionClass = .real ↔ ty.isReal := by
  unfold conversionClass
  split_ifs <;> simp_all

theorem conversionClass_eq_complex_iff :
    ty.conversionClass = .complex ↔ ty.category = .complex := by
  have hreal : ty.isReal → ty.category ≠ .complex := fun h => (isReal_iff.1 h).2
  unfold conversionClass
  split_ifs <;> simp_all

/-- The class of a type is that of the type below its names. -/
theorem conversionClass_of_underlying_eq (h : source.underlying = target.underlying) :
    source.conversionClass = target.conversionClass := by
  have hc := category_of_underlying_eq h
  unfold conversionClass isReal
  rw [hc, h]

/-- A string type is the type of strings below its names. -/
theorem underlying_of_string (h : ty.category = .string) : ty.underlying = .string := by
  obtain ⟨b, hb⟩ := exists_basic (show ty.category.isBasic by rw [h]; rfl)
  have hc : b.category = .string := by rw [← category_of_underlying hb]; exact h
  rw [hb]
  cases b <;> first | rfl | cases hc

/-- **Types convert to each other inside a class**, where not any type is wanted. -/
theorem convertibleTo_iff_conversionClass (hany : target ≠ any) :
    source.convertibleTo target ↔ source.conversionClass = target.conversionClass := by
  rw [convertibleTo_iff hany]
  constructor
  · rintro (h | ⟨hs, ht⟩ | ⟨hs, ht⟩ | ⟨hs, ht⟩)
    · exact conversionClass_of_underlying_eq h
    · rw [conversionClass_eq_real_iff.2 hs, conversionClass_eq_real_iff.2 ht]
    · rw [conversionClass_eq_complex_iff.2 hs, conversionClass_eq_complex_iff.2 ht]
    · apply conversionClass_of_underlying_eq
      rw [underlying_of_string hs, underlying_of_string ht]
  · intro h
    cases hclass : target.conversionClass with
    | real =>
      rw [hclass] at h
      exact .inr (.inl ⟨conversionClass_eq_real_iff.1 h, conversionClass_eq_real_iff.1 hclass⟩)
    | complex =>
      rw [hclass] at h
      exact .inr (.inr (.inl
        ⟨conversionClass_eq_complex_iff.1 h, conversionClass_eq_complex_iff.1 hclass⟩))
    | alike body =>
      -- a class of this form says what is below the names
      have hbelow : ∀ {t : Ty}, t.conversionClass = .alike body → t.underlying = body := by
        intro t ht
        unfold conversionClass at ht
        split_ifs at ht
        exact ConversionClass.alike.inj ht
      exact .inl ((hbelow (h.trans hclass)).trans (hbelow hclass).symm)

/-- **Conversion is an equivalence** among the types other than the one that every type
satisfies. -/
theorem convertibleTo_equivalence :
    Equivalence fun s t : {ty : Ty // ty ≠ any} => (s : Ty).convertibleTo t := by
  have hclass : ∀ s t : {ty : Ty // ty ≠ any},
      (s : Ty).convertibleTo t ↔ (s : Ty).conversionClass = (t : Ty).conversionClass :=
    fun s t => convertibleTo_iff_conversionClass t.2
  constructor
  · intro s
    exact (hclass s s).2 rfl
  · intro s t hst
    exact (hclass t s).2 ((hclass s t).1 hst).symm
  · intro s t u hst htu
    exact (hclass s u).2 (((hclass s t).1 hst).trans ((hclass t u).1 htu))

/-- What is assigned is converted. -/
theorem convertibleTo_of_assignableTo (h : source.assignableTo target) :
    source.convertibleTo target := by
  simp [convertibleTo, h]

end Ty

/-! ## Conversions of typed constants -/

section

variable {v : TypedValue} {ty : Ty} {word : WordSize}

/-- A value that is not finite denotes no number. -/
theorem TypedValue.isFinite_of_number? {n : Number} (h : v.number? = some n) :
    v.value.IsFinite := by
  obtain ⟨t, value⟩ := v
  cases value with
  | float x =>
    obtain ⟨q, hq, -⟩ := Option.map_eq_some_iff.1 h
    exact FloatValue.isFinite_iff.2 ⟨q, hq⟩
  | complex re im =>
    simp only [number?, Number.ofComplex?, Option.bind_eq_bind, Option.bind_eq_some_iff] at h
    obtain ⟨p, hp, q, hq, -⟩ := h
    exact ⟨FloatValue.isFinite_iff.2 ⟨p, hp⟩, FloatValue.isFinite_iff.2 ⟨q, hq⟩⟩
  | _ => trivial

/-- **What converts is no invalid conversion**: narrowing reports losses alone. -/
theorem Const.code_ne_invalidConversion {k : ErrorKind} (hconv : v.ty.convertibleTo ty)
    (hk : k ∈ ((typed v).convert ty word).2) : k.code ≠ .invalidConversion := by
  rcases convert_cases (typed v) ty word with ⟨d, hd, h⟩ | ⟨_, -, -, -, h⟩ | ⟨_, -, -, -, -, h⟩ | h
  · obtain ⟨-, hn, n, -, rfl⟩ := hd
    have hnumber : (UntypedConst.number n).kind.convertsTo ty := hn
    rw [h] at hk
    obtain ⟨m, -, ⟨kind, rfl⟩ | rfl⟩ := UntypedConst.losses_of_mem_narrow hnumber hk <;> nofun
  · rw [h] at hk
    cases hk
  · rw [h] at hk
    cases hk
  · exact absurd hconv (h.1 v rfl)

theorem Const.convert_of_not_convertibleTo (hconv : ¬v.ty.convertibleTo ty) (word : WordSize) :
    (typed v).convert ty word = (none, [.invalidConversion v.text v.ty ty]) := by
  simp [convert, hconv]

/-- **An invalid conversion is one between types that do not convert.** -/
theorem Const.convert_refuses_iff :
    (∃ k ∈ ((typed v).convert ty word).2, k.code = .invalidConversion) ↔
      ¬v.ty.convertibleTo ty := by
  constructor
  · rintro ⟨k, hk, hcode⟩ hconv
    exact code_ne_invalidConversion hconv hk hcode
  · intro hconv
    rw [convert_of_not_convertibleTo hconv]
    exact ⟨_, List.mem_singleton_self _, rfl⟩

/-- **A conversion between types that convert has a value**, of the target, unless a number is
wanted and the value is not finite. What converts to a number type is a number, so a value of its
shape denotes one. -/
theorem Const.convert_isSome_iff (hv : v.ty.isNumeric → v.Shaped) (hconv : v.ty.convertibleTo ty) :
    (∃ w, ((typed v).convert ty word).1 = some w ∧ w.ty = ty) ↔
      ¬(ty.isNumeric ∧ ¬v.value.IsFinite) := by
  rcases convert_cases (typed v) ty word with
    ⟨d, hd, h⟩ | ⟨_, hval, -, hn, h⟩ | ⟨_, hval, -, hn, hnone, h⟩ | h
  · obtain ⟨-, -, n, hnum, rfl⟩ := hd
    have hfinite := TypedValue.isFinite_of_number? hnum
    rw [h]
    exact ⟨fun _ hnot => hnot.2 hfinite, fun _ => ⟨_, rfl, UntypedConst.narrow_ty _ ty word⟩⟩
  · rw [h]
    refine ⟨fun _ hnot => ?_, fun _ => ⟨_, rfl, rfl⟩⟩
    rw [hn] at hnot
    exact Bool.false_ne_true hnot.1
  · cases hval
    have hsource : v.ty.isNumeric := Ty.isNumeric_of_convertibleTo hconv hn
    have hnot : ¬v.value.IsFinite := by
      intro hfinite
      obtain ⟨n, hnum⟩ := (hv hsource).exists_number? hsource hfinite
      rw [hnone] at hnum
      cases hnum
    rw [h]
    refine ⟨?_, fun hnone => absurd ⟨hn, hnot⟩ hnone⟩
    rintro ⟨w, hw, -⟩
    cases hw
  · exact absurd hconv (h.1 v rfl)

end

/-- **Convertibility is an equivalence** among the types other than the one that every type
satisfies: types convert to each other if they are alike below their names, or both real, complex or
strings. What is assigned is converted, assignment goes both ways, and only between types that are
alike; any value is assigned and converted to the type left out. A typed constant whose number is of
the shape of its type is an invalid conversion, and has no value, exactly where the types do not
convert; else it has a value of the target, unless that is a number type and the value is not
finite. -/
theorem convertibility_is_equivalence :
    (Equivalence fun s t : {ty : Ty // ty ≠ .any} => (s : Ty).convertibleTo t) ∧
    (∀ s t : Ty, s ≠ .any → t ≠ .any →
      (s.convertibleTo t ↔ s.underlying = t.underlying ∨ (s.isReal ∧ t.isReal) ∨
        (s.category = .complex ∧ t.category = .complex) ∨
        (s.category = .string ∧ t.category = .string)) ∧
      (s.assignableTo t → s.convertibleTo t) ∧
      s.assignableTo s ∧ (s.assignableTo t → t.assignableTo s) ∧
      (s.assignableTo t → s.underlying = t.underlying)) ∧
    (∀ s : Ty, s.assignableTo .any ∧ s.convertibleTo .any) ∧
    ∀ (v : TypedValue) (ty : Ty) (word : WordSize), (v.ty.isNumeric → v.Shaped) →
      ((∃ k ∈ ((Const.typed v).convert ty word).2, k.code = .invalidConversion) ↔
        ¬v.ty.convertibleTo ty) ∧
      (¬v.ty.convertibleTo ty →
        (Const.typed v).convert ty word = (none, [.invalidConversion v.text v.ty ty])) ∧
      (v.ty.convertibleTo ty →
        ((∃ w, ((Const.typed v).convert ty word).1 = some w ∧ w.ty = ty) ↔
          ¬(ty.isNumeric ∧ ¬v.value.IsFinite))) := by
  refine ⟨Ty.convertibleTo_equivalence, ?_, ?_, ?_⟩
  · intro s t hs ht
    refine ⟨Ty.convertibleTo_iff ht, Ty.convertibleTo_of_assignableTo, Ty.assignableTo_self s,
      (Ty.assignableTo_comm hs ht).1, ?_⟩
    intro h
    exact ((Ty.assignableTo_iff ht).1 h).1
  · intro s
    have hany := Ty.assignableTo_any s
    exact ⟨hany, Ty.convertibleTo_of_assignableTo hany⟩
  · intro v ty word hv
    exact ⟨Const.convert_refuses_iff, fun hconv => Const.convert_of_not_convertibleTo hconv word,
      Const.convert_isSome_iff hv⟩

/-- A float of a name around a name converts to an integer type if it is finite, and to no string
type. -/
theorem convertibility_is_equivalence_celsius : ∃ celsius : Ty,
    celsius = .declared "Outdoors" (.named "Celsius" .float32) ∧
    celsius ≠ .any ∧ Ty.int ≠ .any ∧ celsius.convertibleTo .int ∧
    (∃ w, ((Const.typed ⟨celsius, .float (.finite (1 / 2))⟩).convert .int .bits32).1 = some w ∧
      w.ty = .int) ∧
    (¬∃ w, ((Const.typed ⟨celsius, .float (.infinity true)⟩).convert .int .bits32).1 = some w ∧
      w.ty = .int) ∧
    ∃ k ∈ ((Const.typed ⟨celsius, .float (.infinity true)⟩).convert .string .bits32).2,
      k.code = .invalidConversion := by
  obtain ⟨-, hrelations, -, hconvert⟩ := convertibility_is_equivalence
  have hclass := (hrelations (.declared "Outdoors" (.named "Celsius" .float32)) .int
    nofun nofun).1.2 (.inr (.inl ⟨rfl, rfl⟩))
  have hshaped : ∀ x, TypedValue.Shaped ⟨.declared "Outdoors" (.named "Celsius" .float32),
      .float x⟩ := fun x => ⟨x, rfl⟩
  obtain ⟨-, -, hhalf⟩ := hconvert ⟨_, .float (.finite (1 / 2))⟩ .int .bits32 fun _ => hshaped _
  obtain ⟨-, -, hlost⟩ := hconvert ⟨_, .float (.infinity true)⟩ .int .bits32 fun _ => hshaped _
  obtain ⟨hrefused, -, -⟩ := hconvert ⟨_, .float (.infinity true)⟩ .string .bits32
    fun _ => hshaped _
  refine ⟨_, rfl, nofun, nofun, hclass, (hhalf hclass).2 ?_, ?_, hrefused.2 nofun⟩
  · exact fun hnot => hnot.2 rfl
  · exact fun hsome => (hlost hclass).1 hsome ⟨rfl, nofun⟩

end ConstCheck
