import ConstCheck.Ty.Relations
import ConstCheck.Floating.Rounding
import ConstCheck.Value.Basic

/-!
# Types below their names

Width, format and category of a type are those of the basic type below its names, if there is one.

* `Ty.exists_basic`: the categories of basic types belong to basic types.
* `Ty.width`, `Ty.format`: how many bits an integer has, and which floats a float or complex type
  holds.
* `Ty.assignableTo_iff`, `Ty.convertibleTo_iff`: why a type is assigned or converts to another, any
  type being wanted aside.
-/

namespace ConstCheck

/-- The categories of the basic types. -/
def Category.isBasic : Category → Bool
  | nilable | array | package => false
  | _ => true

theorem Category.isBasic_of_isNumeric {c : Category} (h : c.isNumeric) : c.isBasic := by
  cases c <;> simp_all [isNumeric, isBasic]

theorem WordSize.bits_bounds (word : WordSize) : 1 ≤ word.bits ∧ word.bits ≤ 64 := by
  cases word <;> decide

namespace Ty

variable {ty source target : Ty} {b : BasicType} {word : WordSize}

theorem category_of_underlying (h : ty.underlying = .basic b) : ty.category = b.category := by
  rw [← category_underlying, h]; rfl

theorem basic?_of_underlying (h : ty.underlying = .basic b) : ty.basic? = some b := by
  simp [basic?, h]

/-- **A type of a basic category is basic below its names.** -/
theorem exists_basic (h : ty.category.isBasic) : ∃ b, ty.underlying = .basic b := by
  rw [← category_underlying] at h
  have hnot : ∀ name body, ty.underlying ≠ .declared name body := by
    clear h
    fun_induction underlying ty with
    | case1 _ _ ih => exact ih
    | case2 t ht => exact ht
  cases hu : ty.underlying with
  | basic b => exact ⟨b, rfl⟩
  | declared name body => exact absurd hu (hnot name body)
  | _ => simp [hu, category, Category.isBasic] at h

theorem isNumeric_of_isIntegral (h : ty.isIntegral) : ty.isNumeric := by
  unfold isIntegral at h; unfold isNumeric
  cases hc : ty.category <;> simp_all [Category.isIntegral, Category.isNumeric]

theorem isIntegral_of_signed (h : ty.category = .signed) : ty.isIntegral := by
  rw [isIntegral, h]; rfl

theorem isIntegral_of_unsigned (h : ty.category = .unsigned) : ty.isIntegral := by
  rw [isIntegral, h]; rfl

theorem isIntegral_cases (h : ty.isIntegral) : ty.category = .signed ∨ ty.category = .unsigned := by
  unfold isIntegral at h
  cases hc : ty.category <;> simp_all [Category.isIntegral]

/-- A number type is of one of four categories. -/
theorem isNumeric_cases (h : ty.isNumeric) : ty.category = .signed ∨ ty.category = .unsigned ∨
    ty.category = .float ∨ ty.category = .complex := by
  unfold isNumeric at h
  cases hc : ty.category <;> simp_all [Category.isNumeric]

/-- The real types are the number types without the complex ones. -/
theorem isReal_iff : ty.isReal ↔ ty.isNumeric ∧ ty.category ≠ .complex := by
  unfold isReal isNumeric
  cases ty.category <;> simp [Category.isReal, Category.isNumeric]

/-- The number types are the real and the complex types. -/
theorem isNumeric_iff : ty.isNumeric ↔ ty.isReal ∨ ty.category = .complex := by
  unfold isReal isNumeric
  cases ty.category <;> simp [Category.isReal, Category.isNumeric]

/-! ## Widths and formats -/

/-- Width of a type in bits; 64 where a type has no width. -/
def width (word : WordSize) (ty : Ty) : Nat := (ty.bits? word).getD 64

/-- The floats that a float type, or a part of a complex type, holds. -/
def format (ty : Ty) : Format :=
  match ty.basic? with
  | some .float32 | some .complex64 => .binary32
  | _ => .binary64

theorem width_bounds (word : WordSize) (h : ty.isIntegral) :
    1 ≤ ty.width word ∧ ty.width word ≤ 64 := by
  obtain ⟨b, hb⟩ := exists_basic (Category.isBasic_of_isNumeric (isNumeric_of_isIntegral h))
  have hw := word.bits_bounds
  have hc : b.category.isIntegral := by rw [← category_of_underlying hb]; exact h
  simp only [width, bits?, basic?_of_underlying hb, Option.bind_some]
  cases b <;> simp_all [BasicType.bits?, BasicType.category, Category.isIntegral]

/-- The width tells the format of a float type. -/
theorem format_of_float (word : WordSize) (h : ty.category = .float) :
    (if ty.width word = 32 then Format.binary32 else Format.binary64) = ty.format := by
  obtain ⟨b, hb⟩ := exists_basic (show ty.category.isBasic by rw [h]; rfl)
  have hc : b.category = .float := by rw [← category_of_underlying hb]; exact h
  simp only [width, format, bits?, basic?_of_underlying hb, Option.bind_some]
  cases b <;> simp_all [BasicType.bits?, BasicType.category]

/-- The complex types are of two widths, with parts of two formats. -/
theorem complex_cases (word : WordSize) (h : ty.category = .complex) :
    ty.width word = 64 ∧ ty.format = .binary32 ∨ ty.width word = 128 ∧ ty.format = .binary64 := by
  obtain ⟨b, hb⟩ := exists_basic (show ty.category.isBasic by rw [h]; rfl)
  have hc : b.category = .complex := by rw [← category_of_underlying hb]; exact h
  simp only [width, format, bits?, basic?_of_underlying hb, Option.bind_some]
  cases b <;> simp_all [BasicType.bits?, BasicType.category]

/-- The width tells the format of the parts of a complex type. -/
theorem format_of_complex (word : WordSize) (h : ty.category = .complex) :
    (if ty.width word = 64 then Format.binary32 else Format.binary64) = ty.format := by
  rcases complex_cases word h with ⟨hw, hf⟩ | ⟨hw, hf⟩ <;> rw [hw, hf] <;> rfl

/-! ## Relations between types -/

theorem category_of_underlying_eq (h : source.underlying = target.underlying) :
    source.category = target.category := by
  rw [← category_underlying source, h, category_underlying]

/-- A value is assigned to any type, or to one that is alike below the names. -/
theorem assignableTo_cases (h : source.assignableTo target) :
    target = any ∨ source.underlying = target.underlying := by
  simp only [assignableTo, Bool.or_eq_true, Bool.and_eq_true] at h
  rcases h with (h | h) | ⟨-, h⟩
  · exact .inr (by rw [eq_of_beq h])
  · exact .inl (eq_of_beq h)
  · exact .inr (eq_of_beq h)

/-- No basic type is the interface that every type satisfies. -/
theorem ne_any_of_isBasic (hb : ty.category.isBasic) : ty ≠ any := by
  rintro rfl
  simp [category, Category.isBasic] at hb

/-- **What is assigned to a type**: what is alike to it below the names, and is the same type or
lacks a name of its own where the other has one. -/
theorem assignableTo_iff (hany : target ≠ any) :
    source.assignableTo target ↔ source.underlying = target.underlying ∧
      (source = target ∨ ¬(source.isNamed ∧ target.isNamed)) := by
  constructor
  · intro h
    refine ⟨(assignableTo_cases h).resolve_left hany, ?_⟩
    simp only [assignableTo, Bool.or_eq_true, Bool.and_eq_true, Bool.not_eq_true'] at h
    rcases h with (h | h) | ⟨h, -⟩
    · exact .inl (eq_of_beq h)
    · exact absurd (eq_of_beq h) hany
    · refine .inr fun hboth => ?_
      simp [hboth.1, hboth.2] at h
  · rintro ⟨hu, rfl | hn⟩
    · exact assignableTo_self source
    · rw [assignableTo, hu]
      cases hs : source.isNamed <;> cases ht : target.isNamed <;> simp_all

/-- Types are assigned to each other both ways. -/
theorem assignableTo_comm (hs : source ≠ any) (ht : target ≠ any) :
    source.assignableTo target ↔ target.assignableTo source := by
  rw [assignableTo_iff ht, assignableTo_iff hs, and_comm (a := target.isNamed = true)]
  exact and_congr eq_comm (or_congr eq_comm Iff.rfl)

/-- **Why a type converts to another**: any type is wanted, the types are alike below their names,
or both are real, complex or strings. -/
theorem convertibleTo_cases (h : source.convertibleTo target) :
    target = any ∨ source.underlying = target.underlying ∨ (source.isReal ∧ target.isReal) ∨
      (source.category = .complex ∧ target.category = .complex) ∨
      (source.category = .string ∧ target.category = .string) := by
  simp only [convertibleTo, Bool.or_eq_true, Bool.and_eq_true] at h
  rcases h with (((h | h) | h) | ⟨h, h'⟩) | ⟨h, h'⟩
  · rcases assignableTo_cases h with h | h
    · exact .inl h
    · exact .inr (.inl h)
  · exact .inr (.inl (eq_of_beq h))
  · exact .inr (.inr (.inl h))
  · exact .inr (.inr (.inr (.inl ⟨eq_of_beq h, eq_of_beq h'⟩)))
  · exact .inr (.inr (.inr (.inr ⟨eq_of_beq h, eq_of_beq h'⟩)))

/-- **What converts to a type.** -/
theorem convertibleTo_iff (hany : target ≠ any) :
    source.convertibleTo target ↔ source.underlying = target.underlying ∨
      (source.isReal ∧ target.isReal) ∨
      (source.category = .complex ∧ target.category = .complex) ∨
      (source.category = .string ∧ target.category = .string) := by
  constructor
  · intro h
    exact (convertibleTo_cases h).resolve_left hany
  · rintro (h | h | h | h) <;> simp [convertibleTo, h]

@[simp]
theorem convertibleTo_self (ty : Ty) : ty.convertibleTo ty := by simp [convertibleTo]

/-- **Types convert to each other both ways.** -/
theorem convertibleTo_comm_of_ne_any (hs : source ≠ any) (ht : target ≠ any) :
    source.convertibleTo target ↔ target.convertibleTo source := by
  rw [convertibleTo_iff ht, convertibleTo_iff hs, eq_comm, and_comm (a := source.isReal = true),
    and_comm (a := source.category = .complex), and_comm (a := source.category = .string)]

/-- Basic types convert to each other both ways. -/
theorem convertibleTo_comm (hs : source.category.isBasic) (ht : target.category.isBasic) :
    source.convertibleTo target ↔ target.convertibleTo source :=
  convertibleTo_comm_of_ne_any (ne_any_of_isBasic hs) (ne_any_of_isBasic ht)

/-- What converts to a basic type that holds no numbers is of its category. -/
theorem category_of_convertibleTo (h : source.convertibleTo target) (hb : target.category.isBasic)
    (hn : target.isNumeric = false) : source.category = target.category := by
  unfold isNumeric at hn
  rcases convertibleTo_cases h with rfl | h | ⟨-, h⟩ | ⟨-, h⟩ | ⟨h, h'⟩
  · simp [category, Category.isBasic] at hb
  · exact category_of_underlying_eq h
  · unfold isReal at h
    cases hc : target.category <;> simp_all [Category.isReal, Category.isNumeric]
  · simp [h, Category.isNumeric] at hn
  · rw [h, h']

/-- What converts to a number type is a number type. -/
theorem isNumeric_of_convertibleTo (h : source.convertibleTo target) (hn : target.isNumeric) :
    source.isNumeric := by
  unfold isNumeric at hn ⊢
  rcases convertibleTo_cases h with rfl | h | ⟨h, -⟩ | ⟨h, -⟩ | ⟨-, h⟩
  · simp [category, Category.isNumeric] at hn
  · rw [category_of_underlying_eq h]; exact hn
  · unfold isReal at h
    cases hc : source.category <;> simp_all [Category.isReal, Category.isNumeric]
  · simp [h, Category.isNumeric]
  · simp [h, Category.isNumeric] at hn

end Ty

/-- The zero value of a type is that of the type below its names. -/
theorem Value.zero_underlying (ty : Ty) : Value.zero ty.underlying = Value.zero ty := by
  fun_induction Ty.underlying ty with
  | case1 name body ih => rw [ih, Value.zero]
  | case2 => rfl

end ConstCheck
