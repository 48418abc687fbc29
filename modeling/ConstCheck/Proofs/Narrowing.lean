import Mathlib.Data.Rat.Lemmas
import Mathlib.Tactic.Positivity
import ConstCheck.Check.Conversion
import ConstCheck.Proofs.Rounding
import ConstCheck.Proofs.Types
import ConstCheck.Proofs.Words

/-!
# Narrowed numbers

What narrowing an exact number to a type yields, per category of the type, and when nothing is
lost on the way.

* `Number.narrow_of_signed` and its like: narrowing, category by category.
* `Number.toSigned_eq_toInt`, `Number.toUnsigned_eq_toNat` (every width): **wrapping reads the word
  of the truncated number**, so wrapped values are in range.
* `Number.toSigned_value_eq_iff`, `Number.toUnsigned_value_eq_iff`: what overflows.
* `Number.narrow_exact`: **a number narrowed without an error is the same number**, in every real
  type.
-/

namespace ConstCheck

open Number (ofInt ofRat)

/-! ## Integers -/

theorem two_pow_pred {w : ℕ} (h : 1 ≤ w) : (2 : ℤ) ^ w = 2 * 2 ^ (w - 1) := by
  rw [← pow_succ', Nat.sub_add_cancel h]

theorem clampWidth_bounds (bits : ℕ) : 1 ≤ clampWidth bits ∧ clampWidth bits ≤ 64 := by
  simp only [clampWidth]; omega

theorem clampWidth_eq {w : ℕ} (h : 1 ≤ w ∧ w ≤ 64) : clampWidth w = w := by
  simp only [clampWidth]; omega

theorem modulus_eq (bits : ℕ) : (modulus bits : ℤ) = 2 ^ clampWidth bits := by
  simp [modulus]

theorem halfModulus_eq (bits : ℕ) : (halfModulus bits : ℤ) = 2 ^ (clampWidth bits - 1) := by
  simp [halfModulus]

namespace Number

variable {n : Number} {ty : Ty} {word : WordSize}

theorem lowDigits_eq (n : Number) (bits : ℕ) :
    n.lowDigits bits = (BitVec.ofInt (clampWidth bits) n.truncated).toNat := by
  rw [lowDigits, modulus_eq, Bits.and_two_pow_sub_one]

theorem signedDigits_eq (n : Number) (bits : ℕ) :
    n.signedDigits bits = (BitVec.ofInt (clampWidth bits) n.truncated).toInt := by
  have hpow := two_pow_pred (clampWidth_bounds bits).1
  have hcast : ((2 ^ clampWidth bits : ℕ) : ℤ) = 2 ^ clampWidth bits := by simp
  rw [signedDigits, lowDigits_eq, halfModulus_eq, modulus_eq, BitVec.toInt_eq_toNat_cond]
  split <;> split <;> omega

/-- Every signed integer of a width is one of the greatest width. -/
theorem int64?_signedDigits (n : Number) (bits : ℕ) :
    int64? (n.signedDigits bits) = some (n.signedDigits bits) := by
  obtain ⟨hpos, hle⟩ := clampWidth_bounds bits
  have hpow : (2 : ℤ) ^ (clampWidth bits - 1) ≤ 2 ^ 63 :=
    pow_le_pow_right₀ (by norm_num) (by omega)
  have h1 := BitVec.le_toInt (BitVec.ofInt (clampWidth bits) n.truncated)
  have h2 := BitVec.toInt_lt (x := BitVec.ofInt (clampWidth bits) n.truncated)
  rw [← signedDigits_eq] at h1 h2
  have h64 : (halfModulus 64 : ℤ) = 2 ^ 63 := rfl
  rw [int64?, h64, if_pos (by omega)]

/-- Every unsigned integer of a width is one of the greatest width. -/
theorem uint64?_lowDigits (n : Number) (bits : ℕ) :
    uint64? (n.lowDigits bits) = some (BitVec.ofInt (clampWidth bits) n.truncated).toNat := by
  have hpow : 2 ^ clampWidth bits ≤ 2 ^ 64 :=
    Nat.pow_le_pow_right two_pos (clampWidth_bounds bits).2
  have hlt := (BitVec.ofInt (clampWidth bits) n.truncated).isLt
  have h64 : (modulus 64 : ℤ) = (2 ^ 64 : ℕ) := rfl
  rw [lowDigits_eq, uint64?, h64, if_pos (by omega), Int.toNat_natCast]

/-- **A signed value is the word of the truncated number**, read as signed. -/
theorem toSigned_eq_toInt (n : Number) (bits : ℕ) :
    (n.toSigned bits).value = (BitVec.ofInt (clampWidth bits) n.truncated).toInt := by
  rw [← signedDigits_eq]
  simp [toSigned, int64?_signedDigits]

/-- **An unsigned value is the word of the truncated number.** -/
theorem toUnsigned_eq_toNat (n : Number) (bits : ℕ) :
    (n.toUnsigned bits).value = (BitVec.ofInt (clampWidth bits) n.truncated).toNat := by
  simp [toUnsigned, uint64?_lowDigits]

theorem toSigned_value {w : ℕ} (h : 1 ≤ w ∧ w ≤ 64) (n : Number) :
    (n.toSigned w).value = n.truncated.bmod (2 ^ w) := by
  rw [toSigned_eq_toInt, clampWidth_eq h, BitVec.toInt_ofInt]

theorem toUnsigned_value {w : ℕ} (h : 1 ≤ w ∧ w ≤ 64) (n : Number) :
    ((n.toUnsigned w).value : ℤ) = n.truncated % 2 ^ w := by
  have hpos : (0 : ℤ) < 2 ^ w := by positivity
  rw [toUnsigned_eq_toNat, clampWidth_eq h, BitVec.toNat_ofInt, Nat.cast_pow, Nat.cast_ofNat]
  exact Int.toNat_of_nonneg (Int.emod_nonneg _ hpos.ne')

/-- **A signed value is in the range of its width.** -/
theorem toSigned_inWord (n : Number) (bits : ℕ) :
    InWord true (clampWidth bits) (n.toSigned bits).value := by
  rw [toSigned_eq_toInt]
  exact ⟨BitVec.le_toInt _, BitVec.toInt_lt⟩

/-- **An unsigned value is in the range of its width.** -/
theorem toUnsigned_inWord (n : Number) (bits : ℕ) :
    InWord false (clampWidth bits) (n.toUnsigned bits).value := by
  rw [toUnsigned_eq_toNat]
  exact inWord_natCast (BitVec.isLt _)

theorem toSigned_bounds {w : ℕ} (h : 1 ≤ w ∧ w ≤ 64) (n : Number) :
    -2 ^ (w - 1) ≤ (n.toSigned w).value ∧ (n.toSigned w).value < 2 ^ (w - 1) := by
  have hin := toSigned_inWord n w
  rwa [clampWidth_eq h] at hin

theorem toUnsigned_lt {w : ℕ} (h : 1 ≤ w ∧ w ≤ 64) (n : Number) :
    (n.toUnsigned w).value < 2 ^ w := by
  have hlt := (toUnsigned_inWord n w).2
  rw [clampWidth_eq h] at hlt
  exact_mod_cast hlt

/-- A signed value overflows where the truncated number is out of range. -/
theorem overflowed_toSigned_iff (n : Number) (bits : ℕ) :
    (n.toSigned bits).overflowed = false ↔ InWord true (clampWidth bits) n.truncated := by
  simp only [toSigned, halfModulus_eq, Bool.or_eq_false_iff, decide_eq_false_iff_not, not_lt,
    not_le]
  rfl

/-- An unsigned value overflows where the truncated number is out of range. -/
theorem overflowed_toUnsigned_iff (n : Number) (bits : ℕ) :
    (n.toUnsigned bits).overflowed = false ↔ InWord false (clampWidth bits) n.truncated := by
  simp only [toUnsigned, modulus_eq, Bool.or_eq_false_iff, decide_eq_false_iff_not, not_lt,
    not_le]
  rfl

/-- **What does not overflow is not wrapped**, and what overflows is. -/
theorem toSigned_value_eq_iff (n : Number) (bits : ℕ) :
    (n.toSigned bits).value = n.truncated ↔ (n.toSigned bits).overflowed = false := by
  rw [overflowed_toSigned_iff]
  constructor
  · intro hv
    rw [← hv]
    exact toSigned_inWord n bits
  · intro hin
    rw [toSigned_eq_toInt]
    exact toInt_of_inWord (clampWidth_bounds bits).1 hin

/-- The same of unsigned values. -/
theorem toUnsigned_value_eq_iff (n : Number) (bits : ℕ) :
    ((n.toUnsigned bits).value : ℤ) = n.truncated ↔ (n.toUnsigned bits).overflowed = false := by
  rw [overflowed_toUnsigned_iff]
  constructor
  · intro hv
    rw [← hv]
    exact toUnsigned_inWord n bits
  · intro hin
    obtain ⟨m, hm, hlt⟩ := exists_nat_of_inWord hin
    rw [toUnsigned_eq_toNat, hm, BitVec.ofInt_natCast, BitVec.toNat_ofNat, Nat.mod_eq_of_lt hlt]

theorem isWhole_iff : n.isWhole ↔ n.im = 0 ∧ n.re.den = 1 := by
  simp [isWhole]

/-- A whole number is its truncated part. -/
theorem truncated_of_isWhole (h : n.isWhole) : (n.truncated : ℚ) = n.re := by
  obtain ⟨-, hd⟩ := isWhole_iff.1 h
  rw [truncated, hd, Nat.cast_one, Int.tdiv_one]
  exact Rat.coe_int_num_of_den_eq_one hd

/-! ## Narrowing by category -/

theorem narrow_of_signed (h : ty.category = .signed) (n : Number) (word : WordSize) :
    n.narrow ty word = (⟨ty, .int (n.toSigned (ty.width word)).value⟩,
      (n.toSigned (ty.width word)).losses n .int ty) := by
  simp only [narrow, h]; rfl

theorem narrow_of_unsigned (h : ty.category = .unsigned) (n : Number) (word : WordSize) :
    n.narrow ty word = (⟨ty, .uint (n.toUnsigned (ty.width word)).value⟩,
      (n.toUnsigned (ty.width word)).losses n .int ty) := by
  simp only [narrow, h]; rfl

theorem narrow_of_float (h : ty.category = .float) (n : Number) (word : WordSize) :
    n.narrow ty word = (⟨ty, .float (n.toFloat ty.format).value⟩,
      (n.toFloat ty.format).losses n .float ty) := by
  simp only [narrow, h]
  rw [← Ty.format_of_float word h]; rfl

theorem narrow_of_complex (h : ty.category = .complex) (n : Number) (word : WordSize) :
    n.narrow ty word = (⟨ty, .complex (ty.format.round n.re) (ty.format.round n.im)⟩, []) := by
  simp only [narrow, h]
  rw [← Ty.format_of_complex word h]; rfl

theorem narrow_of_not_isNumeric (h : ty.isNumeric = false) (n : Number) (word : WordSize) :
    n.narrow ty word = (.zero ty, [.badConversion (.number n) (.ty ty)]) := by
  unfold Ty.isNumeric at h
  cases hc : ty.category <;> simp_all [narrow, Category.isNumeric]

@[simp]
theorem narrow_ty (n : Number) (ty : Ty) (word : WordSize) : (n.narrow ty word).1.ty = ty := by
  unfold narrow
  simp only
  split <;> rfl

/-- The losses of a narrowed number are of two causes. -/
theorem eq_of_mem_losses {α : Type} {r : Narrowed α} {kind : NumKind} {k : ErrorKind}
    (h : k ∈ r.losses n kind ty) : k = .truncated n kind ∨ k = .overflowed n ty := by
  simp only [Narrowed.losses, List.mem_append, List.mem_ite_nil_right, List.mem_singleton] at h
  exact h.imp And.right And.right

/-! ## Narrowing without loss -/

/-- The losses in terms of what decides the two flags. -/
theorem losses_eq {α : Type} {r : Narrowed α} {kind : NumKind} {P Q : Prop} [Decidable P]
    [Decidable Q] (ht : r.truncated = false ↔ P) (ho : r.overflowed = false ↔ Q) :
    r.losses n kind ty =
      (if P then [] else [.truncated n kind]) ++ (if Q then [] else [.overflowed n ty]) := by
  rw [← if_congr ht rfl rfl, ← if_congr ho rfl rfl, Narrowed.losses]
  cases r.truncated <;> cases r.overflowed <;> rfl

theorem losses_eq_nil {α : Type} {r : Narrowed α} {kind : NumKind} :
    r.losses n kind ty = [] ↔ r.truncated = false ∧ r.overflowed = false := by
  cases ht : r.truncated <;> cases ho : r.overflowed <;> simp [Narrowed.losses, ht, ho]

theorem toSigned_exact {w : ℕ} (ht : (n.toSigned w).truncated = false)
    (ho : (n.toSigned w).overflowed = false) :
    n.im = 0 ∧ ((n.toSigned w).value : ℚ) = n.re := by
  have hw : n.isWhole := by simpa [toSigned] using ht
  have hv := (toSigned_value_eq_iff n w).2 ho
  exact ⟨(isWhole_iff.1 hw).1, by rw [hv, truncated_of_isWhole hw]⟩

theorem toUnsigned_exact {w : ℕ} (ht : (n.toUnsigned w).truncated = false)
    (ho : (n.toUnsigned w).overflowed = false) :
    n.im = 0 ∧ ((n.toUnsigned w).value : ℚ) = n.re := by
  have hw : n.isWhole := by simpa [toUnsigned] using ht
  have hv := (toUnsigned_value_eq_iff n w).2 ho
  refine ⟨(isWhole_iff.1 hw).1, ?_⟩
  rw [← truncated_of_isWhole hw, ← hv]; simp

theorem toFloat_exact {fmt : Format} (ht : (n.toFloat fmt).truncated = false)
    (ho : (n.toFloat fmt).overflowed = false) :
    n.im = 0 ∧ (n.toFloat fmt).value.toRat? = some n.re := by
  have ho' : (fmt.round n.re).isInfinite = false := ho
  simp only [toFloat, ho', Bool.not_false, Bool.true_and, Bool.or_eq_false_iff,
    bne_eq_false_iff_eq, Bool.not_eq_false'] at ht
  exact ⟨by simpa [isRealValued] using ht.2, ht.1⟩

end Number

/-- **Where the kind converts, narrowing reports losses alone**, and only numbers have any. -/
theorem UntypedConst.losses_of_mem_narrow {c : UntypedConst} {ty : Ty} {word : WordSize}
    {k : ErrorKind} (hconv : c.kind.convertsTo ty) (h : k ∈ (c.narrow ty word).2) :
    ∃ n, c = .number n ∧ ((∃ kind, k = .truncated n kind) ∨ k = .overflowed n ty) := by
  cases c with
  | number n =>
    refine ⟨n, rfl, ?_⟩
    rw [narrow] at h
    rcases Ty.isNumeric_cases hconv with hc | hc | hc | hc
    · rw [Number.narrow_of_signed hc] at h
      exact (Number.eq_of_mem_losses h).imp_left fun h => ⟨_, h⟩
    · rw [Number.narrow_of_unsigned hc] at h
      exact (Number.eq_of_mem_losses h).imp_left fun h => ⟨_, h⟩
    · rw [Number.narrow_of_float hc] at h
      exact (Number.eq_of_mem_losses h).imp_left fun h => ⟨_, h⟩
    · rw [Number.narrow_of_complex hc] at h
      exact absurd h List.not_mem_nil
  | string s =>
    have hc : ty.category = .string := eq_of_beq hconv
    simp [narrow, hc] at h
  | bool b =>
    have hc : ty.category = .bool := eq_of_beq hconv
    simp [narrow, hc] at h
  | nil =>
    have hc : ty.isNilable = true := hconv
    simp [narrow, hc] at h

/-- The kind of the numbers that the values of a type denote. -/
def Ty.numKind (ty : Ty) : NumKind :=
  match ty.category with
  | .float => .float
  | .complex => .complex
  | _ => .int

/-- **A number narrowed to a real type without an error is the same number.** -/
theorem Number.narrow_exact {n : Number} {ty : Ty} {word : WordSize} (hn : ty.isNumeric)
    (hc : ty.category ≠ .complex) (h : (n.narrow ty word).2 = []) :
    n.im = 0 ∧ (n.narrow ty word).1.number? = some ⟨n.re, n.im, ty.numKind⟩ := by
  rcases Ty.isNumeric_cases hn with hs | hu | hf | hx
  · rw [narrow_of_signed hs] at h ⊢
    obtain ⟨ht, ho⟩ := losses_eq_nil.1 h
    obtain ⟨him, hre⟩ := toSigned_exact ht ho
    exact ⟨him, by simp [TypedValue.number?, ofInt, Ty.numKind, hs, him, hre]⟩
  · rw [narrow_of_unsigned hu] at h ⊢
    obtain ⟨ht, ho⟩ := losses_eq_nil.1 h
    obtain ⟨him, hre⟩ := toUnsigned_exact ht ho
    exact ⟨him, by simp [TypedValue.number?, ofInt, Ty.numKind, hu, him, hre]⟩
  · rw [narrow_of_float hf] at h ⊢
    obtain ⟨ht, ho⟩ := losses_eq_nil.1 h
    obtain ⟨him, hre⟩ := toFloat_exact ht ho
    exact ⟨him, by simp [TypedValue.number?, ofFloat?, ofRat, Ty.numKind, hf, him, hre]⟩
  · exact absurd hx hc

end ConstCheck
