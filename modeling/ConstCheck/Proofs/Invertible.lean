import ConstCheck.Proofs.Losses
import ConstCheck.Proofs.Outcomes

/-!
# Conversions without an error can be undone

What a conversion loses it reports, and the way back starts from the same exact number. So a value
that reaches another type without an error comes back from there, whatever family and width the
other type is of. Complex types report nothing, and lose nothing only where they are as wide.

* `Const.convert_of_number?`: a value that denotes a number is narrowed from that number.
* `Ty.representable_of_width_le`: a complex type has the parts of the narrower ones.
* `TypedValue.convert_denotes`, `TypedValue.convert_back`: **a conversion without an error keeps the
  number**, and the number alone leads back.
* `convert_invertible` (every word, number type and finite value): **the way there and back**.
-/

namespace ConstCheck

/-- **A complex type has the parts of the complex types that are no wider.** -/
theorem Ty.representable_of_width_le {source target : Ty} {word : WordSize} {q : ℚ}
    (hs : source.category = .complex) (ht : target.category = .complex)
    (hle : source.width word ≤ target.width word) (h : source.format.Representable q) :
    target.format.Representable q := by
  rcases complex_cases word hs with ⟨hsw, hsf⟩ | ⟨hsw, hsf⟩ <;>
    rcases complex_cases word ht with ⟨htw, htf⟩ | ⟨htw, htf⟩
  · rwa [htf, ← hsf]
  · rw [hsf] at h
    rw [htf]
    exact h.widen (by decide) (by decide) (by decide)
  · omega
  · rwa [htf, ← hsf]

section

variable {v v' : TypedValue} {ty : Ty} {word : WordSize} {n : Number}

/-- A value that denotes a number is narrowed from that number. -/
theorem Const.convert_of_number? (hconv : v.ty.convertibleTo ty) (hty : ty.isNumeric)
    (hn : v.number? = some n) :
    (typed v).convert ty word = (some (n.narrow ty word).1, (n.narrow ty word).2) := by
  simp [convert, hconv, hty, hn]

/-- **A value is found again from any value of the same number**, in a type that converts. -/
theorem TypedValue.convert_back (hv : v.Fits word) (hnum : v.ty.isNumeric) (hn : v.Denotes n)
    (hconv : v'.ty.convertibleTo v.ty) (hn' : v'.Denotes n) :
    ∃ w, (Const.typed v').convert v.ty word = (some w, []) ∧ w.ty = v.ty ∧
      w.value.same v.value := by
  obtain ⟨m, hm, hre, him⟩ := hn
  obtain ⟨m', hm', hre', him'⟩ := hn'
  -- the two numbers differ in the kind at most
  have hdenotes : v.Denotes m' := ⟨m, hm, hre.trans hre'.symm, him.trans him'.symm⟩
  obtain ⟨w, hw, hty, hsame⟩ := Number.narrow_of_value hnum hv hdenotes
  exact ⟨w, by rw [Const.convert_of_number? hconv hnum hm', hw], hty, hsame⟩

/-- **A conversion without an error keeps the number**, to the real types and to complex types that
are as wide. -/
theorem TypedValue.convert_denotes (hv : v.Fits word) (hn : v.number? = some n)
    (hconv : v.ty.convertibleTo ty)
    (hty : ty.isReal ∨ ty.category = .complex ∧ v.ty.width word ≤ ty.width word)
    (h : (Const.typed v).convert ty word = (some v', [])) :
    v'.ty = ty ∧ v'.Fits word ∧ v'.Denotes n := by
  have hnum : ty.isNumeric := Ty.isNumeric_iff.2 (hty.imp_right And.left)
  rw [Const.convert_of_number? hconv hnum hn] at h
  obtain ⟨hvalue, herrors⟩ := Prod.mk.inj h
  rw [Option.some.injEq] at hvalue
  subst hvalue
  refine ⟨n.narrow_ty ty word, n.narrow_fits ty word, ?_⟩
  rcases hty with hreal | ⟨hc, hle⟩
  · exact ⟨_, (Number.narrow_exact hnum (Ty.isReal_iff.1 hreal).2 herrors).2, rfl, rfl⟩
  · -- only complex types convert to complex types
    have hsource : v.ty.category = .complex := by
      have hany : ty ≠ .any := Ty.ne_any_of_isBasic (Category.isBasic_of_isNumeric hnum)
      rcases (Ty.convertibleTo_iff hany).1 hconv with
        hu | ⟨-, hr⟩ | ⟨hs, -⟩ | ⟨-, hs⟩
      · rw [Ty.category_of_underlying_eq hu, hc]
      · exact absurd hc (Ty.isReal_iff.1 hr).2
      · exact hs
      · rw [hc] at hs; cases hs
    have hself : v.Denotes n := ⟨n, hn, rfl, rfl⟩
    obtain ⟨-, -, -, -, -, hre, him⟩ := hself.complex hv hsource
    rw [Number.narrow_of_complex hc,
      Format.round_representable ty.sane_format (Ty.representable_of_width_le hsource hc hle hre),
      Format.round_representable ty.sane_format (Ty.representable_of_width_le hsource hc hle him)]
    exact ⟨_, rfl, rfl, rfl⟩

/-- **A conversion without an error can be undone.** A value of a number type that denotes a number
converts to its own type as itself. Converted without an error to an integer or float type, or to a
complex type that is as wide, it denotes the same number there, and converted back it is the same
value again, without an error; only the sign of a zero may differ. -/
theorem convert_invertible (hnum : v.ty.isNumeric) (hv : v.Fits word) (hn : v.number? = some n) :
    (∃ w, (Const.typed v).convert v.ty word = (some w, []) ∧ w.ty = v.ty ∧
      w.value.same v.value) ∧
    ∀ ty v', v.ty.convertibleTo ty →
      ty.isReal ∨ ty.category = .complex ∧ v.ty.width word ≤ ty.width word →
      (Const.typed v).convert ty word = (some v', []) →
      v'.ty = ty ∧ v'.Denotes n ∧
        ∃ w, (Const.typed v').convert v.ty word = (some w, []) ∧ w.ty = v.ty ∧
          w.value.same v.value := by
  have hself : v.Denotes n := ⟨n, hn, rfl, rfl⟩
  refine ⟨TypedValue.convert_back hv hnum hself (Ty.convertibleTo_self v.ty) hself, ?_⟩
  intro ty v' hconv hty h
  obtain ⟨hty', hv', hn'⟩ := TypedValue.convert_denotes hv hn hconv hty h
  have hback : ty.convertibleTo v.ty :=
    (Ty.convertibleTo_comm (Category.isBasic_of_isNumeric hnum)
      (Category.isBasic_of_isNumeric (Ty.isNumeric_iff.2 (hty.imp_right And.left)))).1 hconv
  exact ⟨hty', hn', TypedValue.convert_back hv hnum hself (by rw [hty']; exact hback) hn'⟩

/-- A large `int64` comes back from `float32`, which rounds most integers of that size. -/
theorem convert_invertible_power : ∃ v' w,
    (Const.typed ⟨.basic .int64, .int (2 ^ 62)⟩).convert .float32 .bits64 = (some v', []) ∧
    v'.Denotes (.ofInt (2 ^ 62)) ∧
    (Const.typed v').convert (.basic .int64) .bits64 = (some w, []) ∧
    w.ty = .basic .int64 ∧ w.value.same (.int (2 ^ 62)) := by
  have hnil : ((Number.ofInt (2 ^ 62)).narrow .float32 .bits64).2 = [] :=
    List.isEmpty_iff.1 (by decide +kernel)
  have hthere : (Const.typed ⟨.basic .int64, .int (2 ^ 62)⟩).convert .float32 .bits64 =
      (some ((Number.ofInt (2 ^ 62)).narrow .float32 .bits64).1, []) := by
    rw [Const.convert_of_number? rfl rfl rfl, hnil]
  obtain ⟨-, hconvert⟩ := @convert_invertible ⟨.basic .int64, .int (2 ^ 62)⟩ .bits64 _
    rfl ⟨2 ^ 62, rfl, by decide, by decide⟩ rfl
  obtain ⟨-, hdenotes, w, hback, hty, hsame⟩ := hconvert _ _ rfl (.inl rfl) hthere
  exact ⟨_, w, hthere, hdenotes, hback, hty, hsame⟩

end

end ConstCheck
