import ConstCheck.Proofs.Constants
import ConstCheck.Proofs.Reach
import ConstCheck.Proofs.Reports

/-!
# Internal errors

An internal error says that the checker came to a state that it should not come to. One source of
it is left for the caller: a number of no expression. In a fold it is shut off by the shape of the
constants, which every source of constants keeps; in a call of a builtin, by the look-up of the name
when the callee was checked.

* `Context.keepsConstants_shaped`: constants are of the shape of their types.
* `Arena.internal_iff_reaches` (every arena and environment of constants of their shape): **there is
  an internal error if and only if a number of no expression is reached**.
* `no_internal_error`: none, where all numbers that are reached are valid.
-/

namespace ConstCheck

section

variable {word : WordSize} {c : Const}

theorem Const.Fits.shaped (h : c.Fits word) : c.Shaped := by
  cases c with
  | untyped u => trivial
  | typed v => exact TypedValue.Fits.shaped h

/-- **A conversion yields a value of the shape of its type.** -/
theorem Const.convert_shaped {ty : Ty} {v : TypedValue} (hc : c.Shaped)
    (h : (c.convert ty word).1 = some v) : v.Shaped := by
  rcases c.convert_cases ty word with
    ⟨d, -, he⟩ | ⟨t, rfl, hconv, hn, he⟩ | ⟨t, -, -, -, -, he⟩ | ⟨-, he, -⟩
  · rw [he, Option.some.injEq] at h
    rw [← h]; exact (d.narrow_fits ty word).shaped
  · rw [he, Option.some.injEq] at h
    rw [← h]
    -- a value keeps its shape under another name of its basic type
    by_cases hb : ty.category.isBasic
    · exact TypedValue.Shaped.retag hc (Ty.category_of_convertibleTo hconv hb hn)
    · have hfits : TypedValue.Fits word ⟨ty, t.value⟩ :=
        TypedValue.fits_of_not_isBasic (by simpa using hb)
      exact hfits.shaped
  · simp [he] at h
  · simp [he] at h

end

section

variable {ctx : Context}
  (henv : ∀ name v, ctx.env.const? name = some (.typed v) → v.Shaped)

include henv

/-- **Constants are of the shape of their types**, if the named ones are. -/
theorem Context.keepsConstants_shaped : ctx.KeepsConstants Const.Shaped where
  literal _ _ := trivial
  string _ := trivial
  bool _ := trivial
  nil := trivial
  named name c h := by
    cases c with
    | untyped u => trivial
    | typed v => exact henv name v h
  fold a b c op place _ _ h := (Const.fold_fits h).shaped
  convert c ty v hc h := Const.convert_shaped hc h
  builtin c h := by
    cases h with
    | parts | part => trivial
    | typed h => exact h

/-- **An expression has an internal error if and only if an expression in it is missing.** -/
theorem Tree.internal_iff {t : Tree} :
    (∃ e ∈ (t.check ctx).errors, e.kind = .internal) ↔ SubOf .missing t := by
  constructor
  · rintro ⟨e, he, hk⟩
    cases Tree.causes_of_mem_errors he with
    | report h => exact absurd hk (ErrorKind.isReport_iff.1 h).1
    | missing _ hs => exact hs
    | fold hs ha hb he =>
      rcases Const.fold_errors he with h | ⟨hfault, -⟩ | ⟨-, hnot⟩
      · exact absurd hk (ErrorKind.isReport_iff.1 h).1
      · rw [hk] at hfault
        cases hfault
      · have hshaped := Context.keepsConstants_shaped henv
        exact absurd ⟨hshaped.of_check ha, hshaped.of_check hb⟩ hnot
  · intro h
    exact ⟨⟨.none, .internal⟩, errors_subset h (List.mem_singleton_self _), rfl⟩

/-- **There is an internal error if and only if a number of no expression is reached.** -/
theorem Arena.internal_iff_reaches {a : Arena} {root : ExprId} {r : Checked}
    (h : a.check? ctx root = some r) :
    (∃ e ∈ r.errors, e.kind = .internal) ↔ ∃ id, a.Reaches root id ∧ a.get? id = none := by
  obtain ⟨t, ht, rfl⟩ := exists_tree?_of_check? h
  rw [Tree.internal_iff henv, missing_subOf_iff ht]

/-- **No internal error comes of an expression**, where all numbers that the root reaches are of
expressions, and the typed named constants are of the shape of their types.

A missing expression is the one source that the arena has; the operands of a fold are of the shape
of their types; and the name of a builtin that is called was looked up before, in the same table. -/
theorem no_internal_error {a : Arena} {root : ExprId} {r : Checked}
    (hvalid : ∀ id, a.Reaches root id → (a.get? id).isSome) (h : a.check? ctx root = some r) :
    ∀ e ∈ r.errors, e.code ≠ .internal := by
  intro e he hcode
  have hkind : e.kind = .internal := ErrorKind.code_eq_internal_iff.1 hcode
  obtain ⟨id, hreach, hnone⟩ := (Arena.internal_iff_reaches henv h).1 ⟨e, he, hkind⟩
  have hsome := hvalid id hreach
  rw [hnone] at hsome
  cases hsome

omit henv in
/-- A string of a declared type less a string: the operator is not defined, and that is all. -/
theorem no_internal_error_strings : ∃ ctx r,
    (Arena.operation .sub).check? ctx ⟨2⟩ = some r ∧
    r.errors.map CheckError.code = [.undefinedOperation] ∧
    ∀ e ∈ r.errors, e.code ≠ .internal := by
  let ctx : Context := .ofConsts .bits64
    [("title", ⟨.named "Title" (.basic .string), .str "ab"⟩),
      ("letter", ⟨.basic .string, .str "b"⟩)]
  have henv : ∀ name v, ctx.env.const? name = some (.typed v) → v.Shaped := by
    intro name v h
    obtain ⟨w, hw, heq⟩ := Context.mem_of_const?_ofConsts h
    cases heq
    simp only [List.map_cons, List.map_nil, List.mem_cons, List.not_mem_nil, or_false] at hw
    rcases hw with rfl | rfl
    · exact ⟨"ab", rfl⟩
    · exact ⟨"b", rfl⟩
  have hvalid : ∀ id, (Arena.operation .sub).Reaches ⟨2⟩ id →
      ((Arena.operation .sub).get? id).isSome := by
    intro id hid
    by_contra hnone
    have hmissing := (Arena.missing_subOf_iff (Arena.tree?_operation .sub)).2
      ⟨id, hid, Option.not_isSome_iff_eq_none.1 hnone⟩
    cases hmissing with
    | left h => cases h
    | right h => cases h
  have hr : (Arena.operation .sub).check? ctx ⟨2⟩ = some ((Tree.operation .sub).check ctx) :=
    Arena.check?_of_tree? (Arena.tree?_operation .sub)
  exact ⟨ctx, _, hr, by decide +kernel, no_internal_error henv hvalid hr⟩

end

end ConstCheck
