import ConstCheck.Proofs.Fits
import ConstCheck.Proofs.WellKinded

/-!
# Invariants of the constants in an expression

Constants come from literals and names, from folds, from conversions, and from the builtins that
are folded. What each source keeps holds of the constant of every node.

* `Builtin.call_yields`: what a folded builtin yields, whatever its arguments are.
* `Context.KeepsConstants`: a property of constants that every source keeps.
* `Context.KeepsConstants.of_partOf` (every expression): **it holds of the constant of every node**.
-/

namespace ConstCheck

/-! ## What builtins yield -/

namespace Builtin

variable {word : WordSize} {args : List Arg} {c : Const}

/-- What a folded builtin yields: a complex number or a part of a number, exactly, or a value of a
basic type. -/
inductive Yields : Const → Prop
  | parts (re im : ℚ) : Yields (.number (.ofParts re im))
  | part (q : ℚ) : Yields (.number (.ofRat q))
  | typed {v : TypedValue} (h : v.Shaped) : Yields (.typed v)

theorem complexOf?_shaped {a b : Const} {v : TypedValue} (h : complexOf? word a b = some v) :
    v.Shaped := by
  obtain ⟨t, part, x, y, hpart, -, -, rfl⟩ := complexOf?_eq_some h
  obtain ⟨t', f, hu, -, hcomplex, -⟩ := partType?_format hpart
  cases hu
  simp only [TypedValue.Shaped, Ty.category, hcomplex]
  exact ⟨x, y, rfl⟩

theorem partType?_shaped {ty part : Ty} (h : partType? ty = some part) (x : FloatValue) :
    TypedValue.Shaped ⟨part, .float x⟩ := by
  obtain ⟨t, f, -, rfl, -, hfloat, -⟩ := partType?_format h
  simp only [TypedValue.Shaped, Ty.category, hfloat]
  exact ⟨x, rfl⟩

theorem complexCall_yields (h : complexCall word args = .ok c) : Yields c := by
  obtain ⟨re, im, -, ⟨r, i, -, -, rfl⟩ | ⟨r, i, v, -, -, -, hv, rfl⟩⟩ := complexCall_cases h
  · exact .parts _ _
  · exact .typed (complexOf?_shaped hv)

theorem partCall_yields {b : Builtin} {exact : Number → Number}
    {pick : FloatValue × FloatValue → FloatValue} (hexact : ∀ n, ∃ q, exact n = .ofRat q)
    (h : partCall b exact pick args = .ok c) : Yields c := by
  obtain ⟨a, -, ⟨n, -, rfl⟩ | ⟨v, part, parts, -, hpart, -, rfl⟩⟩ := partCall_cases h
  · obtain ⟨q, hq⟩ := hexact n
    rw [hq]
    exact .part q
  · exact .typed (partType?_shaped hpart _)

/-- **What a folded builtin yields**, whatever its arguments are. -/
theorem call_yields {b : Builtin} {store s : Store} (hb : b.isFoldable)
    (h : b.call word store args = .ok (c, s)) : Yields c := by
  have length : ∀ n, Yields (lengthConst n) := fun n => .typed ⟨_, rfl⟩
  cases b with
  | complex => exact complexCall_yields (eq_ok_of_map h)
  | real => exact partCall_yields (fun n => ⟨n.re, rfl⟩) (eq_ok_of_map h)
  | imag => exact partCall_yields (fun n => ⟨n.im, rfl⟩) (eq_ok_of_map h)
  | len =>
    obtain ⟨a, n, -, rfl, -⟩ := lenCall_cases (eq_ok_of_map h)
    exact length n
  | cap =>
    obtain ⟨a, v, n, -, -, -, rfl⟩ := capCall_cases (eq_ok_of_map h)
    exact length n
  | append | new | panic => cases hb

end Builtin

/-! ## The sources of constants -/

/-- A property of constants that every source of them keeps. -/
structure Context.KeepsConstants (ctx : Context) (P : Const → Prop) : Prop where
  literal : ∀ n : Number, n.WellKinded → P (.number n)
  string : ∀ s, P (.untyped (.string s))
  bool : ∀ b, P (.untyped (.bool b))
  nil : P (.untyped .nil)
  named : ∀ name c, ctx.env.const? name = some c → P c
  fold : ∀ a b c op place, P a → P b → (a.fold op b ctx.word place).value = some c → P c
  convert : ∀ c ty v, P c → (c.convert ty ctx.word).1 = some v → P (.typed v)
  builtin : ∀ c, Builtin.Yields c → P c

namespace Context.KeepsConstants

variable {ctx : Context} {P : Const → Prop}

theorem leaf (h : ctx.KeepsConstants P) {l : Leaf} {span : Span} {c : Const}
    (hc : (ctx.checkLeaf l span).node.constant? = some c) : P c := by
  have hleaf := ctx.checkLeaf_result l span
  generalize ctx.checkLeaf l span = r at hleaf hc
  cases hleaf with
  | number hparse => cases hc; exact h.literal _ (Literal.wellKinded hparse)
  -- a malformed literal counts as zero
  | malformed | rune => cases hc; exact h.literal _ (Number.wellKinded_of_isWhole rfl)
  | string => cases hc; exact h.string _
  | const hres =>
    cases hc
    rcases resolve?_const hres with rfl | hnamed | ⟨b, rfl⟩
    · exact h.nil
    · exact h.named _ c hnamed
    · exact h.bool b
  | reading | builtin | type | undefined => cases hc

theorem call (h : ctx.KeepsConstants P) {f : Node} {args : List Node} {span : Span} {c : Const}
    (hargs : ∀ a ∈ args, ∀ d, a.constant? = some d → P d)
    (hc : (ctx.callInfo f args span).info.constant? = some c) : P c := by
  rcases callInfo_const hc with
    ⟨-, b, as, s, -, -, hfold, -, hcall⟩ | ⟨ty, a, d, v, -, ha, hd, hv, rfl⟩
  · exact h.builtin c (Builtin.call_yields hfold hcall)
  · exact h.convert d ty v (hargs a (by rw [ha]; exact List.mem_singleton_self a) d hd) hv

theorem preserves (h : ctx.KeepsConstants P) :
    ctx.Preserves fun r => ∀ c, r.node.constant? = some c → P c where
  missing c hc := by cases hc
  leaf l span c hc := h.leaf hc
  paren inner span ih c hc := ih c hc
  binary op l r span ihl ihr c hc := by
    obtain ⟨a, b, ha, hb, hfold⟩ := binaryInfo_const hc
    exact h.fold a b c op _ (ihl a ha) (ihr b hb) hfold
  call f args span ihf ihargs c hc := by
    refine h.call (fun a ha d hd => ?_) hc
    obtain ⟨r, hr, rfl⟩ := List.mem_map.1 ha
    exact ihargs r hr d hd

/-- **What every source of constants keeps holds of every constant.** -/
theorem of_check (h : ctx.KeepsConstants P) {t : Tree} {c : Const}
    (hc : (t.check ctx).node.constant? = some c) : P c := Tree.check_induction h.preserves t c hc

theorem of_partOf (h : ctx.KeepsConstants P) {t : Tree} {n : Node} {c : Const}
    (hn : n.PartOf (t.check ctx).node) (hc : n.constant? = some c) : P c := by
  obtain ⟨s, -, rfl⟩ := Tree.partOf_check_iff.1 hn
  exact h.of_check hc

end Context.KeepsConstants

end ConstCheck
