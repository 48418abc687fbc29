import ConstCheck.Proofs.Narrowing
import ConstCheck.Proofs.Nodes
import ConstCheck.Proofs.Outcomes

/-!
# Typed constants fit their types

A typed value fits its type if it has the shape of the type and is in its range: an integer of the
width, a float of the format. Names are seen through, and composite types ask for nothing.

* `TypedValue.Fits`: the invariant.
* `UntypedConst.narrow_fits`, `Const.fold_fits`: narrowing and folding establish it, whatever the
  operands, with errors or without.
* `Const.convert_fits`, `Builtin.call_fits`: conversions and builtins preserve it.
* `constants_fit` (every arena and environment): **every typed constant at every node of a checked
  expression fits its type**, if the named constants do.
-/

namespace ConstCheck

/-- A value has the shape of its type and is in its range. -/
def TypedValue.Fits (word : WordSize) (v : TypedValue) : Prop :=
  match v.ty.category with
  | .signed => ∃ i : ℤ, v.value = .int i ∧
      -2 ^ (v.ty.width word - 1) ≤ i ∧ i < 2 ^ (v.ty.width word - 1)
  | .unsigned => ∃ n : ℕ, v.value = .uint n ∧ n < 2 ^ v.ty.width word
  | .float => ∃ x, v.value = .float x ∧ v.ty.format.Holds x
  | .complex => ∃ re im, v.value = .complex re im ∧ v.ty.format.Holds re ∧ v.ty.format.Holds im
  | .string => ∃ s, v.value = .str s
  | .bool => ∃ b, v.value = .bool b
  | _ => True

/-- A value has the shape of its type, whatever its range. -/
def TypedValue.Shaped (v : TypedValue) : Prop :=
  match v.ty.category with
  | .signed => ∃ i, v.value = .int i
  | .unsigned => ∃ n, v.value = .uint n
  | .float => ∃ x, v.value = .float x
  | .complex => ∃ re im, v.value = .complex re im
  | .string => ∃ s, v.value = .str s
  | .bool => ∃ b, v.value = .bool b
  | _ => True

/-- A typed constant fits its type. -/
def Const.Fits (word : WordSize) : Const → Prop
  | untyped _ => True
  | typed v => v.Fits word

theorem Ty.sane_format (ty : Ty) : ty.format.Sane := by
  unfold format
  split
  · exact Format.sane_binary32
  · exact Format.sane_binary32
  · exact Format.sane_binary64

section

variable {word : WordSize} {ty : Ty} {v : TypedValue} {c : Const}

/-- A type whose category is not basic asks for nothing. -/
theorem TypedValue.fits_of_not_isBasic (h : v.ty.category.isBasic = false) : v.Fits word := by
  unfold Fits
  cases hc : v.ty.category <;> simp_all [Category.isBasic]

/-- What is in range has the shape. -/
theorem TypedValue.Fits.shaped (h : v.Fits word) : v.Shaped := by
  unfold Fits at h
  unfold Shaped
  cases hc : v.ty.category with
  | signed => simp only [hc] at h ⊢; exact h.imp fun _ hi => hi.1
  | unsigned => simp only [hc] at h ⊢; exact h.imp fun _ hn => hn.1
  | float => simp only [hc] at h ⊢; exact h.imp fun _ hx => hx.1
  | complex =>
    simp only [hc] at h ⊢
    obtain ⟨re, im, hv, -⟩ := h
    exact ⟨re, im, hv⟩
  | string => simpa only [hc] using h
  | bool => simpa only [hc] using h
  | _ => trivial

/-- The shape of a value is that of any type of the category. -/
theorem TypedValue.Shaped.retag (h : v.Shaped) (hc : v.ty.category = ty.category) :
    Shaped ⟨ty, v.value⟩ := by
  unfold Shaped at h ⊢
  rwa [hc] at h

/-! ## Zero values and narrowing -/

/-- The zero value of a type fits it. -/
theorem TypedValue.zero_fits (word : WordSize) (ty : Ty) : (zero ty).Fits word := by
  by_cases hb : ty.category.isBasic
  · obtain ⟨b, hu⟩ := Ty.exists_basic hb
    have hc := Ty.category_of_underlying hu
    have hv : (zero ty).value = Value.zero (.basic b) := by
      rw [← hu, Value.zero_underlying]; rfl
    have hf : ty.format.Holds .zero := by
      intro q hq
      have : q = 0 := by simpa [FloatValue.zero, FloatValue.toRat?, eq_comm] using hq
      rw [this]; exact Format.representable_zero ty.sane_format
    have hpow : ∀ k : ℕ, (0 : ℤ) < 2 ^ k := fun k => by positivity
    -- a name has the zero value of the basic type below it
    unfold Fits
    simp only [ty_zero, hv, hc, Value.zero]
    cases b.category with
    | signed => exact ⟨0, rfl, by have := hpow (ty.width word - 1); omega, hpow _⟩
    | unsigned => exact ⟨0, rfl, Nat.two_pow_pos _⟩
    | float => exact ⟨_, rfl, hf⟩
    | complex => exact ⟨_, _, rfl, hf, hf⟩
    | string => exact ⟨_, rfl⟩
    | bool => exact ⟨_, rfl⟩
    | _ => trivial
  · exact fits_of_not_isBasic (by simpa using hb)

/-- **A narrowed number fits the type**, in range or wrapped, finite or not. -/
theorem Number.narrow_fits (n : Number) (ty : Ty) (word : WordSize) :
    (n.narrow ty word).1.Fits word := by
  cases hn : ty.isNumeric with
  | false => rw [narrow_of_not_isNumeric hn]; exact TypedValue.zero_fits word ty
  | true =>
    rcases Ty.isNumeric_cases hn with hs | hu | hf | hx
    · have hw := Ty.width_bounds word (Ty.isIntegral_of_signed hs)
      rw [narrow_of_signed hs]
      simp only [TypedValue.Fits, hs]
      exact ⟨_, rfl, toSigned_bounds hw n⟩
    · have hw := Ty.width_bounds word (Ty.isIntegral_of_unsigned hu)
      rw [narrow_of_unsigned hu]
      simp only [TypedValue.Fits, hu]
      exact ⟨_, rfl, toUnsigned_lt hw n⟩
    · rw [narrow_of_float hf]
      simp only [TypedValue.Fits, hf]
      exact ⟨_, rfl, Format.holds_round ty.sane_format n.re⟩
    · rw [narrow_of_complex hx]
      simp only [TypedValue.Fits, hx]
      exact ⟨_, _, rfl, Format.holds_round ty.sane_format n.re,
        Format.holds_round ty.sane_format n.im⟩

@[simp]
theorem UntypedConst.narrow_ty (c : UntypedConst) (ty : Ty) (word : WordSize) :
    (c.narrow ty word).1.ty = ty := by
  cases c with
  | number n => exact n.narrow_ty ty word
  | string s => simp only [narrow]; split <;> rfl
  | bool b => simp only [narrow]; split <;> rfl
  | nil => simp only [narrow]; split <;> rfl

/-- **A narrowed constant fits the type**, whatever its kind. -/
theorem UntypedConst.narrow_fits (c : UntypedConst) (ty : Ty) (word : WordSize) :
    (c.narrow ty word).1.Fits word := by
  cases c with
  | number n => exact n.narrow_fits ty word
  | string s =>
    simp only [narrow]
    split
    · rename_i h; simp only [TypedValue.Fits, h]; exact ⟨s, rfl⟩
    · exact TypedValue.zero_fits word ty
  | bool b =>
    simp only [narrow]
    split
    · rename_i h; simp only [TypedValue.Fits, h]; exact ⟨b, rfl⟩
    · exact TypedValue.zero_fits word ty
  | nil =>
    simp only [narrow]
    split <;> exact TypedValue.zero_fits word ty

/-! ## Conversions -/

/-- A value that fits one type fits another of the same category that holds no numbers. -/
theorem TypedValue.fits_retag (hv : v.Fits word) (hn : ty.isNumeric = false)
    (hc : v.ty.category = ty.category) : Fits word ⟨ty, v.value⟩ := by
  unfold Ty.isNumeric at hn
  unfold Fits at hv ⊢
  rw [hc] at hv
  cases hk : ty.category <;> simp_all [Category.isNumeric]

/-- **An explicit conversion yields a value that fits.** -/
theorem Const.convert_fits (hc : c.Fits word) (h : (c.convert ty word).1 = some v) :
    v.Fits word := by
  rcases c.convert_cases ty word with
    ⟨d, -, he⟩ | ⟨t, rfl, hconv, hn, he⟩ | ⟨t, -, -, -, -, he⟩ | ⟨-, he, -⟩
  · rw [he, Option.some.injEq] at h
    rw [← h]; exact d.narrow_fits ty word
  · rw [he, Option.some.injEq] at h
    rw [← h]
    by_cases hb : ty.category.isBasic
    · exact TypedValue.fits_retag hc hn (Ty.category_of_convertibleTo hconv hb hn)
    · exact TypedValue.fits_of_not_isBasic (by simpa using hb)
  · simp [he] at h
  · simp [he] at h

/-! ## Folds -/

theorem foldAt_fits {op : Operator} {a b : TypedValue} {place : OperationSpan}
    (h : (foldAt op a b ty word place).value = some c) : c.Fits word := by
  rcases foldAt_cases op a b ty word place with ⟨z, -, he⟩ | ⟨e, -, -, hzero⟩ | ⟨-, he⟩
  · rw [he, Folded.value_narrowed, Option.some.injEq] at h
    rw [← h]; exact z.narrow_fits _ word
  · rw [hzero c h]; exact TypedValue.zero_fits word _
  · simp [he, Folded.failed] at h

theorem foldMixed_fits {op : Operator} {u : UntypedConst} {side : Side} {place : OperationSpan}
    (h : (foldMixed op v u side word place).value = some c) : c.Fits word := by
  rcases foldMixed_cases op v u side word place with ⟨-, -, he⟩ | ⟨-, he, -⟩
  · rw [he, Folded.value_after] at h; exact foldAt_fits h
  · simp [he] at h

theorem foldTyped_fits {op : Operator} {a b : TypedValue} {place : OperationSpan}
    (h : (foldTyped op a b word place).value = some c) : c.Fits word := by
  rcases foldTyped_cases op a b word place with ⟨ty, -, -, he⟩ | ⟨-, he, -⟩
  · rw [he] at h; exact foldAt_fits h
  · simp [he] at h

theorem foldUntyped_fits {op : Operator} {a b : UntypedConst} {place : OperationSpan}
    (h : (foldUntyped op a b place).value = some c) : c.Fits word := by
  have huntyped : ∃ u, c = .untyped u := by
    rcases foldUntyped_cases op a b place with ⟨kind, d, -, -, he⟩ | ⟨-, huntyped⟩
    · rw [he, Option.some.injEq] at h; exact ⟨d, h.symm⟩
    · exact huntyped c h
  obtain ⟨u, rfl⟩ := huntyped
  trivial

/-- **The value of a fold fits its type**, whatever the operands are. -/
theorem Const.fold_fits {op : Operator} {a b : Const} {place : OperationSpan}
    (h : (a.fold op b word place).value = some c) : c.Fits word := by
  cases a with
  | untyped a =>
    cases b with
    | untyped b => exact foldUntyped_fits h
    | typed b => exact foldMixed_fits h
  | typed a =>
    cases b with
    | untyped b => exact foldMixed_fits h
    | typed b => exact foldTyped_fits h

end

/-! ## Builtins -/

section

variable {word : WordSize} {ty : Ty} {v : TypedValue} {c d : Const}

/-- A constant passed as an argument of a type is a value of that type. -/
theorem UntypedConst.pass?_fits {u : UntypedConst} (h : u.pass? ty word = some v) :
    v.ty = ty ∧ v.Fits word := by
  have hv : (u.narrow ty word).1 = v := by
    unfold pass? at h
    rw [Option.ite_none_right_eq_some] at h
    obtain ⟨-, h⟩ := h
    simp only [Option.ite_none_right_eq_some, Option.some.injEq] at h
    exact h.2
  rw [← hv]
  exact ⟨u.narrow_ty ty word, u.narrow_fits ty word⟩

/-- A constant used as a float of a basic type is a float of its format. -/
theorem Const.float?_holds {b : BasicType} {x : FloatValue} (hb : b.category = .float)
    (hc : c.Fits word) (h : c.float? (.basic b) word = some x) : (Ty.basic b).format.Holds x := by
  -- an untyped constant is passed as a value of the type, and is then no different
  have key : ∀ v : TypedValue, v.ty.underlying = .basic b → v.Fits word → v.float? = some x →
      (Ty.basic b).format.Holds x := by
    intro v hu hv hx
    simp only [TypedValue.Fits, Ty.category_of_underlying hu, hb] at hv
    obtain ⟨y, hy, hh⟩ := hv
    have hf : v.ty.format = (Ty.basic b).format := by
      simp only [Ty.format, Ty.basic?_of_underlying hu]; rfl
    simp only [TypedValue.float?, hy, Option.some.injEq] at hx
    rwa [hf, hx] at hh
  cases c with
  | typed v =>
    simp only [float?] at h
    split at h
    · rename_i hu; exact key v hu hc h
    · simp at h
  | untyped u =>
    obtain ⟨v, hv, hx⟩ := Option.bind_eq_some_iff.1 h
    obtain ⟨hty, hfit⟩ := UntypedConst.pass?_fits hv
    exact key v (by rw [hty]; rfl) hfit hx

/-- The signed integer that a constant holds, if it is one. -/
def Const.int? : Const → Option ℤ
  | untyped _ => none
  | typed v => v.int?

namespace Builtin

/-- The format of the parts of a complex type is that of their own type, below the names. -/
theorem partType?_format {part : Ty} (h : partType? ty = some part) :
    ∃ b c, ty.underlying = .basic b ∧ part = .basic c ∧ b.category = .complex ∧
      c.category = .float ∧ ty.format = part.format := by
  have format : ∀ b : BasicType, ty.underlying = .basic b → ty.format = (Ty.basic b).format :=
    fun b hu => by simp only [Ty.format, Ty.basic?_of_underlying hu]; rfl
  rcases partType?_cases h with ⟨hu, rfl⟩ | ⟨hu, rfl⟩
  · exact ⟨.complex128, .float64, hu, rfl, rfl, rfl, format .complex128 hu⟩
  · exact ⟨.complex64, .float32, hu, rfl, rfl, rfl, format .complex64 hu⟩

/-- Two floats of one width make a complex value of that width. -/
theorem complexOf?_fits (hc : c.Fits word) (hd : d.Fits word)
    (h : complexOf? word c d = some v) : v.Fits word := by
  obtain ⟨b, part, x, y, hpart, hx, hy, rfl⟩ := complexOf?_eq_some h
  obtain ⟨b', f, hb, rfl, hcomplex, hfloat, hformat⟩ := partType?_format hpart
  cases hb
  have hre := Const.float?_holds hfloat hc hx
  have him := Const.float?_holds hfloat hd hy
  rw [← hformat] at hre him
  simp only [TypedValue.Fits, Ty.category, hcomplex]
  exact ⟨x, y, rfl, hre, him⟩

/-- A part of a complex value is a float of the width of the parts. -/
theorem partType?_fits {part : Ty} {pick : FloatValue × FloatValue → FloatValue}
    (hpick : ∀ p, pick p = p.1 ∨ pick p = p.2) (hv : v.Fits word) (hp : partType? v.ty = some part)
    {parts : FloatValue × FloatValue} (hx : v.complex? = some parts) :
    TypedValue.Fits word ⟨part, .float (pick parts)⟩ := by
  obtain ⟨b, f, hu, rfl, hb, hfloat, hformat⟩ := partType?_format hp
  simp only [TypedValue.Fits, Ty.category_of_underlying hu, hb] at hv
  obtain ⟨re, im, hval, hre, him⟩ := hv
  rw [hformat] at hre him
  simp only [TypedValue.complex?, hval, Option.some.injEq] at hx
  subst hx
  simp only [TypedValue.Fits, Ty.category, hfloat]
  refine ⟨_, rfl, ?_⟩
  rcases hpick (re, im) with h | h
  · rw [h]; exact hre
  · rw [h]; exact him

/-- A length fits `int` unless the word is short and the length is not. -/
theorem lengthConst_fits {n : ℕ}
    (h : word = .bits32 → ∀ i, (lengthConst n).int? = some i → i < 2 ^ 31) :
    (lengthConst n).Fits word := by
  have hnonneg : (0 : ℤ) ≤ min (n : ℤ) maxLength := le_min n.cast_nonneg maxLength.cast_nonneg
  refine ⟨min (n : ℤ) maxLength, rfl, ?_, ?_⟩
  · have hpos : (0 : ℤ) < 2 ^ (Ty.int.width word - 1) := by positivity
    show -2 ^ (Ty.int.width word - 1) ≤ min (n : ℤ) maxLength
    omega
  · cases word with
    | bits32 => exact h rfl _ rfl
    | bits64 =>
      have hmax : (maxLength : ℤ) < 2 ^ 63 := by decide
      exact lt_of_le_of_lt (min_le_right _ _) hmax

/-- A part of a complex constant fits the width of the parts. -/
theorem partCall_fits {b : Builtin} {exact : Number → Number}
    {pick : FloatValue × FloatValue → FloatValue} {args : List Arg}
    (hpick : ∀ p, pick p = p.1 ∨ pick p = p.2)
    (hargs : ∀ a ∈ args, ∀ d, a.const? = some d → d.Fits word)
    (h : partCall b exact pick args = .ok c) : c.Fits word := by
  obtain ⟨a, rfl, ⟨n, -, rfl⟩ | ⟨v, part, parts, hv, hpart, hparts, rfl⟩⟩ := partCall_cases h
  · trivial
  · exact partType?_fits hpick (hargs a (by simp) _ hv) hpart hparts

/-- A complex constant made of two constants fits its type. -/
theorem complexCall_fits {args : List Arg}
    (hargs : ∀ a ∈ args, ∀ d, a.const? = some d → d.Fits word)
    (h : complexCall word args = .ok c) : c.Fits word := by
  obtain ⟨re, im, rfl, ⟨r, i, -, -, rfl⟩ | ⟨r, i, v, hr, hi, -, hv, rfl⟩⟩ := complexCall_cases h
  · trivial
  · exact complexOf?_fits (hargs re (by simp) _ hr) (hargs im (by simp) _ hi) hv

/-- The builtins whose constants are lengths. -/
def isLength : Builtin → Bool
  | len | cap => true
  | _ => false

/-- **A folded builtin yields a constant that fits**, if its arguments do; for a short word, if it
says no long length. -/
theorem call_fits {b : Builtin} {store s : Store} {args : List Arg} (hb : b.isFoldable)
    (hargs : ∀ a ∈ args, ∀ d, a.const? = some d → d.Fits word)
    (h : b.call word store args = .ok (c, s))
    (hlen : word = .bits32 → b.isLength → ∀ i, c.int? = some i → i < 2 ^ 31) : c.Fits word := by
  cases b with
  | complex => exact complexCall_fits hargs (eq_ok_of_map h)
  | real => exact partCall_fits (fun _ => .inl rfl) hargs (eq_ok_of_map h)
  | imag => exact partCall_fits (fun _ => .inr rfl) hargs (eq_ok_of_map h)
  | len =>
    obtain ⟨a, n, -, rfl, -⟩ := lenCall_cases (eq_ok_of_map h)
    exact lengthConst_fits fun hw => hlen hw rfl
  | cap =>
    obtain ⟨a, v, n, -, -, -, rfl⟩ := capCall_cases (eq_ok_of_map h)
    exact lengthConst_fits fun hw => hlen hw rfl
  | append | new | panic => simp [isFoldable] at hb

end Builtin

end

/-! ## Whole expressions -/

/-- The length that a call of `len` or `cap` yields, by the table of names. -/
def Node.length? (names : Interner) (n : Node) : Option ℤ :=
  match n.kind with
  | .call f _ =>
    match f.kind with
    | .builtin name =>
      if (Builtin.ofName? (names.lookup name)).any Builtin.isLength then
        n.constant?.bind Const.int?
      else none
    | _ => none
  | _ => none

theorem Node.length?_eq {names : Interner} {f : Node} {args : List Node} {span : Span}
    {info : Info} {name : Name} {b : Builtin} (hname : f.kind = .builtin name)
    (hb : Builtin.ofName? (names.lookup name) = some b) (h : b.isLength) :
    (Node.mk span (.call f args) info).length? names = info.constant?.bind Const.int? := by
  unfold length?
  simp only [kind] at hname ⊢
  simp only [hname, hb, Option.any_some, h, if_true]
  rfl

section

variable {ctx : Context}

/-- No call in an expression yields a length that is too long for a short word. -/
def Node.LengthsFit (ctx : Context) (root : Node) : Prop :=
  ctx.word = .bits32 →
    ∀ (n : Node) (i : ℤ), n.PartOf root → n.length? ctx.names = some i → i < 2 ^ 31

/-- The constants in an expression fit their types. -/
def Node.ConstantsFit (word : WordSize) (root : Node) : Prop :=
  ∀ (n : Node) (c : Const), n.PartOf root → n.constant? = some c → c.Fits word

theorem Node.LengthsFit.of_partOf {part root : Node} (h : root.LengthsFit ctx)
    (hp : part.PartOf root) : part.LengthsFit ctx :=
  fun hw n i hn => h hw n i (hn.trans hp)

theorem Context.checkLeaf_fits
    (henv : ∀ name v, ctx.env.const? name = some (.typed v) → v.Fits ctx.word) (l : Leaf)
    (span : Span) : (ctx.checkLeaf l span).node.ConstantsFit ctx.word := by
  intro n c hn hc
  rw [partOf_checkLeaf hn] at hc
  have hleaf := ctx.checkLeaf_result l span
  generalize ctx.checkLeaf l span = r at hleaf hc
  cases hleaf with
  | number | malformed | rune | string => cases hc; trivial
  | const hres =>
    cases hc
    rcases resolve?_const hres with rfl | hnamed | ⟨b, rfl⟩
    · trivial
    · cases c with
      | untyped u => trivial
      | typed v => exact henv _ v hnamed
    · trivial
  | reading | builtin | type | undefined => cases hc

theorem Context.checkCall_fits {f : Checked} {args : List Checked} {span : Span}
    (hargs : ∀ a ∈ args, a.node.ConstantsFit ctx.word)
    (hlen : (ctx.checkCall f args span).node.LengthsFit ctx) {c : Const}
    (hc : (ctx.checkCall f args span).node.constant? = some c) : c.Fits ctx.word := by
  have hnode : ∀ a ∈ args.map Checked.node, ∀ d, a.constant? = some d → d.Fits ctx.word := by
    intro a ha d hd
    obtain ⟨x, hx, rfl⟩ := List.mem_map.1 ha
    exact hargs x hx _ d .self hd
  rcases callInfo_const hc with
    ⟨name, b, as, s, hname, hb, hfold, has, hcall⟩ | ⟨ty, a, d, v, -, ha, hd, hv, rfl⟩
  · refine Builtin.call_fits hfold ?_ hcall ?_
    · intro arg harg d hd
      obtain ⟨n, hn, hna⟩ := mem_argsOf has harg
      exact hnode n hn d (const?_arg hna hd)
    · -- the call itself is one of the calls that yield no long length
      intro hw hlength i hi
      refine hlen hw _ i .self ?_
      calc (ctx.checkCall f args span).node.length? ctx.names
        _ = (ctx.checkCall f args span).node.constant?.bind Const.int? :=
          Node.length?_eq hname hb hlength
        _ = some i := by rw [hc]; exact hi
  · have hmem : a ∈ args.map Checked.node := by rw [ha]; exact List.mem_singleton_self a
    exact Const.convert_fits (hnode a hmem d hd) hv

/-- What the rules give their nodes fits, part by part. -/
theorem Context.preserves_constantsFit
    (henv : ∀ name v, ctx.env.const? name = some (.typed v) → v.Fits ctx.word) :
    ctx.Preserves fun c => c.node.LengthsFit ctx → c.node.ConstantsFit ctx.word where
  missing := by
    rintro - n c hn hc
    cases hn
    cases hc
  leaf l span _ := checkLeaf_fits henv l span
  paren inner span ih hlen := by
    intro n c hn hc
    have inner := ih (hlen.of_partOf (.paren .self))
    cases hn with
    | self => exact inner _ c .self hc
    | paren h => exact inner n c h hc
  binary op l r span ihl ihr hlen := by
    intro n c hn hc
    cases hn with
    | self =>
      obtain ⟨a, b, -, -, hfold⟩ := binaryInfo_const hc
      exact Const.fold_fits hfold
    | left h => exact ihl (hlen.of_partOf (.left .self)) n c h hc
    | right h => exact ihr (hlen.of_partOf (.right .self)) n c h hc
  call f args span ihf ihargs hlen := by
    intro n c hn hc
    have parts : ∀ a ∈ args, a.node.ConstantsFit ctx.word := fun a ha =>
      ihargs a ha (hlen.of_partOf (.arg (List.mem_map_of_mem ha) .self))
    cases hn with
    | self => exact checkCall_fits parts hlen hc
    | func h => exact ihf (hlen.of_partOf (.func .self)) n c h hc
    | arg ha h =>
      obtain ⟨a, hmem, rfl⟩ := List.mem_map.1 ha
      exact parts a hmem n c h hc

/-- **Every typed constant at every node of a checked expression fits its type**, errors reported or
not, if the named constants do. Where a word is short, no call of `len` or `cap` may yield more
than `int` can say. -/
theorem constants_fit {a : Arena} {id : ExprId} {c : Checked}
    (henv : ∀ name v, ctx.env.const? name = some (.typed v) → v.Fits ctx.word)
    (h : a.check? ctx id = some c)
    (hlen : ctx.word = .bits32 →
      ∀ (n : Node) (i : ℤ), n.PartOf c.node → n.length? ctx.names = some i → i < 2 ^ 31) :
    ∀ (n : Node) (v : TypedValue), n.PartOf c.node → n.constant? = some (.typed v) →
      v.Fits ctx.word := by
  obtain ⟨t, -, rfl⟩ := Arena.exists_tree?_of_check? h
  intro n v hn hv
  exact Tree.check_induction (Context.preserves_constantsFit henv) t hlen n (.typed v) hn hv

/-- The least `int8` over minus one: the quotient wraps, and fits. -/
theorem constants_fit_least_quo : ∃ ctx c, ctx.word = .bits32 ∧
    (Arena.operation .quo).check? ctx ⟨2⟩ = some c ∧ c.errors.length = 1 ∧
    c.node.constant?.bind Const.int? = some (-128) ∧
    ∀ (n : Node) (v : TypedValue), n.PartOf c.node → n.constant? = some (.typed v) →
      v.Fits ctx.word := by
  let ctx : Context := .ofConsts .bits32
    [("least", ⟨.basic .int8, .int (-128)⟩), ("minus", ⟨.basic .int8, .int (-1)⟩)]
  have henv : ∀ name v, ctx.env.const? name = some (.typed v) → v.Fits ctx.word := by
    intro name v h
    obtain ⟨w, hw, heq⟩ := Context.mem_of_const?_ofConsts h
    cases heq
    simp only [List.map_cons, List.map_nil, List.mem_cons, List.not_mem_nil, or_false] at hw
    rcases hw with rfl | rfl
    · exact ⟨-128, rfl, by decide, by decide⟩
    · exact ⟨-1, rfl, by decide, by decide⟩
  have hc : (Arena.operation .quo).check? ctx ⟨2⟩ = some ((Tree.operation .quo).check ctx) :=
    Arena.check?_of_tree? (Arena.tree?_operation .quo)
  have hlen : ctx.word = .bits32 → ∀ (n : Node) (i : ℤ),
      n.PartOf ((Tree.operation .quo).check ctx).node → n.length? ctx.names = some i →
        i < 2 ^ 31 := by
    intro _ n i hn hi
    cases hn with
    | self => cases hi
    | left h => rw [Context.partOf_checkLeaf h] at hi; cases hi
    | right h => rw [Context.partOf_checkLeaf h] at hi; cases hi
  have fits := constants_fit henv hc hlen
  exact ⟨ctx, _, rfl, hc, by decide +kernel, by decide +kernel, fits⟩

end

end ConstCheck
