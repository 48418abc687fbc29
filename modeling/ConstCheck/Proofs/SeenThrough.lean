import ConstCheck.Proofs.Swapping

/-!
# Names are seen through

A declared type is used as the type below its name: wherever a type decides what becomes of a
value, it is asked for what is below its names. Only a result that is of the type itself shows the
name again.

* `Ty.BehavesAs`: a type does in all uses as another does, and results of it are of its own type.
* `foldTyped_below`: two values fold as they do under another name.
* `Ty.behavesAs_of_underlying`: **types that are alike below their names behave alike**.
* `names_seen_through` (every name and every type): a declared type behaves as the type it is over.
-/

namespace ConstCheck

/-- In all its uses one type does as another. Values, constness and errors are those of the other
type; what is of the other type there is of this one here. -/
structure Ty.BehavesAs (n t : Ty) : Prop where
  category : n.category = t.category
  bits : ∀ word : WordSize, n.bits? word = t.bits? word
  zero : Value.zero n = Value.zero t
  convertsTo : ∀ k : Kind, k.convertsTo n = k.convertsTo t
  definedOn : ∀ op : Operator, op.definedOn n = op.definedOn t
  /-- A constant is narrowed to the same value, with errors of the same codes. -/
  narrow : ∀ (c : UntypedConst) (word : WordSize), ∃ v : Value,
    (c.narrow n word).1 = ⟨n, v⟩ ∧ (c.narrow t word).1 = ⟨t, v⟩ ∧
    (c.narrow n word).2.map ErrorKind.code = (c.narrow t word).2.map ErrorKind.code
  /-- Two operands come to the same value, or to none, with errors of the same codes; a comparison
  is a bool, and any other value of the operands' type. -/
  operation : ∀ (ctx : Context) (op : Operator) (a b : Value) (x y x' y' : Node) (span span' : Span),
    x.info = .ofConst (.typed ⟨n, a⟩) → y.info = .ofConst (.typed ⟨n, b⟩) →
    x'.info = .ofConst (.typed ⟨t, a⟩) → y'.info = .ofConst (.typed ⟨t, b⟩) →
    ∃ v : Option Value,
      (ctx.binaryInfo op x y span).info =
        .ofConst? (v.map fun v => .typed ⟨if op.isComparison then .bool else n, v⟩) ∧
      (ctx.binaryInfo op x' y' span').info =
        .ofConst? (v.map fun v => .typed ⟨if op.isComparison then .bool else t, v⟩) ∧
      (ctx.binaryInfo op x y span).errors.map CheckError.code =
        (ctx.binaryInfo op x' y' span').errors.map CheckError.code

/-- A typed value is its type and the rest. -/
theorem TypedValue.eq_of_ty {v : TypedValue} {ty : Ty} (h : v.ty = ty) : v = ⟨ty, v.value⟩ := by
  rw [← h]

/-! ## Folds of two values of one type -/

/-- Two folds that are alike below the names, with values of known types, have one value. -/
theorem Folded.AlikeBelow.exists_value {f g : Folded} (h : f.AlikeBelow g) {s t : Ty}
    (hf : ∀ c, f.value = some c → c.knownType = .typed s)
    (hg : ∀ c, g.value = some c → c.knownType = .typed t) :
    ∃ v : Option Value,
      f.value = v.map (fun v => .typed ⟨s, v⟩) ∧ g.value = v.map fun v => .typed ⟨t, v⟩ := by
  -- a typed constant is its type and its value
  have typed : ∀ {c : Const} {ty : Ty}, c.knownType = .typed ty → ∃ v, c = .typed ⟨ty, v⟩ := by
    intro c ty hc
    cases c with
    | untyped u => cases hc
    | typed w =>
      exact ⟨w.value, congrArg Const.typed (TypedValue.eq_of_ty (KnownType.typed.inj hc))⟩
  have hvalue := h.value
  cases hfv : f.value with
  | none =>
    rw [hfv] at hvalue
    exact ⟨none, rfl, Option.map_eq_none_iff.1 hvalue.symm⟩
  | some c =>
    rw [hfv] at hvalue
    obtain ⟨d, hgv, hsame⟩ := Option.map_eq_some_iff.1 hvalue.symm
    obtain ⟨v, rfl⟩ := typed (hf c hfv)
    obtain ⟨w, rfl⟩ := typed (hg d hgv)
    have hvw : w = v := congrArg TypedValue.value (Const.typed.inj hsame)
    exact ⟨some v, rfl, by rw [hgv, hvw]; rfl⟩

section

variable {op : Operator} {s t : Ty} {word : WordSize} {p q : OperationSpan}

/-- What two values come to does not depend on the names of their type. -/
theorem TypedValue.operate_below (op : Operator) (h : s.underlying = t.underlying) (a b : Value) :
    operate op ⟨s, a⟩ ⟨s, b⟩ s = operate op ⟨t, a⟩ ⟨t, b⟩ t := by
  have hn := Ty.isNumeric_of_underlying h
  unfold operate number?
  rw [hn]

/-- Two values of one type are folded at that type. -/
theorem foldTyped_self (op : Operator) (ty : Ty) (a b : Value) :
    foldTyped op ⟨ty, a⟩ ⟨ty, b⟩ word p =
      if op.definedOn ty then foldAt op ⟨ty, a⟩ ⟨ty, b⟩ ty word p
      else .failed p [.undefinedOperation op (.typed ty) (.typed ty)] := by
  simp only [foldTyped, commonType?_self]

/-- **Two values fold as they do under another name.** -/
theorem foldTyped_below (h : s.underlying = t.underlying) (a b : Value) :
    (foldTyped op ⟨s, a⟩ ⟨s, b⟩ word p).AlikeBelow (foldTyped op ⟨t, a⟩ ⟨t, b⟩ word q) := by
  rw [foldTyped_self, foldTyped_self, op.definedOn_of_category (Ty.category_of_underlying_eq h)]
  split_ifs
  · exact foldAt_below h (op.resultType_underlying h) (TypedValue.operate_below op h a b)
  · exact ⟨rfl, rfl⟩

end

/-! ## Types -/

namespace Ty

variable {s t : Ty}

/-- **Types that are alike below their names behave alike.** -/
theorem behavesAs_of_underlying (h : s.underlying = t.underlying) : s.BehavesAs t where
  category := category_of_underlying_eq h
  bits word := by rw [bits?, bits?, basic?, basic?, h]
  zero := Value.zero_of_underlying h
  convertsTo k := by
    have hcat := category_of_underlying_eq h
    cases k <;> simp only [Kind.convertsTo, isNumeric, isNilable, hcat]
  definedOn op := op.definedOn_of_category (category_of_underlying_eq h)
  narrow c word := by
    obtain ⟨hvalue, hcodes⟩ := c.narrow_below h word
    refine ⟨(c.narrow t word).1.value, ?_, TypedValue.eq_of_ty (c.narrow_ty t word), hcodes⟩
    rw [← hvalue]
    exact TypedValue.eq_of_ty (c.narrow_ty s word)
  operation ctx op a b x y x' y' span span' hx hy hx' hy' := by
    have hbelow : ((Const.typed ⟨s, a⟩).fold op (.typed ⟨s, b⟩) ctx.word ⟨span, y.span⟩).AlikeBelow
        ((Const.typed ⟨t, a⟩).fold op (.typed ⟨t, b⟩) ctx.word ⟨span', y'.span⟩) :=
      foldTyped_below h a b
    obtain ⟨v, hv, hv'⟩ := hbelow.exists_value (fun c hc => foldTyped_knownType hc)
      fun c hc => foldTyped_knownType hc
    rw [Context.binaryInfo_of_constants op span hx hy,
      Context.binaryInfo_of_constants op span' hx' hy']
    refine ⟨v, ?_, ?_, hbelow.codes⟩
    · rw [hv]
      rfl
    · rw [hv']
      rfl

end Ty

/-- **Names are seen through.** A declared type behaves as the type it is over, whether it sees
through the names of that type or keeps them, and however deep they are: it has the same category,
width and zero value, takes the same kinds and has the same operators. A constant is narrowed to it
with the same value and errors of the same codes. And two values of it come to the same value in
every operation, constant in the same cases and with errors of the same codes; where the result is
of the type below, it is of the declared type here, and a comparison is a bool in both. -/
theorem names_seen_through (name : String) (ty : Ty) :
    (Ty.named name ty).BehavesAs ty ∧ (Ty.declared name ty).BehavesAs ty :=
  ⟨Ty.behavesAs_of_underlying (Ty.underlying_named name ty),
    Ty.behavesAs_of_underlying (Ty.underlying_declared name ty)⟩

/-- A constant operand of a type. -/
def Node.operand (ty : Ty) (v : Value) : Node := .mk .none .literal (.ofConst (.typed ⟨ty, v⟩))

/-- The product of 100 and 3 wraps to 44 in an `int8`, and in a declared type over it. -/
theorem names_seen_through_wrapping :
    let product (ty : Ty) := Context.factors.binaryInfo .mul (.operand ty (.int 100))
      (.operand ty (.int 3)) .none
    (product (.basic .int8)).info.constant?.bind Const.int? = some 44 ∧
    (product (.declared "Small" (.basic .int8))).info.constant?.bind Const.int? = some 44 ∧
    (product (.declared "Small" (.basic .int8))).info.known =
      [.typed (.declared "Small" (.basic .int8))] ∧
    (product (.declared "Small" (.basic .int8))).errors.map CheckError.code = [.overflowed] := by
  intro product
  obtain ⟨-, hsmall⟩ := names_seen_through "Small" (.basic .int8)
  obtain ⟨v, hv, hv', hcodes⟩ := hsmall.operation .factors .mul (.int 100) (.int 3)
    (.operand _ _) (.operand _ _) (.operand _ _) (.operand _ _) .none .none rfl rfl rfl rfl
  have hvalue : (product (.basic .int8)).info.constant?.bind Const.int? = some 44 := by
    decide +kernel
  have hcode : (product (.basic .int8)).errors.map CheckError.code = [.overflowed] := by
    decide +kernel
  obtain ⟨w, rfl⟩ : ∃ w, v = some w := by
    simp only [product, hv'] at hvalue
    cases v with
    | none => cases hvalue
    | some w => exact ⟨w, rfl⟩
  simp only [product, hv, hv'] at hvalue ⊢
  exact ⟨hvalue, hvalue, rfl, hcodes.trans hcode⟩

end ConstCheck
