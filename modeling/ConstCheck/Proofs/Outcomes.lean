import ConstCheck.Check.BuiltinCall
import ConstCheck.Check.Fold

/-!
# The outcomes of conversions, folds and builtins

What a conversion, each shape of fold and each builtin can come to. Every invariant of constants is
a case split on these.

* `Const.convert_cases`: an explicit conversion narrows an exact constant, keeps the value under the
  new type, finds a value that is not finite, or fails.
* `foldAt_cases`: two values at a type have a result, which is narrowed, or a zero for the division
  by zero, or an error, or no exact value.
* `UntypedConst.operate_numbers`: the tag of the common kind changes nothing.
* `foldUntyped_cases`, `foldMixed_cases`, `foldTyped_cases`: the three shapes.
* `Builtin.bind_eq_ok`, `Builtin.one_eq_ok`, `Builtin.two_eq_ok`: how a builtin gets to a result.
* `Builtin.complexCall_cases`, `Builtin.partCall_cases`, `Builtin.lenCall_cases`,
  `Builtin.capCall_cases`: what the foldable builtins yield, and on which arguments.
-/

namespace ConstCheck

section

variable {ty : Ty} {word : WordSize} {op : Operator} {place : OperationSpan}

/-! ## Conversions -/

/-- The exact constant that an explicit conversion narrows: an untyped constant of a kind that
converts, or the number of a value of a type that converts to the numeric type. -/
def Const.NarrowsAs (ty : Ty) : Const → UntypedConst → Prop
  | untyped u, d => u.kind.convertsTo ty ∧ d = u
  | typed v, d =>
    v.ty.convertibleTo ty ∧ ty.isNumeric ∧ ∃ n, v.number? = some n ∧ d = .number n

/-- **The outcomes of an explicit conversion.** -/
theorem Const.convert_cases (c : Const) (ty : Ty) (word : WordSize) :
    (∃ d, c.NarrowsAs ty d ∧
      c.convert ty word = (some (d.narrow ty word).1, (d.narrow ty word).2)) ∨
    (∃ v, c = .typed v ∧ v.ty.convertibleTo ty ∧ ty.isNumeric = false ∧
      c.convert ty word = (some ⟨ty, v.value⟩, [])) ∨
    (∃ v, c = .typed v ∧ v.ty.convertibleTo ty ∧ ty.isNumeric ∧ v.number? = none ∧
      c.convert ty word = (none, [])) ∨
    (∀ v, c = .typed v → ¬v.ty.convertibleTo ty) ∧
      (c.convert ty word).1 = none ∧ (c.convert ty word).2 ≠ [] := by
  cases c with
  | untyped u =>
    by_cases hconv : u.kind.convertsTo ty
    · exact .inl ⟨u, ⟨hconv, rfl⟩, by simp [convert, hconv]⟩
    · refine .inr (.inr (.inr ⟨?_, by simp [convert, hconv]⟩))
      rintro _ ⟨⟩
  | typed v =>
    by_cases hconv : v.ty.convertibleTo ty
    · by_cases hn : ty.isNumeric
      · cases hnum : v.number? with
        | none => exact .inr (.inr (.inl ⟨v, rfl, hconv, hn, hnum, by simp [convert, *]⟩))
        | some n =>
          refine .inl ⟨.number n, ⟨hconv, hn, n, hnum, rfl⟩, ?_⟩
          simp [convert, hconv, hn, hnum, UntypedConst.narrow]
      · exact .inr (.inl ⟨v, rfl, hconv, by simpa using hn, by simp [convert, hconv, hn]⟩)
    · refine .inr (.inr (.inr ⟨?_, by simp [convert, hconv]⟩))
      rintro _ ⟨⟩
      exact hconv

/-! ## Folds -/

namespace Folded

variable {r : TypedValue × List ErrorKind} {kinds : List ErrorKind} {f : Folded}

@[simp]
theorem value_narrowed : (narrowed place r).value = some (.typed r.1) := rfl

@[simp]
theorem errors_narrowed_eq_nil : (narrowed place r).errors = [] ↔ r.2 = [] := by
  simp [narrowed]

@[simp]
theorem value_after : (after place kinds f).value = f.value := rfl

@[simp]
theorem errors_after_eq_nil : (after place kinds f).errors = [] ↔ kinds = [] ∧ f.errors = [] := by
  simp [after]

end Folded

/-- **The outcomes of an operation on two values at a type.** Only the first comes without an error
and with a value, only the last with neither. -/
theorem foldAt_cases (op : Operator) (a b : TypedValue) (ty : Ty) (word : WordSize)
    (place : OperationSpan) :
    (∃ c, TypedValue.operate op a b ty = some (.ok c) ∧
      foldAt op a b ty word place = .narrowed place (c.narrow (op.resultType ty) word)) ∨
    (∃ e, TypedValue.operate op a b ty = some (.error e) ∧
      (foldAt op a b ty word place).errors ≠ [] ∧
      ∀ c, (foldAt op a b ty word place).value = some c → c = .typed (.zero (op.resultType ty))) ∨
    TypedValue.operate op a b ty = none ∧
      foldAt op a b ty word place = .failed place (if ty.isNumeric then [] else [.internal]) := by
  unfold foldAt
  cases hop : TypedValue.operate op a b ty with
  | none => exact .inr (.inr ⟨rfl, rfl⟩)
  | some r =>
    cases r with
    | ok c => exact .inl ⟨c, rfl, rfl⟩
    | error e =>
      refine .inr (.inl ⟨e, rfl, ?_⟩)
      cases e <;> simp [Folded.failed, eq_comm]

/-- **A number that an operator yields is of the common kind**, whatever the operands. -/
theorem Operator.kind_of_onNumbers {x y z : Number} (h : op.onNumbers x y = .ok (.number z)) :
    z.kind = x.kind.join y.kind := by
  have integral : ∀ f : Number → Number → Number, (f x y).kind = x.kind.join y.kind →
      onIntegral f x y = .ok (.number z) → z.kind = x.kind.join y.kind := by
    intro f hf hz
    unfold onIntegral at hz
    split at hz <;> cases hz
    exact hf
  cases op with
  | add | sub | mul => cases h; rfl
  | quo =>
    simp only [onNumbers] at h
    split at h
    · cases h
    · split at h <;> cases h
      exact Number.quo?_kind ‹_›
  | rem =>
    simp only [onNumbers] at h
    split at h
    · cases h
    · exact integral _ (Number.rem_kind x y) h
  | and | or | xor | andNot => exact integral _ rfl h
  | lt | le | gt | ge =>
    simp only [onNumbers] at h
    split at h <;> cases h
  | eq | ne | logicalAnd | logicalOr => cases h

/-- **The tag of the common kind changes nothing**: two numbers are combined as the operator
combines them. -/
theorem UntypedConst.operate_numbers (op : Operator) (x y : Number) :
    operate op (.number (x.kind.join y.kind)) (.number x) (.number y) = op.onNumbers x y := by
  simp only [operate]
  cases hop : op.onNumbers x y with
  | error e => rfl
  | ok c =>
    cases c with
    | number z =>
      -- the result is of that kind before it is tagged
      simp only [Except.map, withKind,
        Number.withKind_eq_self (Operator.kind_of_onNumbers hop)]
    | _ => rfl

/-- **The outcomes of an operation on untyped constants.** -/
theorem foldUntyped_cases (op : Operator) (a b : UntypedConst) (place : OperationSpan) :
    (∃ kind c, a.kind.promote b.kind = .ok kind ∧ a.operate op kind b = .ok c ∧
      foldUntyped op a b place = ⟨some (.untyped c), []⟩) ∨
    (foldUntyped op a b place).errors ≠ [] ∧
      ∀ c, (foldUntyped op a b place).value = some c → ∃ u, c = .untyped u := by
  unfold foldUntyped
  cases a.kind.promote b.kind with
  | error misfits => exact .inr (by simp [Folded.failed])
  | ok kind =>
    cases hop : a.operate op kind b with
    | ok c => exact .inl ⟨kind, c, rfl, hop, by simp only [hop]⟩
    | error e =>
      refine .inr ?_
      simp only [hop]
      cases e <;> simp [Folded.failed, Const.number, eq_comm]

/-- **The outcomes of an operation on a typed and an untyped constant.** -/
theorem foldMixed_cases (op : Operator) (v : TypedValue) (u : UntypedConst) (side : Side)
    (word : WordSize) (place : OperationSpan) :
    (u.kind.convertsTo v.ty ∧ op.definedOn v.ty ∧
      foldMixed op v u side word place = .after place (u.narrow v.ty word).2
        (foldAt op (side.pick v (u.narrow v.ty word).1) (side.pick (u.narrow v.ty word).1 v) v.ty
          word place)) ∨
    ¬(u.kind.convertsTo v.ty ∧ op.definedOn v.ty) ∧
      (foldMixed op v u side word place).value = none ∧
      (foldMixed op v u side word place).errors ≠ [] := by
  unfold foldMixed
  by_cases hconv : u.kind.convertsTo v.ty
  · by_cases hdef : op.definedOn v.ty
    · exact .inl ⟨hconv, hdef, by simp [hconv, hdef]⟩
    · exact .inr ⟨fun h => hdef h.2, by simp [hconv, hdef, Folded.failed]⟩
  · exact .inr ⟨fun h => hconv h.1, by simp [hconv, Folded.failed]⟩

/-- **The outcomes of an operation on typed constants.** -/
theorem foldTyped_cases (op : Operator) (a b : TypedValue) (word : WordSize)
    (place : OperationSpan) :
    (∃ ty, commonType? a.ty b.ty = some ty ∧ op.definedOn ty ∧
      foldTyped op a b word place = foldAt op a b ty word place) ∨
    (∀ ty, commonType? a.ty b.ty = some ty → ¬op.definedOn ty) ∧
      (foldTyped op a b word place).value = none ∧
      (foldTyped op a b word place).errors ≠ [] := by
  unfold foldTyped
  cases hcommon : commonType? a.ty b.ty with
  | none =>
    refine .inr ⟨?_, rfl, List.cons_ne_nil _ _⟩
    rintro _ ⟨⟩
  | some ty =>
    by_cases hdef : op.definedOn ty
    · exact .inl ⟨ty, rfl, hdef, by simp [hdef]⟩
    · refine .inr ⟨?_, by simp [hdef, Folded.failed]⟩
      rintro _ ⟨⟩
      exact hdef

end

/-! ## Builtins -/

namespace Builtin

section

variable {α β : Type} {b : Builtin} {args : List Arg}

/-- A call that goes on with what a step yields. -/
theorem bind_eq_ok {r : Except BuiltinError α} {f : α → Except BuiltinError β} {y : β} :
    r >>= f = .ok y ↔ ∃ x, r = .ok x ∧ f x = .ok y := by
  cases r with
  | error e => simp [bind, Except.bind]
  | ok x => simp [bind, Except.bind]

theorem map_eq_ok {r : Except BuiltinError α} {f : α → β} {y : β} :
    r.map f = .ok y ↔ ∃ x, r = .ok x ∧ f x = y := by
  cases r with
  | error e => simp [Except.map]
  | ok x => simp [Except.map]

/-- A result to which the store is added. -/
theorem eq_ok_of_map {r : Except BuiltinError Const} {store s : Store} {c : Const}
    (h : r.map (fun c => (c, store)) = .ok (c, s)) : r = .ok c := by
  obtain ⟨d, hd, heq⟩ := map_eq_ok.1 h
  cases heq
  exact hd

theorem one_eq_ok {a : Arg} : one b args = .ok a ↔ args = [a] := by
  unfold one
  split <;> simp_all

theorem two_eq_ok {p : Arg × Arg} : two b args = .ok p ↔ args = [p.1, p.2] := by
  unfold two
  split <;> simp_all [Prod.ext_iff]

end

section

variable {word : WordSize} {args : List Arg} {c : Const}

/-- The complex types, and the types of their parts. -/
theorem partType?_cases {ty part : Ty} (h : partType? ty = some part) :
    (ty.underlying = .complex128 ∧ part = .float64) ∨
      (ty.underlying = .complex64 ∧ part = .float32) := by
  unfold partType? at h
  split at h
  · rename_i hu; exact .inl ⟨hu, by simpa using h.symm⟩
  · rename_i hu; exact .inr ⟨hu, by simpa using h.symm⟩
  · cases h

/-- Two constants that are complex together are floats of the type of the parts. -/
theorem complexOf?_eq_some {re im : Const} {v : TypedValue} (h : complexOf? word re im = some v) :
    ∃ b part x y, partType? (.basic b) = some part ∧ re.float? part word = some x ∧
      im.float? part word = some y ∧ v = ⟨.basic b, .complex x y⟩ := by
  unfold complexOf? at h
  simp only [Option.or_eq_some_iff, Option.bind_eq_bind, Option.bind_eq_some_iff, Option.pure_def,
    Option.some.injEq] at h
  rcases h with ⟨x, hx, y, hy, rfl⟩ | ⟨-, x, hx, y, hy, rfl⟩
  · exact ⟨.complex128, .float64, x, y, rfl, hx, hy, rfl⟩
  · exact ⟨.complex64, .float32, x, y, rfl, hx, hy, rfl⟩

/-- **What `complex` yields**: an untyped number of two, or a complex value of two constants that
are not both untyped numbers. -/
theorem complexCall_cases (h : complexCall word args = .ok c) :
    ∃ re im, args = [re, im] ∧
      ((∃ r i, re.const? = some (.untyped (.number r)) ∧ im.const? = some (.untyped (.number i)) ∧
          c = .number (.ofParts r.re i.re)) ∨
        ∃ r i v, re.const? = some r ∧ im.const? = some i ∧
          (∀ m n, r = .untyped (.number m) → i ≠ .untyped (.number n)) ∧
          complexOf? word r i = some v ∧ c = .typed v) := by
  obtain ⟨⟨re, im⟩, hargs, hval⟩ := bind_eq_ok.1 h
  refine ⟨re, im, two_eq_ok.1 hargs, ?_⟩
  simp only at hval
  split at hval
  · rename_i r i hr hi
    split at hval
    · cases hval
      exact .inl ⟨r, i, hr, hi, rfl⟩
    · cases hval
  · rename_i r i hnumbers hr hi
    split at hval
    · rename_i v hv
      cases hval
      exact .inr ⟨r, i, v, hr, hi, hnumbers, hv, rfl⟩
    · cases hval
  · cases hval

/-- **What `real` and `imag` yield**: a part of an untyped number, or of a complex value. -/
theorem partCall_cases {b : Builtin} {exact : Number → Number}
    {pick : FloatValue × FloatValue → FloatValue} (h : partCall b exact pick args = .ok c) :
    ∃ a, args = [a] ∧
      ((∃ n, a.const? = some (.untyped (.number n)) ∧ c = .number (exact n)) ∨
        ∃ v part parts, a.const? = some (.typed v) ∧ partType? v.ty = some part ∧
          v.complex? = some parts ∧ c = .typed ⟨part, .float (pick parts)⟩) := by
  obtain ⟨a, hargs, hval⟩ := bind_eq_ok.1 h
  refine ⟨a, one_eq_ok.1 hargs, ?_⟩
  split at hval
  · rename_i n hn
    cases hval
    exact .inl ⟨n, hn, rfl⟩
  · rename_i v hv
    split at hval
    · rename_i part parts hpart hparts
      cases hval
      exact .inr ⟨v, part, parts, hv, hpart, hparts, rfl⟩
    · cases hval
  · cases hval

/-- **What `len` yields**: the length of an untyped string or of a typed value. -/
theorem lenCall_cases (h : lenCall args = .ok c) :
    ∃ a n, args = [a] ∧ c = lengthConst n ∧
      ((∃ s, a.const? = some (.untyped (.string s))) ∨
        ∃ v, a.const? = some (.typed v) ∧ length? v = some n) := by
  obtain ⟨a, hargs, hval⟩ := bind_eq_ok.1 h
  split at hval
  · rename_i s hs
    cases hval
    exact ⟨a, _, one_eq_ok.1 hargs, rfl, .inl ⟨s, hs⟩⟩
  · rename_i v hv
    split at hval
    · rename_i n hn
      cases hval
      exact ⟨a, n, one_eq_ok.1 hargs, rfl, .inr ⟨v, hv, hn⟩⟩
    · cases hval
  · cases hval

/-- **What `cap` yields**: the capacity of a typed value. -/
theorem capCall_cases (h : capCall args = .ok c) :
    ∃ a v n, args = [a] ∧ a.const? = some (.typed v) ∧ capacity? v = some n ∧
      c = lengthConst n := by
  obtain ⟨a, hargs, hval⟩ := bind_eq_ok.1 h
  split at hval
  · rename_i v hv
    split at hval
    · rename_i n hn
      cases hval
      exact ⟨a, v, n, one_eq_ok.1 hargs, hv, hn, rfl⟩
    · cases hval
  · cases hval

end

end Builtin

end ConstCheck
