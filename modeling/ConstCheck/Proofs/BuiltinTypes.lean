import ConstCheck.Proofs.Fits

/-!
# The two sides of a builtin

A builtin has a value where the values of its arguments are known, and types of its results where
only the types of the arguments are. The sides are written apart: one goes by the shape of a value,
the other by its type. They are compared on arguments whose values have the shapes of their types.

* `Value.OfShape`, `TypedValue.WellShaped`: a value has the shape of its type, names seen through;
  no shape is that of an interface.
* `Arg.Sound`, `Arg.Settled`: what an argument's value says about its type is what is known of it;
  an argument is a type or a typed value of its shape.
* `Builtin.partCall_type` and its like: builtin by builtin, a value has the type of the result.
* `Builtin.resultTypes_of_call` (every builtin, all arguments): **the type of a builtin's value is
  the type of its result**.
-/

namespace ConstCheck

/-! ## Shapes of values -/

/-- A value has the shape of a nameless type. What is inside a composite value is left open; there
is no shape of an interface. -/
inductive Value.OfShape : Ty → Value → Prop
  | int {b : BasicType} (hb : b.category = .signed) (i : ℤ) : OfShape (.basic b) (.int i)
  | uint {b : BasicType} (hb : b.category = .unsigned) (n : ℕ) : OfShape (.basic b) (.uint n)
  | float {b : BasicType} (hb : b.category = .float) (x : FloatValue) :
      OfShape (.basic b) (.float x)
  | complex {b : BasicType} (hb : b.category = .complex) (re im : FloatValue) :
      OfShape (.basic b) (.complex re im)
  | str (s : String) : OfShape .string (.str s)
  | bool (b : Bool) : OfShape .bool (.bool b)
  | array {n : ℕ} {elem : Ty} (elems : List Value) : OfShape (.array n elem) (.array elems)
  | slice {elem : Ty} (elems : List Value) (room : ℕ) : OfShape (.slice elem) (.slice elems room)
  | map {key elem : Ty} (entries : List (Value × Value)) : OfShape (.map key elem) (.map entries)
  | pointer {elem : Ty} (cell : Cell) : OfShape (.pointer elem) (.pointer cell)
  | func {params results : List Ty} {variadic : Bool} (name : Name) :
      OfShape (.func params results variadic) (.func name)
  | package (name : Name) : OfShape .package (.package name)
  | nil {ty : Ty} (hnil : ty.isNilable) (hty : ∀ i, ty ≠ .interface i) : OfShape ty .nil

/-- A value has the shape of its type. -/
def TypedValue.WellShaped (v : TypedValue) : Prop := v.value.OfShape v.ty.underlying

@[simp]
theorem Ty.isNilable_underlying (ty : Ty) : ty.underlying.isNilable = ty.isNilable := by
  simp only [isNilable, category_underlying]

@[simp]
theorem Ty.hasLength_underlying (ty : Ty) : ty.underlying.hasLength = ty.hasLength := by
  simp only [hasLength, underlying_underlying, category_underlying]

@[simp]
theorem Ty.hasCapacity_underlying (ty : Ty) : ty.underlying.hasCapacity = ty.hasCapacity := by
  simp only [hasCapacity, underlying_underlying]

namespace TypedValue

variable {v : TypedValue} {b : BasicType} {elem : Ty}

/-- A value of a float type is a float. -/
theorem WellShaped.float? (h : v.WellShaped) (hu : v.ty.underlying = .basic b)
    (hb : b.category = .float) : ∃ x, v.float? = some x := by
  obtain ⟨ty, value⟩ := v
  simp only at hu
  simp only [WellShaped, hu] at h
  cases h with
  | float _ x => exact ⟨x, rfl⟩
  | nil hnil => simp [Ty.isNilable, Ty.category, hb] at hnil
  | _ => simp_all [BasicType.category]

/-- A value of a complex type is complex. -/
theorem WellShaped.complex? (h : v.WellShaped) (hu : v.ty.underlying = .basic b)
    (hb : b.category = .complex) : ∃ parts, v.complex? = some parts := by
  obtain ⟨ty, value⟩ := v
  simp only at hu
  simp only [WellShaped, hu] at h
  cases h with
  | complex _ re im => exact ⟨(re, im), rfl⟩
  | nil hnil => simp [Ty.isNilable, Ty.category, hb] at hnil
  | _ => simp_all [BasicType.category]

/-- A value of a slice type is a slice, or nil. -/
theorem WellShaped.slice (h : v.WellShaped) (hu : v.ty.underlying = .slice elem) :
    (∃ elems room, v.value = .slice elems room) ∨ v.value = .nil := by
  obtain ⟨ty, value⟩ := v
  simp only at hu
  simp only [WellShaped, hu] at h
  cases h with
  | slice elems room => exact .inl ⟨elems, room, rfl⟩
  | nil => exact .inr rfl

/-- **A value has a length if its type has lengths.** -/
theorem WellShaped.length? (h : v.WellShaped) :
    (Builtin.length? v).isSome = v.ty.hasLength := by
  obtain ⟨ty, value⟩ := v
  simp only [WellShaped] at h
  simp only [Builtin.length?]
  rw [← Ty.hasLength_underlying, ← Ty.isNilable_underlying]
  generalize ty.underlying = u at h
  cases h with
  | int hb | uint hb | float hb | complex hb =>
    simp [Ty.hasLength, Ty.underlying, Ty.category, hb]
  | nil hnil => cases hlen : u.hasLength <;> simp [hnil]
  | _ => rfl

/-- **A value has a capacity if its type has capacities.** -/
theorem WellShaped.capacity? (h : v.WellShaped) :
    (Builtin.capacity? v).isSome = v.ty.hasCapacity := by
  obtain ⟨ty, value⟩ := v
  simp only [WellShaped] at h
  simp only [Builtin.capacity?]
  rw [← Ty.hasCapacity_underlying]
  generalize ty.underlying = u at h
  cases h with
  | nil hnil => cases hcap : u.hasCapacity <;> simp
  | _ => rfl

end TypedValue

/-! ## Arguments -/

/-- An argument with a value has the type of that value, and a typed value the shape of its type. -/
structure Arg.Sound (a : Arg) : Prop where
  known : ∀ c, a.const? = some c → a.known? = some c.knownType
  shape : ∀ v, a.const? = some (.typed v) → v.WellShaped

/-- A type, or a typed value of its type's shape. -/
inductive Arg.Settled : Arg → Prop
  | type (ty : Ty) : Settled (.type ty)
  | value {v : TypedValue} (h : v.WellShaped) : Settled (.ofConst (.typed v))

theorem Arg.Settled.sound {a : Arg} (h : a.Settled) : a.Sound := by
  cases h with
  | type ty => exact ⟨nofun, nofun⟩
  | @value v hv =>
    constructor
    · intro c hc
      cases hc
      rfl
    · intro w hw
      cases hw
      exact hv

/-- A settled argument of a known type is a value of it. -/
theorem Arg.Settled.of_ty? {a : Arg} {ty : Ty} (h : a.Settled) (hty : a.ty? = some ty) :
    ∃ v : TypedValue, a = .ofConst (.typed v) ∧ v.ty = ty ∧ v.WellShaped := by
  cases h with
  | type => cases hty
  | @value v hv => cases hty; exact ⟨v, rfl, rfl, hv⟩

/-- A typed constant is used as a float of its own type. -/
theorem Const.underlying_of_float? {v : TypedValue} {ty : Ty} {word : WordSize}
    {x : FloatValue} (h : (Const.typed v).float? ty word = some x) : v.ty.underlying = ty := by
  by_contra hne
  simp [float?, hne] at h

/-- Only a number is passed as a float. -/
theorem UntypedConst.eq_number_of_pass? {u : UntypedConst} {ty : Ty} {word : WordSize}
    {v : TypedValue} (hty : ty.category = .float) (h : u.pass? ty word = some v) :
    ∃ n, u = .number n := by
  have hconv : u.kind.convertsTo ty := by
    by_contra hne
    simp [pass?, hne] at h
  cases u with
  | number n => exact ⟨n, rfl⟩
  | string _ | bool _ => simp [Kind.convertsTo, UntypedConst.kind, hty] at hconv
  | nil => simp [Kind.convertsTo, UntypedConst.kind, Ty.isNilable, hty] at hconv

namespace Builtin

/-! ## Values have the types of results -/

section

variable {word : WordSize} {b : Builtin} {args : List Arg} {c : Const}

/-- A part of a number is an untyped float, and a part of a complex value a float of that width. -/
theorem partCall_type {exact : Number → Number} {pick : FloatValue × FloatValue → FloatValue}
    (hexact : ∀ n, (exact n).kind = .float) (hargs : ∀ a ∈ args, a.Sound)
    (h : partCall b exact pick args = .ok c) : partResult b args = .ok c.knownType := by
  obtain ⟨a, rfl, hcases⟩ := partCall_cases h
  have hknown := (hargs a (by simp)).known
  refine bind_eq_ok.2 ⟨a, rfl, ?_⟩
  rcases hcases with ⟨n, hn, rfl⟩ | ⟨v, part, parts, hv, hpart, -, rfl⟩
  · have hfloat : (Const.number (exact n)).knownType = .untyped (.number .float) := by
      simp only [Const.number, Const.knownType, UntypedConst.kind, hexact]
    rw [hknown _ hn, hfloat]
    rfl
  · simp only [hknown _ hv, Const.knownType, hpart]
    rfl

theorem lenCall_type (hargs : ∀ a ∈ args, a.Sound) (h : lenCall args = .ok c) :
    lenResult args = .ok c.knownType := by
  obtain ⟨a, n, rfl, rfl, hcases⟩ := lenCall_cases h
  obtain ⟨hknown, hshape⟩ := hargs a (by simp)
  refine bind_eq_ok.2 ⟨a, rfl, ?_⟩
  rcases hcases with ⟨s, hs⟩ | ⟨v, hv, hn⟩
  · simp only [hknown _ hs]
    rfl
  · have hlen : v.ty.hasLength := by rw [← (hshape v hv).length?, hn]; rfl
    simp only [hknown _ hv, Const.knownType, hlen, if_true]
    rfl

theorem capCall_type (hargs : ∀ a ∈ args, a.Sound) (h : capCall args = .ok c) :
    capResult args = .ok c.knownType := by
  obtain ⟨a, v, n, rfl, hv, hn, rfl⟩ := capCall_cases h
  obtain ⟨hknown, hshape⟩ := hargs a (by simp)
  have hcap : v.ty.hasCapacity := by rw [← (hshape v hv).capacity?, hn]; rfl
  have hty : a.ty? = some v.ty := by rw [Arg.ty?, hknown _ hv]; rfl
  refine bind_eq_ok.2 ⟨a, rfl, ?_⟩
  simp only [hty, hcap, if_true]
  rfl

theorem appendCall_type (h : appendCall word args = .ok c) :
    appendResult args = .ok c.knownType := by
  obtain ⟨⟨s, x⟩, htwo, h⟩ := bind_eq_ok.1 h
  obtain ⟨⟨ty, elem⟩, hslice, h⟩ := bind_eq_ok.1 h
  obtain ⟨v, -, h⟩ := bind_eq_ok.1 h
  have hc : c.knownType = .typed ty := by
    split at h
    · cases h; rfl
    · cases h; rfl
    · cases h
  refine bind_eq_ok.2 ⟨(s, x), htwo, bind_eq_ok.2 ⟨(ty, elem), hslice, ?_⟩⟩
  rw [hc]
  rfl

theorem newCall_type {store s : Store} (h : newCall store args = .ok (c, s)) :
    newResult args = .ok c.knownType := by
  obtain ⟨a, ha, h⟩ := bind_eq_ok.1 h
  refine bind_eq_ok.2 ⟨a, ha, ?_⟩
  cases a with
  | type ty => cases h; rfl
  | value => cases h

/-- **What a constant that is used as a float brings to a complex number**: the complex type of
that width if it is typed, else it is a number and brings none. -/
theorem complexWidth?_of_float? {a : Arg} {d : Const} {b : BasicType} {part : Ty} (ha : a.Sound)
    (hd : a.const? = some d) (hpart : partType? (.basic b) = some part)
    {x : FloatValue} (hx : d.float? part word = some x) :
    (∃ v, d = .typed v ∧ complexWidth? a = some (some (.basic b))) ∨
      ∃ n, d = .untyped (.number n) ∧ complexWidth? a = some none := by
  have hknown := ha.known d hd
  cases d with
  | typed v =>
    have hu := Const.underlying_of_float? hx
    refine .inl ⟨v, rfl, ?_⟩
    rcases partType?_cases hpart with ⟨hb, rfl⟩ | ⟨hb, rfl⟩
    · cases hb
      simp only [complexWidth?, hknown, Const.knownType, hu]
    · cases hb
      simp only [complexWidth?, hknown, Const.knownType, hu]
  | untyped u =>
    have hcat : part.category = .float := by
      rcases partType?_cases hpart with ⟨-, rfl⟩ | ⟨-, rfl⟩ <;> rfl
    obtain ⟨v, hv, -⟩ := Option.bind_eq_some_iff.1 hx
    obtain ⟨n, rfl⟩ := UntypedConst.eq_number_of_pass? hcat hv
    refine .inr ⟨n, rfl, ?_⟩
    simp only [complexWidth?, hknown, Const.knownType]
    rfl

theorem complexCall_type (hargs : ∀ a ∈ args, a.Sound) (h : complexCall word args = .ok c) :
    complexResult args = .ok c.knownType := by
  obtain ⟨re, im, rfl, hcases⟩ := complexCall_cases h
  have hre := hargs re (by simp)
  have him := hargs im (by simp)
  refine bind_eq_ok.2 ⟨(re, im), rfl, ?_⟩
  rcases hcases with ⟨r, i, hr, hi, rfl⟩ | ⟨r, i, v, hr, hi, hnumbers, hv, rfl⟩
  · have hwre : complexWidth? re = some none := by
      simp only [complexWidth?, hre.known _ hr, Const.knownType]
      rfl
    have hwim : complexWidth? im = some none := by
      simp only [complexWidth?, him.known _ hi, Const.knownType]
      rfl
    simp only [hwre, hwim]
    rfl
  · obtain ⟨b, part, x, y, hpart, hx, hy, rfl⟩ := complexOf?_eq_some hv
    -- the width is said by the parts that are typed; not both of them are untyped
    rcases complexWidth?_of_float? hre hr hpart hx with ⟨v, rfl, hwre⟩ | ⟨m, rfl, hwre⟩ <;>
      rcases complexWidth?_of_float? him hi hpart hy with ⟨w, rfl, hwim⟩ | ⟨n, rfl, hwim⟩
    · simp only [hwre, hwim]; rfl
    · simp only [hwre, hwim]; rfl
    · simp only [hwre, hwim]; rfl
    · exact absurd rfl (hnumbers m n rfl)

/-- **The type of a builtin's value is the type of its result**, for every builtin, word size and
store. If what is known of each argument with a value is the type of that value, and typed values
have the shapes of their types, then a call that yields a value has one result, of the type of that
value. -/
theorem resultTypes_of_call {store s : Store} (hargs : ∀ a ∈ args, a.Sound)
    (h : b.call word store args = .ok (c, s)) : b.resultTypes args = .ok [c.knownType] := by
  cases b with
  | complex =>
    have htype := complexCall_type hargs (eq_ok_of_map h)
    exact map_eq_ok.2 ⟨_, htype, rfl⟩
  | real =>
    have htype := partCall_type (fun _ => rfl) hargs (eq_ok_of_map h)
    exact map_eq_ok.2 ⟨_, htype, rfl⟩
  | imag =>
    have htype := partCall_type (fun _ => rfl) hargs (eq_ok_of_map h)
    exact map_eq_ok.2 ⟨_, htype, rfl⟩
  | len =>
    have htype := lenCall_type hargs (eq_ok_of_map h)
    exact map_eq_ok.2 ⟨_, htype, rfl⟩
  | cap =>
    have htype := capCall_type hargs (eq_ok_of_map h)
    exact map_eq_ok.2 ⟨_, htype, rfl⟩
  | append =>
    have htype := appendCall_type (eq_ok_of_map h)
    exact map_eq_ok.2 ⟨_, htype, rfl⟩
  | new =>
    have htype := newCall_type h
    exact map_eq_ok.2 ⟨_, htype, rfl⟩
  | panic =>
    obtain ⟨a, -, hfail⟩ := bind_eq_ok.1 (eq_ok_of_map h)
    cases hfail

end

/-- The untyped number one and a float of a named type over `float32` make a `complex64`. -/
theorem resultTypes_of_call_named : ∃ (args : List Arg) (c : Const) (s : Store),
    (∀ a ∈ args, a.Sound) ∧ complex.call .bits64 .empty args = .ok (c, s) ∧
    complex.resultTypes args = .ok [c.knownType] ∧ c.knownType = .typed .complex64 := by
  let celsius : TypedValue := ⟨.named "Celsius" .float32, .float .zero⟩
  let args : List Arg := [.ofConst (.number (.ofInt 1)), .ofConst (.typed celsius)]
  have hargs : ∀ a ∈ args, a.Sound := by
    intro a ha
    simp only [args, List.mem_cons, List.not_mem_nil, or_false] at ha
    rcases ha with rfl | rfl
    · exact ⟨fun c hc => by cases hc; rfl, nofun⟩
    · have hshape : celsius.WellShaped := Value.OfShape.float rfl _
      exact (Arg.Settled.value hshape).sound
  have hsome : (complex.call .bits64 .empty args).toOption.isSome := by decide +kernel
  have htypes : complex.resultTypes args = .ok [.typed .complex64] := rfl
  cases hcall : complex.call .bits64 .empty args with
  | error e => rw [hcall] at hsome; cases hsome
  | ok r =>
    have hagree := resultTypes_of_call hargs hcall
    have hty : r.1.knownType = .typed .complex64 := by
      rw [htypes] at hagree
      simpa using hagree.symm
    exact ⟨args, r.1, r.2, hargs, hcall, hagree, hty⟩

end Builtin

end ConstCheck
