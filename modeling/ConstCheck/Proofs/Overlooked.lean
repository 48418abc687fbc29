import ConstCheck.Proofs.BuiltinTypes

/-!
# What the types of results overlook

A builtin whose arguments are not all known is checked by the types of its results alone. They
should be accepted only where the builtin can have a value. But there are two mixes that they do not
look at: `complex` takes floats of two widths, and `append` takes any element.

* `Builtin.Overlooks`: the two mixes.
* `Builtin.partCall_ok_iff` and its like: builtin by builtin, where the two sides agree.
* `Builtin.call_ok_iff` (every builtin but `panic`, all arguments of known types): **a builtin has a
  value where its result types are accepted and overlook nothing**.
* `Builtin.resultTypes_accepts_unusable`: both mixes are accepted.
-/

namespace ConstCheck

namespace Builtin

/-- What the types of results say nothing of: the widths of two floats that make a complex number,
and the element that is appended to a slice. -/
inductive Overlooks : Builtin → List Arg → Prop
  | widths {re im : Arg} {s t : Ty} (hs : re.ty? = some s) (ht : im.ty? = some t)
      (hne : s.underlying ≠ t.underlying) : Overlooks complex [re, im]
  | element {s x : Arg} {ty elem : Ty} (hs : s.ty? = some ty) (hu : ty.underlying = .slice elem)
      (hx : ∀ t, x.ty? = some t → ¬t.assignableTo elem) : Overlooks append [s, x]

section

variable {word : WordSize} {b : Builtin} {args : List Arg}

theorem exists_map_ok {α β : Type} {r : Except BuiltinError α} {f : α → β} :
    (∃ y, r.map f = .ok y) ↔ ∃ x, r = .ok x := by
  constructor
  · rintro ⟨y, hy⟩
    obtain ⟨x, hx, -⟩ := map_eq_ok.1 hy
    exact ⟨x, hx⟩
  · rintro ⟨x, hx⟩
    exact ⟨f x, map_eq_ok.2 ⟨x, hx, rfl⟩⟩

theorem partCall_ok_iff {exact : Number → Number} {pick : FloatValue × FloatValue → FloatValue}
    (hexact : ∀ n, (exact n).kind = .float) (hargs : ∀ a ∈ args, a.Settled) :
    (∃ c, partCall b exact pick args = .ok c) ↔ ∃ k, partResult b args = .ok k := by
  constructor
  · rintro ⟨c, hc⟩
    exact ⟨_, partCall_type hexact (fun a ha => (hargs a ha).sound) hc⟩
  · rintro ⟨k, hk⟩
    obtain ⟨a, ha, hval⟩ := bind_eq_ok.1 hk
    obtain rfl := one_eq_ok.1 ha
    cases hargs a (by simp) with
    | type => cases hval
    | @value v hv =>
      simp only [Arg.known?, Arg.ofConst, Const.knownType] at hval
      split at hval
      · rename_i part hpart
        have hparts : ∃ parts, v.complex? = some parts := by
          rcases partType?_cases hpart with ⟨hu, -⟩ | ⟨hu, -⟩
          · exact hv.complex? hu rfl
          · exact hv.complex? hu rfl
        obtain ⟨parts, hparts⟩ := hparts
        refine ⟨.typed ⟨part, .float (pick parts)⟩, bind_eq_ok.2 ⟨_, ha, ?_⟩⟩
        simp only [Arg.const?, Arg.ofConst, hpart, hparts]
        rfl
      · cases hval

theorem lenCall_ok_iff (hargs : ∀ a ∈ args, a.Settled) :
    (∃ c, lenCall args = .ok c) ↔ ∃ k, lenResult args = .ok k := by
  constructor
  · rintro ⟨c, hc⟩
    exact ⟨_, lenCall_type (fun a ha => (hargs a ha).sound) hc⟩
  · rintro ⟨k, hk⟩
    obtain ⟨a, ha, hval⟩ := bind_eq_ok.1 hk
    obtain rfl := one_eq_ok.1 ha
    cases hargs a (by simp) with
    | type => cases hval
    | @value v hv =>
      simp only [Arg.known?, Arg.ofConst, Const.knownType] at hval
      split at hval
      · rename_i hlen
        rw [← hv.length?] at hlen
        obtain ⟨n, hn⟩ := Option.isSome_iff_exists.1 hlen
        refine ⟨lengthConst n, bind_eq_ok.2 ⟨_, ha, ?_⟩⟩
        simp only [Arg.const?, Arg.ofConst, hn]
        rfl
      · cases hval

theorem capCall_ok_iff (hargs : ∀ a ∈ args, a.Settled) :
    (∃ c, capCall args = .ok c) ↔ ∃ k, capResult args = .ok k := by
  constructor
  · rintro ⟨c, hc⟩
    exact ⟨_, capCall_type (fun a ha => (hargs a ha).sound) hc⟩
  · rintro ⟨k, hk⟩
    obtain ⟨a, ha, hval⟩ := bind_eq_ok.1 hk
    obtain rfl := one_eq_ok.1 ha
    split at hval
    · rename_i ty hty
      obtain ⟨v, rfl, rfl, hv⟩ := (hargs a (by simp)).of_ty? hty
      split at hval
      · rename_i hcap
        rw [← hv.capacity?] at hcap
        obtain ⟨n, hn⟩ := Option.isSome_iff_exists.1 hcap
        refine ⟨lengthConst n, bind_eq_ok.2 ⟨_, ha, ?_⟩⟩
        simp only [Arg.const?, Arg.ofConst, hn]
        rfl
      · cases hval
    · cases hval

theorem newCall_ok_iff {store : Store} :
    (∃ r, newCall store args = .ok r) ↔ ∃ k, newResult args = .ok k := by
  constructor
  · rintro ⟨⟨c, s⟩, hc⟩
    exact ⟨_, newCall_type hc⟩
  · rintro ⟨k, hk⟩
    obtain ⟨a, ha, hval⟩ := bind_eq_ok.1 hk
    cases a with
    | type ty => exact ⟨_, bind_eq_ok.2 ⟨_, ha, rfl⟩⟩
    | value => cases hval

/-- Two floats of one width, which is that of the parts of a complex type, are a complex value. -/
theorem complexOf?_isSome (word : WordSize) {v w : TypedValue} (hv : v.WellShaped)
    (hw : w.WellShaped) (hfloat : v.ty.underlying = .float64 ∨ v.ty.underlying = .float32)
    (hsame : v.ty.underlying = w.ty.underlying) :
    (complexOf? word (.typed v) (.typed w)).isSome := by
  have hw' := hsame.symm
  rcases hfloat with hu | hu
  · rw [hu] at hw'
    obtain ⟨x, hx⟩ := hv.float? hu rfl
    obtain ⟨y, hy⟩ := hw.float? hw' rfl
    simp [complexOf?, Const.float?, hu, hw', hx, hy]
  · rw [hu] at hw'
    obtain ⟨x, hx⟩ := hv.float? hu rfl
    obtain ⟨y, hy⟩ := hw.float? hw' rfl
    simp [complexOf?, Const.float?, hu, hw', hx, hy]

/-- A settled part of a complex number is a float. -/
theorem exists_float_of_complexWidth? {a : Arg} (ha : a.Settled) (h : (complexWidth? a).isSome) :
    ∃ v : TypedValue, a = .ofConst (.typed v) ∧ v.WellShaped ∧
      (v.ty.underlying = .float64 ∨ v.ty.underlying = .float32) := by
  cases ha with
  | type => cases h
  | @value v hv =>
    refine ⟨v, rfl, hv, ?_⟩
    simp only [complexWidth?, Arg.known?, Arg.ofConst, Const.knownType] at h
    split at h
    · rename_i hu; exact .inr hu
    · rename_i hu; exact .inl hu
    · cases h

/-- **A complex number is made of what is accepted, if its parts are of one width.** -/
theorem complexCall_ok_iff (hargs : ∀ a ∈ args, a.Settled) :
    (∃ c, complexCall word args = .ok c) ↔
      (∃ k, complexResult args = .ok k) ∧ ¬complex.Overlooks args := by
  constructor
  · rintro ⟨c, hc⟩
    refine ⟨⟨_, complexCall_type (fun a ha => (hargs a ha).sound) hc⟩, fun hover => ?_⟩
    cases hover with
    | @widths re im s t hs ht hne =>
      obtain ⟨v, rfl, rfl, -⟩ := (hargs re (by simp)).of_ty? hs
      obtain ⟨w, rfl, rfl, -⟩ := (hargs im (by simp)).of_ty? ht
      obtain ⟨p, hp, hval⟩ := bind_eq_ok.1 hc
      cases hp
      simp only [Arg.const?, Arg.ofConst] at hval
      split at hval
      · rename_i z hz
        obtain ⟨b, part, x, y, -, hx, hy, -⟩ := complexOf?_eq_some hz
        exact hne ((Const.underlying_of_float? hx).trans (Const.underlying_of_float? hy).symm)
      · cases hval
  · rintro ⟨⟨k, hk⟩, hwidths⟩
    obtain ⟨⟨re, im⟩, htwo, hval⟩ := bind_eq_ok.1 hk
    obtain rfl := two_eq_ok.1 htwo
    have hparts : (complexWidth? re).isSome ∧ (complexWidth? im).isSome := by
      simp only at hval
      cases hre : complexWidth? re <;> cases him : complexWidth? im <;> simp_all
    obtain ⟨v, rfl, hv, hfloat⟩ := exists_float_of_complexWidth? (hargs _ (by simp)) hparts.1
    obtain ⟨w, rfl, hw, -⟩ := exists_float_of_complexWidth? (hargs _ (by simp)) hparts.2
    have hsame : v.ty.underlying = w.ty.underlying := by
      by_contra hne
      exact hwidths (.widths rfl rfl hne)
    obtain ⟨z, hz⟩ := Option.isSome_iff_exists.1 (complexOf?_isSome word hv hw hfloat hsame)
    refine ⟨.typed z, bind_eq_ok.2 ⟨_, htwo, ?_⟩⟩
    simp only [Arg.const?, Arg.ofConst, hz]
    rfl

theorem sliceType_eq_ok {a : Arg} {ty elem : Ty} :
    sliceType a = .ok (ty, elem) ↔ a.ty? = some ty ∧ ty.underlying = .slice elem := by
  unfold sliceType
  cases a.ty? with
  | none => simp
  | some t =>
    simp only [Option.some.injEq]
    split
    · rename_i e he
      simp only [Except.ok.injEq, Prod.mk.injEq]
      constructor
      · rintro ⟨rfl, rfl⟩
        exact ⟨rfl, he⟩
      · rintro ⟨rfl, hu⟩
        rw [he] at hu
        exact ⟨rfl, by simpa using hu⟩
    · rename_i hnot
      constructor
      · intro h
        cases h
      · rintro ⟨rfl, hu⟩
        exact absurd hu (hnot elem)

/-- What is appended is of a type that is assigned to the element type. -/
theorem elementOf_ok_iff {x : Arg} {elem : Ty} (hx : x.Settled) :
    (∃ v, elementOf word x elem = .ok v) ↔ ∃ t, x.ty? = some t ∧ t.assignableTo elem := by
  cases hx with
  | type => simp [elementOf, Arg.const?, Arg.ty?, Arg.known?]
  | @value v hv =>
    by_cases hassign : v.ty.assignableTo elem
    · simp [elementOf, Arg.const?, Arg.ofConst, Arg.ty?, Arg.known?, Const.knownType,
        KnownType.ty?, hassign]
    · simp [elementOf, Arg.const?, Arg.ofConst, Arg.ty?, Arg.known?, Const.knownType,
        KnownType.ty?, hassign]

/-- **An element is appended to what is accepted, if it is assigned to the element type.** -/
theorem appendCall_ok_iff (hargs : ∀ a ∈ args, a.Settled) :
    (∃ c, appendCall word args = .ok c) ↔
      (∃ k, appendResult args = .ok k) ∧ ¬append.Overlooks args := by
  constructor
  · rintro ⟨c, hc⟩
    refine ⟨⟨_, appendCall_type hc⟩, fun hover => ?_⟩
    cases hover with
    | @element s x ty elem hs hu hx =>
      obtain ⟨p, hp, hval⟩ := bind_eq_ok.1 hc
      cases hp
      obtain ⟨⟨ty', elem'⟩, hslice, hval⟩ := bind_eq_ok.1 hval
      obtain ⟨v, hv, -⟩ := bind_eq_ok.1 hval
      cases hslice.symm.trans (sliceType_eq_ok.2 ⟨hs, hu⟩)
      obtain ⟨t, ht, hassign⟩ := (elementOf_ok_iff (hargs x (by simp))).1 ⟨v, hv⟩
      exact hx t ht hassign
  · rintro ⟨⟨k, hk⟩, helement⟩
    obtain ⟨⟨s, x⟩, htwo, hval⟩ := bind_eq_ok.1 hk
    obtain rfl := two_eq_ok.1 htwo
    obtain ⟨⟨ty, elem⟩, hslice, -⟩ := bind_eq_ok.1 hval
    obtain ⟨hs, hu⟩ := sliceType_eq_ok.1 hslice
    have hassign : ∃ t, x.ty? = some t ∧ t.assignableTo elem := by
      by_contra hnone
      exact helement (.element hs hu fun t ht hassign => hnone ⟨t, ht, hassign⟩)
    have helem : ∃ e, elementOf word x elem = .ok e :=
      (elementOf_ok_iff (hargs x (by simp))).2 hassign
    obtain ⟨e, he⟩ := helem
    obtain ⟨v, rfl, rfl, hv⟩ := (hargs s (by simp)).of_ty? hs
    obtain ⟨vty, value⟩ := v
    rcases hv.slice hu with ⟨elems, room, rfl⟩ | rfl
    · exact ⟨_, bind_eq_ok.2 ⟨_, htwo, bind_eq_ok.2 ⟨_, hslice, bind_eq_ok.2 ⟨e, he, rfl⟩⟩⟩⟩
    · exact ⟨_, bind_eq_ok.2 ⟨_, htwo, bind_eq_ok.2 ⟨_, hslice, bind_eq_ok.2 ⟨e, he, rfl⟩⟩⟩⟩

/-- Nothing is overlooked of the arguments of the other builtins. -/
theorem not_overlooks (hcomplex : b ≠ complex) (happend : b ≠ append) : ¬b.Overlooks args := by
  intro h
  cases h with
  | widths => exact hcomplex rfl
  | element => exact happend rfl

/-- **What the types of results overlook.** On types, and typed values of the shapes of their types,
a builtin other than `panic` has a value exactly where its result types are accepted and it is not
given floats of two widths to make a complex number of, or an element of a slice that is not of a
type assignable to the type of the elements. -/
theorem call_ok_iff {store : Store} (hb : b ≠ panic) (hargs : ∀ a ∈ args, a.Settled) :
    (∃ r, b.call word store args = .ok r) ↔
      (∃ known, b.resultTypes args = .ok known) ∧ ¬b.Overlooks args := by
  -- both sides of a call add to a result; what they add does not decide whether there is one
  have sides : ∀ {call : Except BuiltinError Const} {result : Except BuiltinError KnownType}
      {P : Prop}, ((∃ c, call = .ok c) ↔ (∃ k, result = .ok k) ∧ P) →
      ((∃ r, (call.map fun c => (c, store)) = .ok r) ↔
        (∃ known, (result.map ([·])) = .ok known) ∧ P) := by
    intro call result P h
    rw [exists_map_ok, exists_map_ok]
    exact h
  cases b with
  | complex => exact sides (complexCall_ok_iff hargs)
  | append => exact sides (appendCall_ok_iff hargs)
  | real =>
    have hnone : ¬real.Overlooks args := not_overlooks nofun nofun
    have hparts : (∃ c, partCall real Number.realPart Prod.fst args = .ok c) ↔
        ∃ k, partResult real args = .ok k := partCall_ok_iff (fun _ => rfl) hargs
    exact sides (hparts.trans (and_iff_left hnone).symm)
  | imag =>
    have hnone : ¬imag.Overlooks args := not_overlooks nofun nofun
    have hparts : (∃ c, partCall imag Number.imagPart Prod.snd args = .ok c) ↔
        ∃ k, partResult imag args = .ok k := partCall_ok_iff (fun _ => rfl) hargs
    exact sides (hparts.trans (and_iff_left hnone).symm)
  | len =>
    have hnone : ¬len.Overlooks args := not_overlooks nofun nofun
    exact sides ((lenCall_ok_iff hargs).trans (and_iff_left hnone).symm)
  | cap =>
    have hnone : ¬cap.Overlooks args := not_overlooks nofun nofun
    exact sides ((capCall_ok_iff hargs).trans (and_iff_left hnone).symm)
  | new =>
    have hnone : ¬new.Overlooks args := not_overlooks nofun nofun
    rw [and_iff_left hnone]
    exact newCall_ok_iff.trans exists_map_ok.symm
  | panic => exact absurd rfl hb

end

/-- Two typed values as arguments. -/
theorem settled_values {v w : TypedValue} (hv : v.WellShaped) (hw : w.WellShaped) :
    ∀ a ∈ [Arg.ofConst (.typed v), .ofConst (.typed w)], a.Settled := by
  intro a ha
  simp only [List.mem_cons, List.not_mem_nil, or_false] at ha
  rcases ha with rfl | rfl
  · exact .value hv
  · exact .value hw

/-- Two floats of a named type and of the type below it are accepted, and are a complex number. -/
theorem call_ok_iff_named : ∃ args : List Arg, complex ≠ panic ∧ (∀ a ∈ args, a.Settled) ∧
    (∃ r, complex.call .bits32 .empty args = .ok r) ∧
    (∃ known, complex.resultTypes args = .ok known) ∧ ¬complex.Overlooks args := by
  let celsius : TypedValue := ⟨.named "Celsius" .float32, .float .zero⟩
  let degrees : TypedValue := ⟨.float32, .float .zero⟩
  have hcelsius : celsius.WellShaped := Value.OfShape.float rfl _
  have hdegrees : degrees.WellShaped := Value.OfShape.float rfl _
  have hargs := settled_values hcelsius hdegrees
  have hfoldable : complex ≠ panic := nofun
  have hcall : ∃ r, complex.call .bits32 .empty
      [.ofConst (.typed celsius), .ofConst (.typed degrees)] = .ok r := ⟨_, rfl⟩
  exact ⟨_, hfoldable, hargs, hcall, (call_ok_iff hfoldable hargs).1 hcall⟩

/-- **Types are accepted on which there is no value**: floats of two widths for `complex`, where the
second decides the type of the result, and a string for `append` to a slice of integers. -/
theorem resultTypes_accepts_unusable :
    (∃ args : List Arg, args.length = complex.arity ∧ (∀ a ∈ args, a.Settled) ∧
      complex.resultTypes args = .ok [.typed .complex128] ∧
      ∀ word store, ∃ e, complex.call word store args = .error e) ∧
    ∃ args : List Arg, args.length = append.arity ∧ (∀ a ∈ args, a.Settled) ∧
      append.resultTypes args = .ok [.typed (.slice .int)] ∧
      ∀ word store, ∃ e, append.call word store args = .error e := by
  let single : TypedValue := ⟨.float32, .float .zero⟩
  let double : TypedValue := ⟨.float64, .float .zero⟩
  let ints : TypedValue := ⟨.slice .int, .slice [] 0⟩
  let text : TypedValue := ⟨.string, .str "a"⟩
  have hsingle : single.WellShaped := Value.OfShape.float rfl _
  have hdouble : double.WellShaped := Value.OfShape.float rfl _
  have hints : ints.WellShaped := Value.OfShape.slice _ _
  have htext : text.WellShaped := Value.OfShape.str _
  refine ⟨⟨_, rfl, settled_values hsingle hdouble, rfl, ?_⟩,
    ⟨_, rfl, settled_values hints htext, rfl, ?_⟩⟩
  · intro word store
    exact ⟨_, rfl⟩
  · intro word store
    exact ⟨_, rfl⟩

end Builtin

end ConstCheck
