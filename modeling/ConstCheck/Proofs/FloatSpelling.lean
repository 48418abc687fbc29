import ConstCheck.Proofs.IntSpelling
import ConstCheck.Proofs.Rounding

/-!
# Which texts are float and imaginary literals

The grammar of floats: digits with a point or none, and an exponent, which a base-16 float must
have. Every digit after the point takes one off the exponent, or four in base 16, where the
exponent is of two. Reading a float accepts this grammar, short of powers that are too large to
write down, and rounds nothing. An imaginary literal is a float or a prefixed integer before an `i`,
and never both.

* `Literal.Mantissa`, `Literal.Exponent`, `Literal.FloatSpelling`: the grammar.
* `Literal.splitAtFirst?_eq_some_iff`: cutting a text at the first mark.
* `Literal.FloatSpelling.float?_eq`: **what is spelled is read**, as its digits times a power.
* `Literal.FloatSpelling.natAbs_le`: how large the exponent of a text can be.
* `Literal.imagBody_iff`: what stands before the `i`.
* `Literal.float?_imag?_eq_some_iff` (every text): **floats and imaginary literals are read
  exactly**.
-/

namespace ConstCheck.Literal

/-! ## Cutting at a mark -/

section

variable {p : Char → Bool} {cs front back : List Char}

theorem splitAtFirst?_eq_none_iff : splitAtFirst? p cs = none ↔ ∀ c ∈ cs, p c = false := by
  induction cs with
  | nil => simp [splitAtFirst?]
  | cons c cs ih =>
    rw [splitAtFirst?, List.forall_mem_cons, ← ih]
    cases p c <;> simp

/-- **A text is cut at the first mark**: what stands before it has none. -/
theorem splitAtFirst?_eq_some_iff :
    splitAtFirst? p cs = some (front, back) ↔
      ∃ c, p c ∧ cs = front ++ c :: back ∧ ∀ d ∈ front, p d = false := by
  constructor
  · intro h
    induction cs generalizing front with
    | nil => cases h
    | cons c cs ih =>
      rw [splitAtFirst?] at h
      split at h
      · rename_i hc
        cases h
        exact ⟨c, hc, rfl, by simp⟩
      · rename_i hc
        obtain ⟨⟨f, b⟩, hsplit, heq⟩ := Option.map_eq_some_iff.1 h
        cases heq
        obtain ⟨m, hm, rfl, hfront⟩ := ih hsplit
        exact ⟨m, hm, rfl, List.forall_mem_cons.2 ⟨by simpa using hc, hfront⟩⟩
  · rintro ⟨c, hc, rfl, hfront⟩
    induction front with
    | nil => simp [splitAtFirst?, hc]
    | cons d front ih =>
      obtain ⟨hd, hfront⟩ := List.forall_mem_cons.1 hfront
      rw [List.cons_append, splitAtFirst?, hd, ih hfront]
      rfl

end

/-! ## The grammar -/

/-- A mantissa: a run of digits, or two around a point, with a digit in all. It stands for the
number that all its digits write, and for how many of them are after the point. -/
inductive Mantissa (base : ℕ) : List Char → ℕ → ℕ → Prop
  | whole {cs : List Char} {ds : List ℕ} (h : Spells base cs ds) (hne : ds ≠ []) :
    Mantissa base cs (Nat.ofDigits base ds.reverse) 0
  | point {cs cs' : List Char} {ds es : List ℕ} (h : Spells base cs ds) (h' : Spells base cs' es)
    (hne : ds ++ es ≠ []) :
    Mantissa base (cs ++ '.' :: cs') (Nat.ofDigits base (ds ++ es).reverse) es.length

/-- An exponent: a sign or none, and a decimal number of ten thousand at most. -/
inductive Exponent : List Char → ℤ → Prop
  | unsigned {cs : List Char} {n : ℕ} (h : Writes 10 cs n) (hle : n ≤ 10000) : Exponent cs n
  | plus {cs : List Char} {n : ℕ} (h : Writes 10 cs n) (hle : n ≤ 10000) : Exponent ('+' :: cs) n
  | minus {cs : List Char} {n : ℕ} (h : Writes 10 cs n) (hle : n ≤ 10000) :
    Exponent ('-' :: cs) (-n)

/-- A text is a float, and stands for a number times a power of a base. -/
inductive FloatSpelling : List Char → ℕ → ℕ → ℤ → Prop
  | hex {x p : Char} {cs es : List Char} {m f : ℕ} {e : ℤ} (hx : BaseMark x 16)
    (hm : Mantissa 16 cs m f) (hp : p = 'p' ∨ p = 'P') (he : Exponent es e) :
    FloatSpelling ('0' :: x :: (cs ++ p :: es)) m 2 (e - 4 * f)
  | decimal {cs : List Char} {m f : ℕ} (hm : Mantissa 10 cs m f) : FloatSpelling cs m 10 (-f)
  | scientific {c : Char} {cs es : List Char} {m f : ℕ} {e : ℤ} (hm : Mantissa 10 cs m f)
    (hc : c = 'e' ∨ c = 'E') (he : Exponent es e) : FloatSpelling (cs ++ c :: es) m 10 (e - f)

/-- A text with a base named in front. -/
def Prefixed (cs : List Char) : Prop := ∃ x base rest, BaseMark x base ∧ cs = '0' :: x :: rest

/-! ## Mantissa and exponent -/

section

variable {base m f : ℕ} {c : Char} {cs es : List Char} {e : ℤ}

/-- What is no digit, no underscore and no point does not stand in a mantissa. -/
theorem Mantissa.not_mem (h : Mantissa base cs m f) (hc : digit? base c = none) (hu : c ≠ '_')
    (hpoint : c ≠ '.') : c ∉ cs := by
  cases h with
  | whole h _ => exact h.not_mem hc hu
  | point h h' _ =>
    rw [List.mem_append, List.mem_cons]
    rintro (hmem | rfl | hmem)
    · exact h.not_mem hc hu hmem
    · exact hpoint rfl
    · exact h'.not_mem hc hu hmem

/-- A point is no part of a run of digits. -/
theorem Spells.point_not_mem {ds : List ℕ} (h : Spells base cs ds) :
    ∀ d ∈ cs, (d == '.') = false := by
  intro d hd
  have hpoint : digit? base '.' = none := rfl
  rw [beq_eq_false_iff_ne]
  rintro rfl
  exact h.not_mem hpoint (by decide) hd

/-- **A mantissa is read as the number of its digits**, and its digits after the point are
counted. -/
theorem mantissa?_eq_some_iff : mantissa? base cs = some (m, f) ↔ Mantissa base cs m f := by
  unfold mantissa?
  constructor
  · intro h
    cases hsplit : splitAtFirst? (· == '.') cs with
    | none =>
      simp only [hsplit, Option.getD_none, List.append_nil, Option.map_eq_some_iff,
        natural?_eq_some_iff] at h
      obtain ⟨n, ⟨ds, hs, hne, rfl⟩, heq⟩ := h
      cases heq
      exact .whole hs hne
    | some parts =>
      obtain ⟨whole, fraction⟩ := parts
      simp only [hsplit, Option.getD_some, Option.map_eq_some_iff, natural?_eq_some_iff] at h
      obtain ⟨n, ⟨ds, hs, hne, rfl⟩, heq⟩ := h
      cases heq
      obtain ⟨d, hd, rfl, -⟩ := splitAtFirst?_eq_some_iff.1 hsplit
      obtain rfl : d = '.' := by simpa using hd
      obtain ⟨as, bs, ha, hb, rfl⟩ := hs.of_append
      rw [hb.length_strip]
      exact .point ha hb hne
  · intro h
    cases h with
    | whole h hne =>
      have hread := natural?_eq_some_iff.2 ⟨_, h, hne, rfl⟩
      simp [splitAtFirst?_eq_none_iff.2 h.point_not_mem, hread, strip]
    | @point cs cs' _ _ h h' hne =>
      have hread := natural?_eq_some_iff.2 ⟨_, h.append h', hne, rfl⟩
      have hsplit : splitAtFirst? (· == '.') (cs ++ '.' :: cs') = some (cs, cs') :=
        splitAtFirst?_eq_some_iff.2 ⟨'.', rfl, rfl, h.point_not_mem⟩
      simp [hsplit, hread, h'.length_strip]

/-- **An exponent is read with its sign.** -/
theorem exponent?_eq_some_iff : exponent? es = some e ↔ Exponent es e := by
  have hbounded : ∀ {cs : List Char} {n : ℕ},
      (natural? 10 cs).filter (· ≤ maxExponent) = some n ↔ Writes 10 cs n ∧ n ≤ 10000 := by
    intro cs n
    rw [Option.filter_eq_some_iff, natural?_eq_some_iff, decide_eq_true_eq]
    rfl
  unfold exponent?
  constructor
  · intro h
    split at h <;> obtain ⟨n, hn, rfl⟩ := Option.map_eq_some_iff.1 h
    · exact .minus (hbounded.1 hn).1 (hbounded.1 hn).2
    · exact .plus (hbounded.1 hn).1 (hbounded.1 hn).2
    · exact .unsigned (hbounded.1 hn).1 (hbounded.1 hn).2
  · intro h
    cases h with
    | minus h hle => exact Option.map_eq_some_iff.2 ⟨_, hbounded.2 ⟨h, hle⟩, rfl⟩
    | plus h hle => exact Option.map_eq_some_iff.2 ⟨_, hbounded.2 ⟨h, hle⟩, rfl⟩
    | unsigned h hle =>
      -- a run of digits has no sign in front
      have hsign : ∀ s rest, es = s :: rest → digit? 10 s = none → s ≠ '_' → False := by
        rintro s rest rfl hs hu
        obtain ⟨ds, hds, -⟩ := h
        exact hds.not_mem hs hu List.mem_cons_self
      split
      · exact (hsign _ _ rfl rfl (by decide)).elim
      · exact (hsign _ _ rfl rfl (by decide)).elim
      · exact Option.map_eq_some_iff.2 ⟨_, hbounded.2 ⟨h, hle⟩, rfl⟩

theorem Exponent.natAbs_le (h : Exponent es e) : e.natAbs ≤ 10000 := by
  cases h <;> simpa using ‹_ ≤ 10000›

theorem Mantissa.fraction_le (h : Mantissa base cs m f) : f ≤ cs.length := by
  cases h with
  | whole => exact Nat.zero_le _
  | @point cs cs' _ _ _ h' _ =>
    have hstrip : (strip cs').length ≤ cs'.length := List.length_filter_le _ _
    rw [← h'.length_strip, List.length_append, List.length_cons]
    omega

end

/-! ## Floats -/

/-- A scaled mantissa is exact, and is there unless the power is too large. -/
theorem scale?_eq_some_iff {m base : ℕ} {e : ℤ} {q : ℚ} :
    scale? m base e = some q ↔ e.natAbs < 2 ^ 32 ∧ q = m * (base : ℚ) ^ e := by
  rw [scale?, Option.ite_none_right_eq_some, Option.some.injEq, scale_eq, eq_comm (a := q)]
  rfl

section

variable {base m b f : ℕ} {x c p : Char} {cs es t : List Char} {e : ℤ} {n : Number}

theorem isBinaryMark_iff : isBinaryMark c ↔ c = 'p' ∨ c = 'P' := by simp [isBinaryMark]

theorem isDecimalMark_iff : isDecimalMark c ↔ c = 'e' ∨ c = 'E' := by simp [isDecimalMark]

/-- No mark of an exponent of two stands in a mantissa of base 16. -/
theorem Mantissa.split_binaryMark (hm : Mantissa 16 cs m f) (hp : p = 'p' ∨ p = 'P') :
    splitAtFirst? isBinaryMark (cs ++ p :: es) = some (cs, es) := by
  refine splitAtFirst?_eq_some_iff.2 ⟨p, isBinaryMark_iff.2 hp, rfl, fun d hd => ?_⟩
  rw [← Bool.not_eq_true, isBinaryMark_iff]
  rintro (rfl | rfl)
  · exact hm.not_mem rfl (by decide) (by decide) hd
  · exact hm.not_mem rfl (by decide) (by decide) hd

/-- No mark of an exponent of ten stands in a mantissa of base ten. -/
theorem Mantissa.not_isDecimalMark (hm : Mantissa 10 cs m f) :
    ∀ d ∈ cs, isDecimalMark d = false := by
  intro d hd
  rw [← Bool.not_eq_true, isDecimalMark_iff]
  rintro (rfl | rfl)
  · exact hm.not_mem rfl (by decide) (by decide) hd
  · exact hm.not_mem rfl (by decide) (by decide) hd

/-- A decimal float names no base in front. -/
theorem Mantissa.not_prefixed (hm : Mantissa 10 cs m f) (tail : List Char)
    (htail : ∀ d rest, tail = d :: rest → d = 'e' ∨ d = 'E') : ¬Prefixed (cs ++ tail) := by
  rintro ⟨x, base, rest, hx, heq⟩
  rcases cs with _ | ⟨a, _ | ⟨d, cs⟩⟩
  · rcases htail _ _ heq with h | h <;> cases h
  · -- the letter of the base would be the mark of the exponent
    obtain ⟨-, rfl⟩ := List.cons.inj heq
    rcases htail _ _ rfl with rfl | rfl <;> cases hx
  · obtain ⟨-, heq⟩ := List.cons.inj heq
    obtain ⟨rfl, -⟩ := List.cons.inj heq
    have hmem : d ∈ a :: d :: cs := List.mem_cons_of_mem _ List.mem_cons_self
    cases hx <;> exact hm.not_mem rfl (by decide) (by decide) hmem

theorem Mantissa.not_prefixed_self (hm : Mantissa 10 cs m f) : ¬Prefixed cs := by
  have h := hm.not_prefixed [] (by simp)
  rwa [List.append_nil] at h

theorem Mantissa.not_prefixed_mark (hm : Mantissa 10 cs m f) (hc : c = 'e' ∨ c = 'E') :
    ¬Prefixed (cs ++ c :: es) := by
  refine hm.not_prefixed (c :: es) fun d rest heq => ?_
  rwa [← (List.cons.inj heq).1]

theorem prefixed_iff : Prefixed cs ↔ ∃ parts, radix? cs = some parts := by
  constructor
  · rintro ⟨x, base, rest, hx, rfl⟩
    exact ⟨_, radix?_marked hx⟩
  · rintro ⟨⟨base, rest⟩, h⟩
    obtain ⟨x, hx, rfl⟩ := radix?_eq_some_iff.1 h
    exact ⟨x, base, rest, hx, rfl⟩

theorem radix?_of_not_prefixed (h : ¬Prefixed cs) : radix? cs = none := by
  rw [prefixed_iff, not_exists] at h
  exact Option.eq_none_iff_forall_ne_some.2 h

/-- **What is spelled is read**: the digits of the mantissa times the power, exactly. -/
theorem FloatSpelling.float?_eq (h : FloatSpelling cs m b e) :
    float? cs = (scale? m b e).map .ofRat := by
  cases h with
  | hex hx hm hp he =>
    rw [float?, radix?_marked hx]
    simp only [hexFloat?, hm.split_binaryMark hp, mantissa?_eq_some_iff.2 hm,
      exponent?_eq_some_iff.2 he, Option.bind_eq_bind, Option.bind_some]
    exact Option.map_eq_bind.symm
  | decimal hm =>
    have hmark := splitAtFirst?_eq_none_iff.2 hm.not_isDecimalMark
    rw [float?, radix?_of_not_prefixed hm.not_prefixed_self]
    simp only [decimalFloat?, hmark, mantissa?_eq_some_iff.2 hm, Option.bind_eq_bind,
      Option.bind_some]
    exact Option.map_eq_bind.symm
  | @scientific c cs es m f e hm hc he =>
    have hsplit : splitAtFirst? isDecimalMark (cs ++ c :: es) = some (cs, es) :=
      splitAtFirst?_eq_some_iff.2 ⟨c, isDecimalMark_iff.2 hc, rfl, hm.not_isDecimalMark⟩
    rw [float?, radix?_of_not_prefixed (hm.not_prefixed_mark hc)]
    simp only [decimalFloat?, hsplit, mantissa?_eq_some_iff.2 hm, exponent?_eq_some_iff.2 he,
      Option.bind_eq_bind, Option.bind_some]
    exact Option.map_eq_bind.symm

/-- **What is read is spelled.** -/
theorem exists_spelling_of_float? (h : float? cs = some n) : ∃ m b e, FloatSpelling cs m b e := by
  unfold float? at h
  split at h
  · rename_i rest hradix
    obtain ⟨x, hx, rfl⟩ := radix?_eq_some_iff.1 hradix
    simp only [hexFloat?, Option.bind_eq_bind, Option.bind_eq_some_iff] at h
    obtain ⟨⟨front, back⟩, hsplit, ⟨m, f⟩, hm, e, he, -⟩ := h
    obtain ⟨p, hp, rfl, -⟩ := splitAtFirst?_eq_some_iff.1 hsplit
    exact ⟨_, _, _, .hex hx (mantissa?_eq_some_iff.1 hm) (isBinaryMark_iff.1 hp)
      (exponent?_eq_some_iff.1 he)⟩
  · unfold decimalFloat? at h
    split at h
    · rename_i front back hsplit
      simp only [Option.bind_eq_bind, Option.bind_eq_some_iff] at h
      obtain ⟨e, he, ⟨m, f⟩, hm, -⟩ := h
      obtain ⟨c, hc, rfl, -⟩ := splitAtFirst?_eq_some_iff.1 hsplit
      exact ⟨_, _, _, .scientific (mantissa?_eq_some_iff.1 hm) (isDecimalMark_iff.1 hc)
        (exponent?_eq_some_iff.1 he)⟩
    · simp only [Option.bind_eq_bind, Option.bind_eq_some_iff] at h
      obtain ⟨⟨m, f⟩, hm, -⟩ := h
      exact ⟨_, _, _, .decimal (mantissa?_eq_some_iff.1 hm)⟩

theorem float?_eq_some_iff :
    float? cs = some n ↔
      ∃ m b e, FloatSpelling cs m b e ∧ e.natAbs < 2 ^ 32 ∧ n = ⟨m * (b : ℚ) ^ e, 0, .float⟩ := by
  constructor
  · intro h
    obtain ⟨m, b, e, hs⟩ := exists_spelling_of_float? h
    rw [hs.float?_eq, Option.map_eq_some_iff] at h
    obtain ⟨q, hq, rfl⟩ := h
    obtain ⟨hle, rfl⟩ := scale?_eq_some_iff.1 hq
    exact ⟨m, b, e, hs, hle, rfl⟩
  · rintro ⟨m, b, e, hs, hle, rfl⟩
    rw [hs.float?_eq, scale?_eq_some_iff.2 ⟨hle, rfl⟩]
    rfl

/-- **The exponent of a float is about as large as its text is long**, so that only a text of more
than a thousand million characters has one that is too large. -/
theorem FloatSpelling.natAbs_le (h : FloatSpelling cs m b e) :
    e.natAbs ≤ 10000 + 4 * cs.length := by
  cases h with
  | hex _ hm _ he =>
    have hf := hm.fraction_le
    have hexp := he.natAbs_le
    simp only [List.length_cons, List.length_append]
    omega
  | decimal hm =>
    have hf := hm.fraction_le
    omega
  | scientific hm _ he =>
    have hf := hm.fraction_le
    have hexp := he.natAbs_le
    simp only [List.length_cons, List.length_append]
    omega

/-! ## Imaginary literals -/

/-- A float is not taken for a prefixed integer. -/
theorem FloatSpelling.not_isPrefixedInt (h : FloatSpelling cs m b e) :
    isPrefixedInt cs = false := by
  cases h with
  | @hex x p cs es m f e hx hm hp he =>
    rw [isPrefixedInt, radix?_marked hx]
    have hmark : isBinaryMark p := isBinaryMark_iff.2 hp
    simp [hmark]
  | decimal hm => rw [isPrefixedInt, radix?_of_not_prefixed hm.not_prefixed_self]
  | scientific hm hc he =>
    rw [isPrefixedInt, radix?_of_not_prefixed (hm.not_prefixed_mark hc)]

/-- A prefixed integer is taken for one. -/
theorem isPrefixedInt_of_int? (hcs : Prefixed cs) (h : int? cs = some n) :
    isPrefixedInt cs = true := by
  obtain ⟨x, base, rest, hx, rfl⟩ := hcs
  rw [int?_eq, intParts_marked hx, Option.map_eq_some_iff] at h
  obtain ⟨k, hk, -⟩ := h
  obtain ⟨ds, hs, -⟩ := natural?_eq_some_iff.1 hk
  have hrest : base = 16 → (rest.any fun c => c == '.' || isBinaryMark c) = false := by
    rintro rfl
    rw [List.any_eq_false]
    intro d hd
    rw [Bool.or_eq_true, isBinaryMark_iff, beq_iff_eq]
    rintro (rfl | rfl | rfl)
    · exact hs.not_mem rfl (by decide) hd
    · exact hs.not_mem rfl (by decide) hd
    · exact hs.not_mem rfl (by decide) hd
  rw [isPrefixedInt, radix?_marked hx]
  cases hx <;> simp_all

theorem prefixed_of_isPrefixedInt (h : isPrefixedInt cs = true) : Prefixed cs := by
  rw [prefixed_iff]
  cases hradix : radix? cs with
  | none => simp [isPrefixedInt, hradix] at h
  | some parts => exact ⟨parts, rfl⟩

/-- **What stands before an `i` is a float or a prefixed integer.** -/
theorem imagBody_iff :
    (if isPrefixedInt t then int? t else float? t) = some n ↔
      float? t = some n ∨ Prefixed t ∧ int? t = some n := by
  by_cases hint : isPrefixedInt t = true
  · have hfloat : float? t ≠ some n := by
      intro h
      obtain ⟨m, b, e, hs⟩ := exists_spelling_of_float? h
      rw [hs.not_isPrefixedInt] at hint
      cases hint
    simp [hint, hfloat, prefixed_of_isPrefixedInt hint]
  · have hnone : ¬(Prefixed t ∧ int? t = some n) := fun h => hint (isPrefixedInt_of_int? h.1 h.2)
    simp only [hint, Bool.false_eq_true, if_false, hnone, or_false]

theorem imag?_eq (cs : List Char) :
    imag? cs = (beforeUnit? cs).bind fun t =>
      (if isPrefixedInt t then int? t else float? t).map fun v => .imaginary v.re := by
  unfold imag?
  refine congrArg _ (funext fun t => ?_)
  split
  · exact Option.map_eq_bind.symm
  · exact Option.map_eq_bind.symm

theorem beforeUnit?_eq_some_iff : beforeUnit? cs = some t ↔ cs = t ++ ['i'] := by
  rw [beforeUnit?, Option.ite_none_right_eq_some, List.getLast?_eq_some_iff, Option.some.injEq]
  constructor
  · rintro ⟨⟨ys, rfl⟩, h⟩
    rw [← h, List.dropLast_concat]
  · rintro rfl
    exact ⟨⟨t, rfl⟩, List.dropLast_concat⟩

end

/-- **Floats and imaginary literals are read exactly.** A text is read as a float if and only if the
grammar has it and its power is none too large, and the value is the number that the digits write,
times the power, not rounded. A text is read as an imaginary number if and only if it is a float or
a prefixed integer before an `i`; it is not both, and the value is that number times the unit. -/
theorem float?_imag?_eq_some_iff :
    (∀ (cs : List Char) (n : Number), float? cs = some n ↔
      ∃ m b e, FloatSpelling cs m b e ∧ e.natAbs < 2 ^ 32 ∧ n = ⟨m * (b : ℚ) ^ e, 0, .float⟩) ∧
    (∀ (cs : List Char) (n : Number), imag? cs = some n ↔
      ∃ t v, cs = t ++ ['i'] ∧ (float? t = some v ∨ Prefixed t ∧ int? t = some v) ∧
        n = ⟨0, v.re, .complex⟩) ∧
    ∀ t : List Char, ¬((float? t).isSome ∧ Prefixed t ∧ (int? t).isSome) := by
  refine ⟨fun cs n => float?_eq_some_iff, fun cs n => ?_, ?_⟩
  · simp only [imag?_eq, Option.bind_eq_some_iff, beforeUnit?_eq_some_iff, Option.map_eq_some_iff,
      imagBody_iff]
    constructor
    · rintro ⟨t, ht, v, hv, rfl⟩
      exact ⟨t, v, ht, hv, rfl⟩
    · rintro ⟨t, v, ht, hv, rfl⟩
      exact ⟨t, ht, v, hv, rfl⟩
  · rintro t ⟨hfloat, hpre, hint⟩
    obtain ⟨v, hv⟩ := Option.isSome_iff_exists.1 hfloat
    obtain ⟨w, hw⟩ := Option.isSome_iff_exists.1 hint
    obtain ⟨m, b, e, hs⟩ := exists_spelling_of_float? hv
    have htaken := isPrefixedInt_of_int? hpre hw
    rw [hs.not_isPrefixedInt] at htaken
    cases htaken

/-- Every digit after the point divides by sixteen. -/
example : float? "0x1_.8P-1".toList = some ⟨3 / 4, 0, .float⟩ := by decide +kernel

end ConstCheck.Literal
