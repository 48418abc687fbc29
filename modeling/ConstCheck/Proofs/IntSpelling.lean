import Mathlib.Data.Nat.Digits.Defs
import Mathlib.Tactic.IntervalCases
import ConstCheck.Number.Literal
import ConstCheck.Text.Bytes

/-!
# Which texts are integer literals

The grammar of integer literals, without an algorithm: which characters are digits, which texts are
runs of digits, and what number a run writes by the place of each digit. Reading a literal accepts
this grammar and nothing else, and yields the number.

* `Literal.IsDigit`, `Literal.Spells`, `Literal.Writes`: digits, runs of them, and what they write.
* `Literal.natural?_eq_some_iff`: **a run of digits is read as the number that it writes**.
* `Literal.IntSpelling`: the forms of integer literals, three of which begin with a zero.
* `Literal.dropBytes?_cut`: a literal is taken apart at a byte, and never inside a character.
* `Literal.int?_eq_some_iff` (every text): **integer literals are read exactly**.
-/

namespace ConstCheck.Literal

/-! ## Digits -/

/-- The digits in the order of their values. -/
def lowerDigits : List Char :=
  ['0', '1', '2', '3', '4', '5', '6', '7', '8', '9', 'a', 'b', 'c', 'd', 'e', 'f']

/-- The digits with letters in upper case. -/
def upperDigits : List Char :=
  ['0', '1', '2', '3', '4', '5', '6', '7', '8', '9', 'A', 'B', 'C', 'D', 'E', 'F']

/-- A character is the digit of a value in a base. -/
def IsDigit (base : ℕ) (c : Char) (d : ℕ) : Prop :=
  d < base ∧ (lowerDigits[d]? = some c ∨ upperDigits[d]? = some c)

section

variable {base d n : ℕ} {c : Char} {cs cs' : List Char} {ds : List ℕ}

/-- A character from a block of consecutive digits stands in the table where the block does. -/
theorem getElem?_of_block {first last : Char} {table : List Char} (start : ℕ)
    (htable : ∀ k < last.toNat + 1 - first.toNat,
      table[start + k]? = some (Char.ofNat (first.toNat + k)))
    (hc : first ≤ c ∧ c ≤ last) : table[c.toNat - first.toNat + start]? = some c := by
  have hle : first.toNat ≤ c.toNat := hc.1
  have hge : c.toNat ≤ last.toNat := hc.2
  have h := htable (c.toNat - first.toNat) (by omega)
  rwa [Nat.add_sub_cancel' hle, Char.ofNat_toNat, Nat.add_comm] at h

/-- **A character is read as the digit that it is.** -/
theorem digit?_eq_some_iff : digit? base c = some d ↔ IsDigit base c d := by
  constructor
  · intro h
    simp only [digit?, Option.filter_eq_some_iff, decide_eq_true_eq] at h
    obtain ⟨hvalue, hlt⟩ := h
    refine ⟨hlt, ?_⟩
    split at hvalue
    · rename_i hc
      cases hvalue
      exact .inl (getElem?_of_block 0 (by decide) hc)
    split at hvalue
    · rename_i hc
      cases hvalue
      exact .inl (getElem?_of_block 10 (by decide) hc)
    split at hvalue
    · rename_i hc
      cases hvalue
      exact .inr (getElem?_of_block 10 (by decide) hc)
    · cases hvalue
  · rintro ⟨hlt, h⟩
    have hd : d < 16 := by
      rcases h with h | h
      · exact (List.getElem?_eq_some_iff.1 h).1
      · exact (List.getElem?_eq_some_iff.1 h).1
    have hvalue : digit? 16 c = some d := by
      rcases h with h | h
      · interval_cases d <;> cases h <;> decide
      · interval_cases d <;> cases h <;> decide
    simp only [digit?, Option.filter_eq_some_iff, decide_eq_true_eq] at hvalue ⊢
    exact ⟨hvalue.1, hlt⟩

/-! ## Runs of digits -/

/-- A text is a run of digits and underscores, with these digits. -/
inductive Spells (base : ℕ) : List Char → List ℕ → Prop
  | nil : Spells base [] []
  | digit {c : Char} {d : ℕ} {cs : List Char} {ds : List ℕ} (hd : IsDigit base c d)
    (h : Spells base cs ds) : Spells base (c :: cs) (d :: ds)
  | underscore {cs : List Char} {ds : List ℕ} (h : Spells base cs ds) : Spells base ('_' :: cs) ds

/-- A run with a digit, and the number that it writes: each digit times the power of the base that
belongs to its place, the last place counting ones. -/
def Writes (base : ℕ) (cs : List Char) (n : ℕ) : Prop :=
  ∃ ds, Spells base cs ds ∧ ds ≠ [] ∧ n = Nat.ofDigits base ds.reverse

/-- An underscore is no digit. -/
theorem IsDigit.ne_underscore (h : IsDigit base c d) : c ≠ '_' := by
  rintro rfl
  have hnone : digit? base '_' = none := rfl
  rw [digit?_eq_some_iff.2 h] at hnone
  cases hnone

theorem strip_cons (h : c ≠ '_') : strip (c :: cs) = c :: strip cs :=
  List.filter_cons_of_pos (by simpa using h)

/-- What is neither a digit nor an underscore does not stand in a run. -/
theorem Spells.not_mem (h : Spells base cs ds) (hc : digit? base c = none) (hu : c ≠ '_') :
    c ∉ cs := by
  induction h with
  | nil => exact List.not_mem_nil
  | digit hd _ ih =>
    refine List.not_mem_cons_of_ne_of_not_mem ?_ ih
    rintro rfl
    rw [digit?_eq_some_iff.2 hd] at hc
    cases hc
  | underscore _ ih => exact List.not_mem_cons_of_ne_of_not_mem hu ih

theorem Spells.length_strip (h : Spells base cs ds) : (strip cs).length = ds.length := by
  induction h with
  | nil => rfl
  | digit hd _ ih => rw [strip_cons hd.ne_underscore, List.length_cons, ih, List.length_cons]
  | underscore _ ih => exact ih

theorem Spells.append {es : List ℕ} (h : Spells base cs ds) (h' : Spells base cs' es) :
    Spells base (cs ++ cs') (ds ++ es) := by
  induction h with
  | nil => exact h'
  | digit hd _ ih => exact .digit hd ih
  | underscore _ ih => exact .underscore ih

/-- A run that is cut in two is two runs. -/
theorem Spells.of_append (h : Spells base (cs ++ cs') ds) :
    ∃ es fs, Spells base cs es ∧ Spells base cs' fs ∧ ds = es ++ fs := by
  induction cs generalizing ds with
  | nil => exact ⟨[], ds, .nil, h, rfl⟩
  | cons c cs ih =>
    cases h with
    | digit hd h =>
      obtain ⟨es, fs, he, hf, rfl⟩ := ih h
      exact ⟨_ :: es, fs, .digit hd he, hf, rfl⟩
    | underscore h =>
      obtain ⟨es, fs, he, hf, rfl⟩ := ih h
      exact ⟨es, fs, .underscore he, hf, rfl⟩

/-- **A run is read as its digits.** -/
theorem digits?_eq_some_iff : digits? base cs = some ds ↔ Spells base cs ds := by
  constructor
  · intro h
    induction cs generalizing ds with
    | nil =>
      cases h
      exact .nil
    | cons c cs ih =>
      by_cases hu : c = '_'
      · rw [hu] at h ⊢
        exact .underscore (ih h)
      · rw [digits?, strip_cons hu, List.mapM_cons] at h
        simp only [Option.bind_eq_bind, Option.bind_eq_some_iff, Option.pure_def,
          Option.some.injEq] at h
        obtain ⟨d, hd, es, hes, rfl⟩ := h
        exact .digit (digit?_eq_some_iff.1 hd) (ih hes)
  · intro h
    induction h with
    | nil => rfl
    | digit hd _ ih =>
      rw [digits?] at ih ⊢
      rw [strip_cons hd.ne_underscore, List.mapM_cons, digit?_eq_some_iff.2 hd, ih]
      rfl
    | underscore _ ih => exact ih

/-- **Adding up from the left gives every digit the weight of its place.** -/
theorem positional_eq (base : ℕ) (ds : List ℕ) :
    positional base ds = Nat.ofDigits base ds.reverse := by
  rw [positional, List.foldl_eq_foldr_reverse, Nat.ofDigits_eq_foldr]
  congr 1
  funext d n
  rw [Nat.cast_id, mul_comm, add_comm]

/-- **A run of digits is read as the number that it writes.** -/
theorem natural?_eq_some_iff : natural? base cs = some n ↔ Writes base cs n := by
  simp only [natural?, Option.bind_eq_bind, Option.bind_eq_some_iff, digits?_eq_some_iff, Writes]
  refine exists_congr fun ds => and_congr_right fun _ => ?_
  rw [Option.ite_none_left_eq_some, Option.some.injEq, positional_eq, List.isEmpty_iff]
  exact and_congr_right fun _ => eq_comm

end

/-! ## Integer literals -/

/-- The letters that name a base after a zero. -/
inductive BaseMark : Char → ℕ → Prop
  | hex : BaseMark 'x' 16
  | hexUpper : BaseMark 'X' 16
  | octal : BaseMark 'o' 8
  | octalUpper : BaseMark 'O' 8
  | binary : BaseMark 'b' 2
  | binaryUpper : BaseMark 'B' 2

/-- A text is an integer literal, and writes a number: in a base that it names, in base eight after
a bare zero, or in base ten. A decimal literal has a leading zero only if it has nothing else. -/
inductive IntSpelling : List Char → ℕ → Prop
  | marked {x : Char} {base : ℕ} {cs : List Char} {n : ℕ} (hx : BaseMark x base)
    (h : Writes base cs n) : IntSpelling ('0' :: x :: cs) n
  | octal {cs : List Char} {n : ℕ} (h : Writes 8 cs n) : IntSpelling ('0' :: cs) n
  | decimal {cs : List Char} {n : ℕ} (hzero : cs = ['0'] ∨ cs.head? ≠ some '0')
    (h : Writes 10 cs n) : IntSpelling cs n

section

variable {base : ℕ} {c : Char} {cs : List Char} {n : ℕ}

theorem radix?_marked (hx : BaseMark c base) : radix? ('0' :: c :: cs) = some (base, cs) := by
  cases hx <;> rfl

/-- A base is named by a zero and a letter. -/
theorem radix?_eq_some_iff {rest : List Char} :
    radix? cs = some (base, rest) ↔ ∃ x, BaseMark x base ∧ cs = '0' :: x :: rest := by
  constructor
  · intro h
    unfold radix? at h
    split at h <;> cases h
    · exact ⟨_, .hex, rfl⟩
    · exact ⟨_, .hexUpper, rfl⟩
    · exact ⟨_, .octal, rfl⟩
    · exact ⟨_, .octalUpper, rfl⟩
    · exact ⟨_, .binary, rfl⟩
    · exact ⟨_, .binaryUpper, rfl⟩
  · rintro ⟨x, hx, rfl⟩
    exact radix?_marked hx

/-- No letter that names a base stands in a run of digits of a base up to ten. -/
theorem BaseMark.not_mem {m : ℕ} {ds : List ℕ} (hx : BaseMark c m) (h : Spells base cs ds)
    (hbase : base ≤ 10) : c ∉ cs := by
  refine h.not_mem ?_ (by cases hx <;> decide)
  cases hdigit : digit? base c with
  | none => rfl
  | some d =>
    obtain ⟨hd, hc⟩ := digit?_eq_some_iff.1 hdigit
    have hlt : d < 10 := by omega
    cases hx <;> revert hc <;> interval_cases d <;> decide

theorem intParts_marked (hx : BaseMark c base) : intParts ('0' :: c :: cs) = (base, cs) := by
  rw [intParts, radix?_marked hx]

/-- The three ways in which a literal has a base and digits. -/
theorem intParts_cases (cs : List Char) :
    (∃ x base rest, BaseMark x base ∧ cs = '0' :: x :: rest ∧ intParts cs = (base, rest)) ∨
    (∃ c rest, cs = '0' :: c :: rest ∧ radix? cs = none ∧ intParts cs = (8, c :: rest)) ∨
    (cs = ['0'] ∨ cs.head? ≠ some '0') ∧ intParts cs = (10, cs) := by
  unfold intParts
  cases hradix : radix? cs with
  | some parts =>
    obtain ⟨x, hx, rfl⟩ := radix?_eq_some_iff.1 hradix
    exact .inl ⟨x, parts.1, parts.2, hx, rfl, rfl⟩
  | none =>
    refine .inr ?_
    dsimp only
    split
    · exact .inl ⟨_, _, rfl, rfl, rfl⟩
    · rename_i hnot
      refine .inr ⟨?_, rfl⟩
      cases cs with
      | nil => exact .inr (by simp)
      | cons c cs =>
        by_cases hc : c = '0'
        · cases cs with
          | nil => exact .inl (by rw [hc])
          | cons d cs => exact absurd (by rw [hc]) (hnot d cs)
        · exact .inr (by simpa using hc)

/-- A bare zero before a run with a digit means base eight. -/
theorem intParts_octal (h : Writes 8 cs n) : intParts ('0' :: cs) = (8, cs) := by
  obtain ⟨ds, hs, hne, -⟩ := h
  rcases intParts_cases ('0' :: cs) with ⟨x, base, rest, hx, heq, -⟩ | ⟨c, rest, heq, -, hparts⟩ |
    ⟨heq | hhead, -⟩
  · obtain rfl : cs = x :: rest := (List.cons.inj heq).2
    exact absurd List.mem_cons_self (hx.not_mem hs (by decide))
  · cases heq
    exact hparts
  · cases heq
    cases hs
    exact absurd rfl hne
  · exact absurd rfl hhead

/-- Without a leading zero, or with a zero alone, the base is ten. -/
theorem intParts_decimal (hzero : cs = ['0'] ∨ cs.head? ≠ some '0') : intParts cs = (10, cs) := by
  rcases intParts_cases cs with ⟨x, base, rest, -, rfl, -⟩ | ⟨c, rest, rfl, -⟩ | ⟨-, hparts⟩
  · simp at hzero
  · simp at hzero
  · exact hparts

/-- **The number of an integer literal is the one that it writes.** -/
theorem natural?_intParts_iff :
    natural? (intParts cs).1 (intParts cs).2 = some n ↔ IntSpelling cs n := by
  rw [natural?_eq_some_iff]
  constructor
  · intro h
    rcases intParts_cases cs with ⟨x, base, rest, hx, rfl, hparts⟩ | ⟨c, rest, rfl, -, hparts⟩ |
      ⟨hzero, hparts⟩
    · exact .marked hx (by rwa [hparts] at h)
    · exact .octal (by rwa [hparts] at h)
    · exact .decimal hzero (by rwa [hparts] at h)
  · intro h
    cases h with
    | marked hx h => rwa [intParts_marked hx]
    | octal h => rwa [intParts_octal h]
    | decimal hzero h => rwa [intParts_decimal hzero]

theorem int?_eq (cs : List Char) :
    int? cs = (natural? (intParts cs).1 (intParts cs).2).map fun m => .ofInt m := by
  unfold int?
  cases intParts cs
  rfl

end

/-! ## Where a literal is cut -/

/-- The base of a literal, and the byte at which its digits start. Both are read off the first two
bytes. -/
def cut : List UInt8 → ℕ × ℕ
  | z :: b :: _ =>
    if z ≠ '0'.toUInt8 then (10, 0)
    else if b = 'x'.toUInt8 ∨ b = 'X'.toUInt8 then (16, 2)
    else if b = 'o'.toUInt8 ∨ b = 'O'.toUInt8 then (8, 2)
    else if b = 'b'.toUInt8 ∨ b = 'B'.toUInt8 then (2, 2)
    else (8, 1)
  | _ => (10, 0)

/-- **A byte below 128 in front of a character is the character**: no longer one begins so. -/
theorem head?_utf8EncodeChar_iff {c a : Char} (ha : a.toNat < 128) :
    (String.utf8EncodeChar c).head? = some a.toUInt8 ↔ c = a := by
  have hbyte : a.toUInt8.toNat = a.toNat := Nat.mod_eq_of_lt (Nat.lt_trans ha (by decide))
  have hchar : c = a ↔ c.toNat = a.toNat :=
    ⟨fun h => h ▸ rfl, fun h => by rw [← Char.ofNat_toNat c, h, Char.ofNat_toNat]⟩
  have hhead : ∀ (v : ℕ) (bs : List UInt8),
      (UInt8.ofNat v :: bs).head? = some a.toUInt8 ↔ v % 256 = a.toNat := by
    intro v bs
    rw [List.head?_cons, Option.some.injEq, ← UInt8.toNat_inj, hbyte, UInt8.toNat_ofNat']
  have hv : c.val.toNat = c.toNat := rfl
  -- the first of several bytes is 192 or more
  simp only [hchar, String.utf8EncodeChar, hv]
  split
  · rw [hhead]; omega
  split
  · rw [hhead]; omega
  split
  · rw [hhead]; omega
  · rw [hhead]; omega

theorem head?_bytes_cons (c : Char) (cs : List Char) :
    (Text.bytes (c :: cs)).head? = (String.utf8EncodeChar c).head? := by
  show (String.utf8EncodeChar c ++ Text.bytes cs).head? = _
  cases h : String.utf8EncodeChar c with
  | nil => exact absurd h String.utf8EncodeChar_ne_nil
  | cons => rfl

theorem cut_marked {x : Char} {base : ℕ} (hx : BaseMark x base) (cs : List Char) :
    cut (Text.bytes ('0' :: x :: cs)) = (base, 2) := by
  cases hx <;> rfl

theorem cut_octal {c : Char} {cs : List Char} (h : radix? ('0' :: c :: cs) = none) :
    cut (Text.bytes ('0' :: c :: cs)) = (8, 1) := by
  have hbytes : Text.bytes ('0' :: c :: cs) = '0'.toUInt8 :: Text.bytes (c :: cs) := rfl
  have hhead := head?_bytes_cons c cs
  cases htail : Text.bytes (c :: cs) with
  | nil =>
    rw [htail] at hhead
    exact absurd (List.head?_eq_none_iff.1 hhead.symm) String.utf8EncodeChar_ne_nil
  | cons b bs =>
    rw [htail, List.head?_cons] at hhead
    have hmark : ∀ {x base}, BaseMark x base → b ≠ x.toUInt8 := by
      rintro x base hx rfl
      rw [(head?_utf8EncodeChar_iff (by cases hx <;> decide)).1 hhead.symm, radix?_marked hx] at h
      cases h
    simp [hbytes, htail, cut, hmark .hex, hmark .hexUpper, hmark .octal, hmark .octalUpper,
      hmark .binary, hmark .binaryUpper]

theorem cut_decimal {cs : List Char} (hzero : cs = ['0'] ∨ cs.head? ≠ some '0') :
    cut (Text.bytes cs) = (10, 0) := by
  rcases hzero with rfl | hzero
  · rfl
  · cases cs with
    | nil => rfl
    | cons c cs =>
      have hc : c ≠ '0' := by simpa using hzero
      have hhead := head?_bytes_cons c cs
      unfold cut
      split
      · rename_i z b bs hbytes
        rw [hbytes, List.head?_cons] at hhead
        have hz : z ≠ '0'.toUInt8 := by
          rintro rfl
          exact hc ((head?_utf8EncodeChar_iff (by decide)).1 hhead.symm)
        rw [if_pos hz]
      · rfl

/-- **A literal is taken apart at a byte where a character ends**, whatever the text. -/
theorem dropBytes?_cut (cs : List Char) :
    (Text.dropBytes? (cut (Text.bytes cs)).2 cs).map ((cut (Text.bytes cs)).1, ·) =
      some (intParts cs) := by
  rcases intParts_cases cs with ⟨x, base, rest, hx, rfl, hparts⟩ |
    ⟨c, rest, rfl, hradix, hparts⟩ | ⟨hzero, hparts⟩
  · have hlength : Text.byteLength ['0', x] = 2 := by cases hx <;> rfl
    have hdrop : Text.dropBytes? 2 ('0' :: x :: rest) = some rest := by
      rw [← hlength]
      exact Text.dropBytes?_append ['0', x] rest
    rw [cut_marked hx, hdrop, hparts]
    rfl
  · have hdrop : Text.dropBytes? 1 ('0' :: c :: rest) = some (c :: rest) :=
      Text.dropBytes?_append ['0'] (c :: rest)
    rw [cut_octal hradix, hdrop, hparts]
    rfl
  · have hdrop : Text.dropBytes? 0 cs = some cs := Text.dropBytes?_append [] cs
    rw [cut_decimal hzero, hdrop, hparts]
    rfl

/-- **Integer literals are read exactly.** A text is read as an integer if and only if it is a
literal in one of the forms, in a base that it names, in base eight after a bare zero, or in base
ten, and the integer is the one that its digits write, underscores left out. What is read is cut at
a byte where a character ends, also in a text that is no literal. -/
theorem int?_eq_some_iff (cs : List Char) :
    (∀ n : Number, int? cs = some n ↔ ∃ m : ℕ, IntSpelling cs m ∧ n = ⟨m, 0, .int⟩) ∧
      (Text.dropBytes? (cut (Text.bytes cs)).2 cs).map ((cut (Text.bytes cs)).1, ·) =
        some (intParts cs) := by
  refine ⟨fun n => ?_, dropBytes?_cut cs⟩
  rw [int?_eq, Option.map_eq_some_iff]
  refine exists_congr fun m => ?_
  rw [natural?_intParts_iff, eq_comm (a := n)]
  rfl

/-- An underscore may stand anywhere among the digits. -/
example : int? "0_17_".toList = some ⟨15, 0, .int⟩ := by decide +kernel

end ConstCheck.Literal
