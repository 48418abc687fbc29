import Mathlib.Data.String.Basic

/-!
# The order of bytes

Strings are compared by their code points. Their UTF-8 bytes come in the same order: the first byte
of a character tells how many follow it and is the greater the more they are, and the bytes that
follow are digits of the code point.

* `Utf8.lead`, `Utf8.digits`: the first byte of a character, and the bytes that follow it.
* `Utf8.encode_append_lt_iff`: **characters are ordered as their bytes**, whatever stands behind
  them.
* `Utf8.bytes_lt_iff`, `Utf8.codePoints_lt_iff` (all strings): strings are ordered as their bytes
  and as their code points.
-/

namespace ConstCheck.Utf8

/-! ## Characters -/

/-- How many bytes follow the first. -/
def followers (v : ℕ) : ℕ :=
  if v ≤ 0x7f then 0 else if v ≤ 0x7ff then 1 else if v ≤ 0xffff then 2 else 3

/-- The first byte: the highest digits of the code point, and a mark of how many bytes follow. -/
def lead (v : ℕ) : ℕ :=
  if v ≤ 0x7f then v else if v ≤ 0x7ff then v / 64 + 0xc0
  else if v ≤ 0xffff then v / 4096 + 0xe0 else v / 262144 + 0xf0

/-- The bytes that follow: the lowest digits of the code point in base 64, each with a mark. -/
def digits : ℕ → ℕ → List UInt8
  | 0, _ => []
  | n + 1, v => digits n (v / 64) ++ [.ofNat (v % 64 + 0x80)]

variable {v w : ℕ} {s t : List UInt8}

theorem codePoint_lt (c : Char) : c.toNat < 0x110000 := by
  rcases c.valid with h | h
  · exact lt_trans h (by decide)
  · exact h.2

/-- UTF-8, read as a first byte and digits. -/
theorem encode_eq (c : Char) :
    String.utf8EncodeChar c = .ofNat (lead c.toNat) :: digits (followers c.toNat) c.toNat := by
  have hlt := codePoint_lt c
  have hval : c.val.toNat = c.toNat := rfl
  simp only [String.utf8EncodeChar, lead, followers, hval]
  split_ifs
  · rfl
  · rw [Nat.mod_eq_of_lt (by omega : c.toNat / 64 < 0x20)]
    rfl
  · rw [Nat.mod_eq_of_lt (by omega : c.toNat / 4096 < 0x10)]
    rfl
  · rw [Nat.mod_eq_of_lt (by omega : c.toNat / 262144 < 0x08)]
    simp [digits, Nat.div_div_eq_div_mul]

/-- First bytes are in the order of the characters. -/
theorem lead_le (h : v ≤ w) : lead v ≤ lead w := by
  unfold lead
  split_ifs <;> omega

theorem lead_lt (h : v < 0x110000) : lead v < 256 := by
  unfold lead
  split_ifs <;> omega

/-- **The first byte tells how many follow**, and all but the lowest digits. -/
theorem followers_eq (hv : v < 0x110000) (hw : w < 0x110000) (h : lead v = lead w) :
    followers v = followers w ∧ v / 64 ^ followers v = w / 64 ^ followers v := by
  simp only [lead] at h
  simp only [followers]
  split_ifs at h ⊢ <;> omega

/-- **Digits are ordered as the number they write**, below digits that are equal. -/
theorem digits_append_lt_iff (n : ℕ) (h : v / 64 ^ n = w / 64 ^ n) :
    digits n v ++ s < digits n w ++ t ↔ v < w ∨ v = w ∧ s < t := by
  induction n generalizing v w s t with
  | zero =>
    rw [pow_zero, Nat.div_one, Nat.div_one] at h
    simp [digits, h]
  | succ n ih =>
    rw [pow_succ', ← Nat.div_div_eq_div_mul, ← Nat.div_div_eq_div_mul] at h
    have hbyte : ∀ u, (UInt8.ofNat (u % 64 + 0x80)).toNat = u % 64 + 0x80 := fun u => by
      rw [UInt8.toNat_ofNat']; omega
    simp only [digits, List.append_assoc, List.singleton_append, ih h, List.cons_lt_cons_iff,
      UInt8.lt_iff_toNat_lt, ← UInt8.toNat_inj, hbyte]
    by_cases hst : s < t <;> simp only [hst, and_true, and_false, or_false] <;> omega

/-- **Characters are ordered as their bytes**, whatever stands behind them. -/
theorem encode_append_lt_iff (c d : Char) (s t : List UInt8) :
    String.utf8EncodeChar c ++ s < String.utf8EncodeChar d ++ t ↔ c < d ∨ c = d ∧ s < t := by
  have hc := codePoint_lt c
  have hd := codePoint_lt d
  have hlt : c < d ↔ c.toNat < d.toNat := Iff.rfl
  have heq : c = d ↔ c.toNat = d.toNat := Char.toNat_inj.symm
  have hbyte : ∀ {v}, v < 0x110000 → (UInt8.ofNat (lead v)).toNat = lead v := fun hv => by
    rw [UInt8.toNat_ofNat', Nat.mod_eq_of_lt (lead_lt hv)]
  rw [encode_eq, encode_eq, List.cons_append, List.cons_append, List.cons_lt_cons_iff,
    UInt8.lt_iff_toNat_lt, ← UInt8.toNat_inj, hbyte hc, hbyte hd, hlt, heq]
  -- first bytes that are equal leave digits of equal length, below equal digits
  rcases lt_trichotomy (lead c.toNat) (lead d.toNat) with h | h | h
  · have hcd : c.toNat < d.toNat := lt_of_not_ge fun hle => absurd (lead_le hle) h.not_ge
    simp [h, hcd]
  · obtain ⟨hfollowers, hdigits⟩ := followers_eq hc hd h
    rw [← hfollowers, digits_append_lt_iff _ hdigits]
    simp [h]
  · have hdc : d.toNat < c.toNat := lt_of_not_ge fun hle => absurd (lead_le hle) h.not_ge
    simp [h.not_gt, h.ne', hdc.not_gt, hdc.ne']

/-! ## Strings -/

/-- An encoding that keeps the order of characters keeps the order of strings. -/
theorem flatMap_lt_iff {κ : Type} [LT κ] {f : Char → List κ} (hne : ∀ c, f c ≠ [])
    (hf : ∀ c d s t, f c ++ s < f d ++ t ↔ c < d ∨ c = d ∧ s < t) (x y : List Char) :
    x.flatMap f < y.flatMap f ↔ x < y := by
  induction x generalizing y with
  | nil =>
    cases y with
    | nil => simp
    | cons d y =>
      obtain ⟨b, bs, hb⟩ := List.exists_cons_of_ne_nil (hne d)
      simp [hb]
  | cons c x ih =>
    cases y with
    | nil => simp
    | cons d y => rw [List.flatMap_cons, List.flatMap_cons, hf, ih, List.cons_lt_cons_iff]

/-- The UTF-8 bytes of a string. -/
def bytes (x : String) : List UInt8 := x.toUTF8.data.toList

/-- The code points of a string. -/
def codePoints (x : String) : List ℕ := x.toList.map Char.toNat

theorem bytes_eq (x : String) : bytes x = x.toList.flatMap String.utf8EncodeChar := by
  rw [bytes, String.toUTF8_eq_toByteArray, ← String.utf8Encode_toList, List.utf8Encode,
    List.toList_data_toByteArray]

/-- **Strings are ordered as their bytes.** -/
theorem bytes_lt_iff (x y : String) : bytes x < bytes y ↔ x < y := by
  rw [bytes_eq, bytes_eq, String.lt_iff_toList_lt]
  exact flatMap_lt_iff (fun _ => String.utf8EncodeChar_ne_nil) encode_append_lt_iff _ _

/-- **Strings are ordered as their code points.** -/
theorem codePoints_lt_iff (x y : String) : codePoints x < codePoints y ↔ x < y := by
  rw [codePoints, codePoints, List.map_eq_flatMap, List.map_eq_flatMap, String.lt_iff_toList_lt]
  refine flatMap_lt_iff (by simp) (fun c d s t => ?_) _ _
  rw [List.singleton_append, List.singleton_append, List.cons_lt_cons_iff, Char.toNat_inj]
  rfl

/-- What stands in front of two strings does not change their order. -/
theorem append_lt_append_iff (z x y : String) : z ++ x < z ++ y ↔ x < y := by
  rw [String.lt_iff_toList_lt, String.lt_iff_toList_lt, String.toList_append, String.toList_append]
  induction z.toList with
  | nil => rfl
  | cons c z ih => simp [ih]

end ConstCheck.Utf8
