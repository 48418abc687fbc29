import ConstCheck.Proofs.ByteOrder
import ConstCheck.Proofs.WellKinded

/-!
# Comparisons agree with each other

Numbers are equal if both of their parts are, and are ordered by their real parts alone. On the real
axis, where well-kinded numbers of real kinds lie, these are one order, and the six comparisons are
its relations. Those of strings are the relations of the order of their bytes.

* `TotallyOrders`, `TotallyOrders.of_key`: comparisons that read one order, as those do that compare
  operands by a key.
* `Operator.onNumbers_comparison`, `Operator.onStrings_comparison`: the keys of numbers and strings.
* `comparisons_are_total_orders` (all numbers of real kinds, all strings): **each family has one
  total order**, which is that of differences, and of bytes.
-/

namespace ConstCheck

namespace Operator

/-- An operator holds of two operands if it evaluates to true. -/
def Holds {α : Type} (op : Operator) (eval : Operator → α → α → Except OpError UntypedConst)
    (x y : α) : Prop :=
  eval op x y = .ok (.bool true)

end Operator

open Operator (lt eq gt le ge ne)

/-- The comparisons of an evaluator are the relations of one total order: every comparison has an
answer, one of three answers is true, the others follow from these, and less is transitive. -/
structure TotallyOrders {α : Type} (eval : Operator → α → α → Except OpError UntypedConst)
    (S : Set α) : Prop where
  answers : ∀ op : Operator, op.isComparison → ∀ x ∈ S, ∀ y ∈ S, ∃ b, eval op x y = .ok (.bool b)
  exactly_one : ∀ x ∈ S, ∀ y ∈ S, ∃! op ∈ [lt, eq, gt], op.Holds eval x y
  gt_iff : ∀ x ∈ S, ∀ y ∈ S, gt.Holds eval x y ↔ lt.Holds eval y x
  le_iff : ∀ x ∈ S, ∀ y ∈ S, le.Holds eval x y ↔ lt.Holds eval x y ∨ eq.Holds eval x y
  ge_iff : ∀ x ∈ S, ∀ y ∈ S, ge.Holds eval x y ↔ gt.Holds eval x y ∨ eq.Holds eval x y
  ne_iff : ∀ x ∈ S, ∀ y ∈ S, ne.Holds eval x y ↔ ¬eq.Holds eval x y
  trans : ∀ x ∈ S, ∀ y ∈ S, ∀ z ∈ S,
    lt.Holds eval x y → lt.Holds eval y z → lt.Holds eval x z

section

variable {α κ : Type} [LinearOrder κ] {S : Set α}
  {eval : Operator → α → α → Except OpError UntypedConst} (key : α → κ)

/-- A comparison by a key holds if and only if its relation holds of the keys. -/
theorem Operator.holds_iff_relates {op : Operator} {x y : α}
    (h : eval op x y = .ok (.bool (op.holds (compare (key x) (key y))))) :
    op.Holds eval x y ↔ op.Relates (key x) (key y) := by
  rw [Holds, h, ← holds_compare_iff]
  simp

/-- **Comparisons by a key are the relations of its order.** -/
theorem TotallyOrders.of_key (h : ∀ op : Operator, op.isComparison → ∀ x ∈ S, ∀ y ∈ S,
    eval op x y = .ok (.bool (op.holds (compare (key x) (key y))))) : TotallyOrders eval S := by
  have relates : ∀ op : Operator, op.isComparison → ∀ x ∈ S, ∀ y ∈ S,
      (op.Holds eval x y ↔ op.Relates (key x) (key y)) := fun op hop x hx y hy =>
    Operator.holds_iff_relates key (h op hop x hx y hy)
  constructor
  case answers => exact fun op hop x hx y hy => ⟨_, h op hop x hx y hy⟩
  case exactly_one =>
    intro x hx y hy
    have hlt := relates lt rfl x hx y hy
    have heq := relates eq rfl x hx y hy
    have hgt := relates gt rfl x hx y hy
    simp only [Operator.Relates] at hlt heq hgt
    -- the order of the keys decides which of the three it is
    rcases lt_trichotomy (key x) (key y) with hc | hc | hc
    · exact ⟨lt, by simp [hlt, hc], by simp [heq, hgt, hc.ne, hc.not_gt]⟩
    · exact ⟨eq, by simp [heq, hc], by simp [hlt, hgt, hc]⟩
    · exact ⟨gt, by simp [hgt, hc], by simp [hlt, heq, hc.ne', hc.not_gt]⟩
  case gt_iff =>
    intro x hx y hy
    rw [relates gt rfl x hx y hy, relates lt rfl y hy x hx]
    rfl
  case le_iff =>
    intro x hx y hy
    rw [relates le rfl x hx y hy, relates lt rfl x hx y hy, relates eq rfl x hx y hy]
    exact le_iff_lt_or_eq
  case ge_iff =>
    intro x hx y hy
    rw [relates ge rfl x hx y hy, relates gt rfl x hx y hy, relates eq rfl x hx y hy]
    exact le_iff_lt_or_eq.trans (or_congr_right eq_comm)
  case ne_iff =>
    intro x hx y hy
    rw [relates ne rfl x hx y hy, relates eq rfl x hx y hy]
    rfl
  case trans =>
    intro x hx y hy z hz
    rw [relates lt rfl x hx y hy, relates lt rfl y hy z hz, relates lt rfl x hx z hz]
    exact lt_trans

end

/-! ## Numbers and strings -/

namespace Number

variable {x y : Number}

/-- The numbers of the real axis, of any real kind. -/
def reals : Set Number := {n | n.WellKinded ∧ n.kind.isReal}

/-- On the real axis, equality looks at the real parts as the order does. -/
theorem sameValue_eq (hx : x ∈ reals) (hy : y ∈ reals) :
    x.sameValue y = eq.holds (compare x.re y.re) := by
  rw [Bool.eq_iff_iff, sameValue_iff, Operator.holds_compare_iff, hx.1.im_eq_zero hx.2,
    hy.1.im_eq_zero hy.2]
  exact and_iff_left rfl

/-- A difference of two numbers of the real axis lies on it. -/
theorem sub_mem_reals (hx : x ∈ reals) (hy : y ∈ reals) : x - y ∈ reals := by
  obtain ⟨-, hsub, -⟩ := hx.1.arith hy.1
  refine ⟨hsub, ?_⟩
  rw [sub_kind, NumKind.isReal_join, hx.2, hy.2]
  rfl

end Number

namespace Operator

variable {op : Operator}

/-- **Numbers of real kinds are compared by their real parts.** -/
theorem onNumbers_comparison {x y : Number} (hop : op.isComparison) (hx : x ∈ Number.reals)
    (hy : y ∈ Number.reals) : op.onNumbers x y = .ok (.bool (op.holds (compare x.re y.re))) := by
  have hkinds : (x.kind.isReal && y.kind.isReal) = true := Bool.and_eq_true_iff.2 ⟨hx.2, hy.2⟩
  cases op with
  -- equality has a test of its own, which the kinds make agree with the order
  | eq => rw [onNumbers, Number.sameValue_eq hx hy]
  | ne =>
    rw [onNumbers, Number.sameValue_eq hx hy]
    cases compare x.re y.re <;> rfl
  | lt | le | gt | ge => rw [onNumbers, if_pos hkinds, Number.compareReal_eq]
  | _ => simp [isComparison, isEquality, isOrdering] at hop

/-- Strings are compared by themselves. -/
theorem onStrings_comparison (hop : op.isComparison) (x y : String) :
    op.onStrings x y = .ok (.bool (op.holds (compare x y))) := by
  cases op with
  | eq | ne | lt | le | gt | ge => rfl
  | _ => simp [isComparison, isEquality, isOrdering] at hop

theorem lt_onNumbers_iff {x y : Number} (hx : x ∈ Number.reals) (hy : y ∈ Number.reals) :
    lt.Holds onNumbers x y ↔ x.re < y.re :=
  holds_iff_relates Number.re (onNumbers_comparison rfl hx hy)

theorem lt_onStrings_iff (x y : String) : lt.Holds onStrings x y ↔ x < y :=
  holds_iff_relates id (onStrings_comparison rfl x y)

end Operator

open Operator (onNumbers onStrings)
open Number (whole ofRat isWhole_whole wellKinded_of_isWhole wellKinded_ofRat)

/-- **Each family of constants has one total order.**

The comparisons of well-kinded numbers of real kinds, in any mix, are the relations of one total
order, and so are those of strings. A number is less than another if and only if their exact
difference is above zero. A string is less than another if and only if its UTF-8 bytes are, if and
only if its code points are, and the same string in front of both changes nothing. -/
theorem comparisons_are_total_orders :
    TotallyOrders onNumbers Number.reals ∧ TotallyOrders onStrings Set.univ ∧
    (∀ x ∈ Number.reals, ∀ y ∈ Number.reals, ∃ d, Operator.sub.onNumbers y x = .ok (.number d) ∧
      d ∈ Number.reals ∧ (lt.Holds onNumbers x y ↔ lt.Holds onNumbers (.zero .int) d) ∧
      (lt.Holds onNumbers x y ↔ 0 < d.re)) ∧
    ∀ x y : String, (lt.Holds onStrings x y ↔ Utf8.bytes x < Utf8.bytes y) ∧
      (lt.Holds onStrings x y ↔ Utf8.codePoints x < Utf8.codePoints y) ∧
      ∀ z, ∃ zx zy, Operator.add.onStrings z x = .ok (.string zx) ∧
        Operator.add.onStrings z y = .ok (.string zy) ∧
        (lt.Holds onStrings x y ↔ lt.Holds onStrings zx zy) := by
  refine ⟨.of_key Number.re fun op hop x hx y hy => Operator.onNumbers_comparison hop hx hy,
    .of_key id fun op hop x _ y _ => Operator.onStrings_comparison hop x y,
    fun x hx y hy => ?_, fun x y => ⟨?_, ?_, fun z => ?_⟩⟩
  · -- the difference is on the real axis again, and is compared by its real part
    have hd := Number.sub_mem_reals hy hx
    have hzero : Number.zero .int ∈ Number.reals := ⟨Number.wellKinded_ofInt 0, rfl⟩
    refine ⟨_, rfl, hd, ?_, ?_⟩
    · rw [Operator.lt_onNumbers_iff hx hy, Operator.lt_onNumbers_iff hzero hd, Number.sub_re]
      exact sub_pos.symm
    · rw [Operator.lt_onNumbers_iff hx hy, Number.sub_re]
      exact sub_pos.symm
  · rw [Operator.lt_onStrings_iff, Utf8.bytes_lt_iff]
  · rw [Operator.lt_onStrings_iff, Utf8.codePoints_lt_iff]
  · refine ⟨_, _, rfl, rfl, ?_⟩
    rw [Operator.lt_onStrings_iff, Operator.lt_onStrings_iff, Utf8.append_lt_append_iff]

/-- Three numbers of three kinds; and two characters that UTF-16 would order the other way. -/
theorem comparisons_are_total_orders_mixed :
    whole (-1) .rune ∈ Number.reals ∧ ofRat (1 / 2) ∈ Number.reals ∧ whole 1 .int ∈ Number.reals ∧
    lt.Holds onNumbers (whole (-1) .rune) (whole 1 .int) ∧
    lt.Holds onNumbers (.zero .int) (ofRat (1 / 2) - whole (-1) .rune) ∧
    Utf8.bytes "\uFFFD" < Utf8.bytes "😀" ∧ lt.Holds onStrings "\uFFFD" "😀" ∧
    lt.Holds onStrings "é\uFFFD" "é😀" := by
  have hrune : whole (-1) .rune ∈ Number.reals :=
    ⟨wellKinded_of_isWhole (isWhole_whole _ _), rfl⟩
  have hint : whole 1 .int ∈ Number.reals := ⟨wellKinded_of_isWhole (isWhole_whole _ _), rfl⟩
  have hhalf : ofRat (1 / 2) ∈ Number.reals := ⟨wellKinded_ofRat _, rfl⟩
  have hbytes : Utf8.bytes "\uFFFD" < Utf8.bytes "😀" := by decide
  obtain ⟨hnumbers, -, hdiff, hstrings⟩ := comparisons_are_total_orders
  obtain ⟨d, hd, -, hzero, hpos⟩ := hdiff _ hrune _ hhalf
  cases hd
  have hleft : lt.Holds onNumbers (whole (-1) .rune) (ofRat (1 / 2)) :=
    hpos.2 (by rw [Number.sub_re, whole, ofRat]; norm_num)
  obtain ⟨e, he, -, -, hpos'⟩ := hdiff _ hhalf _ hint
  cases he
  have hright : lt.Holds onNumbers (ofRat (1 / 2)) (whole 1 .int) :=
    hpos'.2 (by rw [Number.sub_re, whole, ofRat]; norm_num)
  obtain ⟨hless, -, happend⟩ := hstrings "\uFFFD" "😀"
  obtain ⟨zx, zy, hzx, hzy, hkeep⟩ := happend "é"
  cases hzx
  cases hzy
  exact ⟨hrune, hhalf, hint, hnumbers.trans _ hrune _ hhalf _ hint hleft hright, hzero.1 hleft,
    hbytes, hless.2 hbytes, hkeep.1 (hless.2 hbytes)⟩

end ConstCheck
