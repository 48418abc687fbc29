import Mathlib.Data.List.Basic
import ConstCheck.Ty.Text

/-!
# Types are read in one way

The text of a type starts with what the type is: a word, or a mark before the types that it is made
of. Behind a type that is over nothing comes, or a comma, or a closing bracket; so a word that
begins another one, as `int` begins `int8`, is not taken for it, and neither are the results of a
function for what comes behind a function without results. From its start on a text can therefore be read as
one type alone, if the type has no part whose text does not tell it: the name of a declared type, or
a function that takes any number of arguments.

* `Ty.WrittenOut`: the types without such a part.
* `Ty.Head`: what a type is before the types that it is made of.
* `Ty.Head.append_inj`: **no head is taken for another**.
* `Ty.ReadsOnce`: no other type is at the start of a text that starts with the type.
* `Ty.listText_inj`, `Ty.resultsText_inj`: lists of types that read once do so too.
* `text_eq_iff` (all types written out): **types with one text are equal**.
-/

namespace ConstCheck

namespace Ty

/-! ## Types written out -/

/-- A type whose text tells all of it: no declared type is part of it, and no function that takes
any number of arguments. -/
inductive WrittenOut : Ty → Prop
  | basic (b : BasicType) : WrittenOut (.basic b)
  | pointer {elem : Ty} (helem : WrittenOut elem) : WrittenOut (.pointer elem)
  | slice {elem : Ty} (helem : WrittenOut elem) : WrittenOut (.slice elem)
  | array (length : ℕ) {elem : Ty} (helem : WrittenOut elem) : WrittenOut (.array length elem)
  | map {key value : Ty} (hkey : WrittenOut key) (hvalue : WrittenOut value) :
    WrittenOut (.map key value)
  | chan {elem : Ty} (helem : WrittenOut elem) : WrittenOut (.chan elem)
  | func {params results : List Ty} (hparams : ∀ t ∈ params, WrittenOut t)
    (hresults : ∀ t ∈ results, WrittenOut t) : WrittenOut (.func params results false)
  | interface (i : Interface) : WrittenOut (.interface i)
  | package : WrittenOut .package

/-- Of a function with any number of arguments the text tells less: that it is one is not
written. -/
example : ∃ t u : Ty, t.text = u.text ∧ t ≠ u :=
  ⟨func [.int] [] true, func [.int] [] false, by cbv, by decide +kernel⟩

/-- What may come behind a type: nothing, a comma, or a closing bracket. -/
def Closes : List Char → Prop
  | [] => True
  | c :: _ => c = ',' ∨ c = ')' ∨ c = ']'

instance : DecidablePred Closes
  | [] => inferInstanceAs (Decidable True)
  | c :: _ => inferInstanceAs (Decidable (c = ',' ∨ c = ')' ∨ c = ']'))

theorem closes_nil : Closes [] := trivial

theorem closes_of_append {xs ys : List Char} (h : Closes (xs ++ ys)) : Closes xs := by
  cases xs with
  | nil => exact closes_nil
  | cons x xs => exact h

/-- A text starts as its first part does, if there is something in that part. -/
theorem head?_of_cons_eq_append {c : Char} {xs ys zs : List Char} (h : c :: ys = xs ++ zs) :
    xs.head? ∈ [none, some c] := by
  cases xs with
  | nil => exact List.mem_cons_self
  | cons x xs =>
    obtain rfl : c = x := (List.cons.inj h).1
    exact List.mem_cons_of_mem _ List.mem_cons_self

/-! ## Heads -/

/-- What a type is before the types that it is made of. A slice is written as an array without a
length. -/
inductive Head where
  | basic (b : BasicType)
  | interface (i : Interface)
  | package
  | pointer
  | sequence (length : Option ℕ)
  | map
  | chan
  | func
  deriving DecidableEq

namespace Head

/-- The text of a length. -/
def lengthText : Option ℕ → String
  | none => ""
  | some n => n.repr

def text : Head → String
  | basic b => b.text
  | interface .empty => "interface \x7b\x7d"
  | interface .error => "error"
  | package => "package"
  | pointer => "*"
  | sequence length => "[" ++ lengthText length ++ "]"
  | map => "map["
  | chan => "chan "
  | func => "func("

theorem toList_text_sequence (length : Option ℕ) :
    (sequence length).text.toList = '[' :: ((lengthText length).toList ++ [']']) := by
  simp [text]

/-- The heads of types that are made of no others. -/
def isWhole : Head → Bool
  | basic _ | interface _ | package => true
  | _ => false

/-- The digits of a length end at the bracket. -/
theorem bracket_notMem_lengthText (length : Option ℕ) : ']' ∉ (lengthText length).toList := by
  cases length with
  | none => exact List.not_mem_nil
  | some n =>
    intro hmem
    rw [lengthText, Nat.toList_repr] at hmem
    have hdigit := Nat.isDigit_of_mem_toDigits (by decide) (by decide) hmem
    exact absurd hdigit (by decide)

theorem lengthText_inj {m n : Option ℕ} (h : lengthText m = lengthText n) : m = n := by
  cases m with
  | none =>
    cases n with
    | none => rfl
    | some n => exact absurd h.symm Nat.repr_ne_empty
  | some m =>
    cases n with
    | none => exact absurd h Nat.repr_ne_empty
    | some n =>
      have hdigits : Nat.toDigits 10 m = Nat.toDigits 10 n := by
        rw [← Nat.toList_repr, ← Nat.toList_repr]
        exact congrArg String.toList h
      -- the digits are read back
      rw [← @Nat.ofDigitChars_ten_toDigits m, hdigits, Nat.ofDigitChars_ten_toDigits]

/-- All heads but those of slices and arrays. -/
def fixed : List Head :=
  BasicType.all.map basic ++
    [interface .empty, interface .error, package, pointer, map, chan, func]

theorem eq_sequence_or_mem_fixed (a : Head) : (∃ length, a = sequence length) ∨ a ∈ fixed := by
  cases a with
  | basic b => exact .inr (by cases b <;> decide)
  | interface i => exact .inr (by cases i <;> decide)
  | sequence length => exact .inl ⟨length, rfl⟩
  | package | pointer | map | chan | func => exact .inr (by decide)

theorem head?_text_of_mem_fixed :
    ∀ a ∈ fixed, a.text.toList.head? ∉ [none, some '[', some '(', some ')'] := by
  decide +kernel

/-- Among the fixed heads one begins another only where it is a word that does not end there. -/
theorem fixed_prefix : ∀ a ∈ fixed, ∀ b ∈ fixed,
    b.text.toList.take a.text.toList.length = a.text.toList →
    (a.isWhole → Closes (b.text.toList.drop a.text.toList.length)) → a = b := by
  decide +kernel

/-- No head starts with a parenthesis. -/
theorem head?_text (a : Head) : a.text.toList.head? ∉ [none, some '(', some ')'] := by
  obtain ⟨length, rfl⟩ | ha := a.eq_sequence_or_mem_fixed
  · rw [toList_text_sequence, List.head?_cons]
    decide
  · intro hmem
    have hsub : [none, some '(', some ')'] ⊆ [none, some '[', some '(', some ')'] := by decide
    exact head?_text_of_mem_fixed a ha (hsub hmem)

/-- A fixed head is not written where a slice or an array is. -/
theorem sequence_append_ne_fixed {a : Head} (ha : a ∈ fixed) (length : Option ℕ)
    (x y : List Char) : (sequence length).text.toList ++ x ≠ a.text.toList ++ y := by
  intro h
  rw [toList_text_sequence, List.cons_append] at h
  have hsub : [none, some '['] ⊆ [none, some '[', some '(', some ')'] := by decide
  exact head?_text_of_mem_fixed a ha (hsub (head?_of_cons_eq_append h))

/-- A head that another one begins with is that head, if what is behind it there may come behind a
type. -/
theorem eq_of_begins {a b : Head} {x : List Char} (h : b.text.toList = a.text.toList ++ x)
    (hx : a.isWhole → Closes x) : a = b := by
  obtain ⟨m, rfl⟩ | ha := a.eq_sequence_or_mem_fixed
  · obtain ⟨n, rfl⟩ | hb := b.eq_sequence_or_mem_fixed
    · rw [toList_text_sequence, toList_text_sequence, List.cons_append, List.append_assoc] at h
      obtain ⟨hlength, -⟩ := (List.append_cons_inj_of_notMem
        (bracket_notMem_lengthText n) List.not_mem_nil).1 (List.cons.inj h).2
      rw [lengthText_inj (String.toList_inj.1 hlength)]
    · exact absurd (h.symm.trans (List.append_nil _).symm) (sequence_append_ne_fixed hb m x [])
  · obtain ⟨n, rfl⟩ | hb := b.eq_sequence_or_mem_fixed
    · exact absurd ((List.append_nil _).trans h) (sequence_append_ne_fixed ha n [] x)
    · apply fixed_prefix a ha b hb
      · rw [h, List.take_left]
      · rwa [h, List.drop_left]

/-- **No head is taken for another.** -/
theorem append_inj {a b : Head} {x y : List Char} (hx : a.isWhole → Closes x)
    (hy : b.isWhole → Closes y) (h : a.text.toList ++ x = b.text.toList ++ y) : a = b ∧ x = y := by
  have hab : a = b := by
    obtain ⟨z, hb, rfl⟩ | ⟨z, ha, rfl⟩ := List.append_eq_append_iff.1 h
    · exact eq_of_begins hb fun ha => closes_of_append (hx ha)
    · exact (eq_of_begins ha fun hb => closes_of_append (hy hb)).symm
  subst hab
  exact ⟨rfl, List.append_cancel_left h⟩

end Head

/-! ## Types and their heads -/

/-- The head of a type that is not declared. -/
def head? : Ty → Option Head
  | basic b => some (.basic b)
  | pointer _ => some .pointer
  | slice _ => some (.sequence none)
  | array length _ => some (.sequence (some length))
  | map _ _ => some .map
  | chan _ => some .chan
  | func _ _ _ => some .func
  | interface i => some (.interface i)
  | declared _ _ => none
  | package => some .package

/-- The text of the types that a type is made of, with the marks between them. -/
def rest : Ty → List Char
  | pointer elem | slice elem | array _ elem | chan elem => elem.text.toList
  | map key value => key.text.toList ++ ']' :: value.text.toList
  | func params results _ => (listText params).toList ++ ')' :: (resultsText results).toList
  | basic _ | interface _ | declared _ _ | package => []

variable {t u : Ty} {r s : List Char}

theorem WrittenOut.exists_head (ht : t.WrittenOut) : ∃ a, t.head? = some a := by
  cases ht <;> exact ⟨_, rfl⟩

/-- A text is the head and the rest. -/
theorem toList_text {a : Head} (ha : t.head? = some a) :
    t.text.toList = a.text.toList ++ t.rest := by
  cases t with
  | declared name body => cases ha
  | interface i =>
    obtain rfl := Option.some.inj ha
    cases i <;> simp [Ty.text, rest, Head.text]
  | _ =>
    obtain rfl := Option.some.inj ha
    simp [Ty.text, rest, Head.text, Head.lengthText]

theorem rest_of_isWhole {a : Head} (ha : t.head? = some a) (hwhole : a.isWhole) : t.rest = [] := by
  cases t <;> cases ha <;> first | rfl | cases hwhole

/-- **Two types with one text in front of what closes them have one head, and the rest in
common.** -/
theorem WrittenOut.head_inj (ht : t.WrittenOut) (hu : u.WrittenOut) (hr : Closes r)
    (hs : Closes s) (h : t.text.toList ++ r = u.text.toList ++ s) :
    t.head? = u.head? ∧ t.rest ++ r = u.rest ++ s := by
  have hclose : ∀ {v : Ty} {a : Head} {x : List Char}, v.head? = some a → Closes x →
      a.isWhole → Closes (v.rest ++ x) := by
    intro v a x ha hx hwhole
    rwa [rest_of_isWhole ha hwhole, List.nil_append]
  obtain ⟨a, ha⟩ := ht.exists_head
  obtain ⟨b, hb⟩ := hu.exists_head
  rw [toList_text ha, toList_text hb, List.append_assoc, List.append_assoc] at h
  obtain ⟨hab, hrest⟩ := Head.append_inj (hclose ha hr) (hclose hb hs) h
  exact ⟨by rw [ha, hb, hab], hrest⟩

/-- No type starts with a parenthesis. -/
theorem WrittenOut.paren_ne_text (hu : u.WrittenOut) {c : Char} (hc : c = '(' ∨ c = ')')
    (r s : List Char) : c :: r ≠ u.text.toList ++ s := by
  intro h
  obtain ⟨a, ha⟩ := hu.exists_head
  rw [toList_text ha, List.append_assoc] at h
  have hsub : [none, some c] ⊆ [none, some '(', some ')'] := by
    rcases hc with rfl | rfl <;> decide
  exact a.head?_text (hsub (head?_of_cons_eq_append h))

/-! ## Lists of types -/

/-- No other type is at the start of a text that starts with the type. -/
def ReadsOnce (t : Ty) : Prop :=
  ∀ ⦃u : Ty⦄, u.WrittenOut → ∀ ⦃r s : List Char⦄, Closes r → Closes s →
    t.text.toList ++ r = u.text.toList ++ s → t = u ∧ r = s

variable {ts us : List Ty}

/-- What is behind the first type of a list. -/
def moreText : List Ty → List Char
  | [] => []
  | t :: ts => ',' :: ' ' :: (listText (t :: ts)).toList

theorem toList_listText_cons (t : Ty) (ts : List Ty) :
    (listText (t :: ts)).toList = t.text.toList ++ moreText ts := by
  cases ts with
  | nil => simp [listText, moreText]
  | cons u us => simp [listText, moreText]

theorem closes_paren (r : List Char) : Closes (')' :: r) := .inr (.inl rfl)

theorem closes_bracket (r : List Char) : Closes (']' :: r) := .inr (.inr rfl)

theorem closes_moreText (ts : List Ty) (r : List Char) : Closes (moreText ts ++ ')' :: r) := by
  cases ts with
  | nil => exact closes_paren r
  | cons t ts => exact .inl rfl

/-- Lists of types in parentheses read once. -/
theorem listText_inj (hts : ∀ t ∈ ts, t.WrittenOut ∧ t.ReadsOnce) (hus : ∀ u ∈ us, u.WrittenOut)
    (h : (listText ts).toList ++ ')' :: r = (listText us).toList ++ ')' :: s) :
    ts = us ∧ r = s := by
  induction ts generalizing us with
  | nil =>
    cases us with
    | nil => exact ⟨rfl, (List.cons.inj h).2⟩
    | cons u us =>
      rw [toList_listText_cons, List.append_assoc] at h
      exact absurd h ((hus u List.mem_cons_self).paren_ne_text (.inr rfl) r _)
  | cons t ts ih =>
    obtain ⟨ht, hreads⟩ := hts t List.mem_cons_self
    cases us with
    | nil =>
      rw [toList_listText_cons, List.append_assoc] at h
      exact absurd h.symm (ht.paren_ne_text (.inr rfl) s _)
    | cons u us =>
      rw [toList_listText_cons, toList_listText_cons, List.append_assoc, List.append_assoc] at h
      obtain ⟨rfl, hmore⟩ :=
        hreads (hus u List.mem_cons_self) (closes_moreText ts r) (closes_moreText us s) h
      have hts' : ∀ v ∈ ts, v.WrittenOut ∧ v.ReadsOnce :=
        fun v hv => hts v (List.mem_cons_of_mem _ hv)
      have hus' : ∀ v ∈ us, v.WrittenOut := fun v hv => hus v (List.mem_cons_of_mem _ hv)
      cases ts with
      | nil =>
        cases us with
        | nil => exact ⟨rfl, (List.cons.inj hmore).2⟩
        | cons v us => exact absurd (List.cons.inj hmore).1 (by decide)
      | cons v ts =>
        cases us with
        | nil => exact absurd (List.cons.inj hmore).1 (by decide)
        | cons w us =>
          obtain ⟨hlist, hrest⟩ := ih hts' hus' (List.cons.inj (List.cons.inj hmore).2).2
          exact ⟨by rw [hlist], hrest⟩

/-! ## Results -/

theorem toList_resultsText_one (t : Ty) : (resultsText [t]).toList = ' ' :: t.text.toList := by
  simp [resultsText]

theorem toList_resultsText_many (t u : Ty) (ts : List Ty) :
    (resultsText (t :: u :: ts)).toList =
      ' ' :: '(' :: ((listText (t :: u :: ts)).toList ++ [')']) := by
  simp [resultsText, listText]

/-- What closes a type is no result. -/
theorem not_closes_resultsText (t : Ty) (ts : List Ty) (r : List Char) :
    ¬ Closes ((resultsText (t :: ts)).toList ++ r) := by
  have hblank : ∃ cs, (resultsText (t :: ts)).toList = ' ' :: cs := by
    cases ts with
    | nil => exact ⟨_, toList_resultsText_one t⟩
    | cons u ts => exact ⟨_, toList_resultsText_many t u ts⟩
  obtain ⟨cs, hcs⟩ := hblank
  intro hclose
  rw [hcs] at hclose
  have hchar : ' ' = ',' ∨ ' ' = ')' ∨ ' ' = ']' := hclose
  exact absurd hchar (by decide)

/-- The results of a function read once: there are none where the function is over, and more than
one where a parenthesis follows. -/
theorem resultsText_inj (hts : ∀ t ∈ ts, t.WrittenOut ∧ t.ReadsOnce) (hus : ∀ u ∈ us, u.WrittenOut)
    (hr : Closes r) (hs : Closes s)
    (h : (resultsText ts).toList ++ r = (resultsText us).toList ++ s) : ts = us ∧ r = s := by
  match ts, us with
  | [], [] => exact ⟨rfl, h⟩
  | [], u :: us => exact absurd (h ▸ hr) (not_closes_resultsText u us s)
  | t :: ts, [] => exact absurd (h ▸ hs) (not_closes_resultsText t ts r)
  | [t], [u] =>
    rw [toList_resultsText_one, toList_resultsText_one] at h
    obtain ⟨-, hreads⟩ := hts t List.mem_cons_self
    obtain ⟨rfl, hrest⟩ := hreads (hus u List.mem_cons_self) hr hs (List.cons.inj h).2
    exact ⟨rfl, hrest⟩
  | [t], u :: v :: us =>
    rw [toList_resultsText_one, toList_resultsText_many] at h
    exact absurd (List.cons.inj h).2.symm
      ((hts t List.mem_cons_self).1.paren_ne_text (.inl rfl) _ r)
  | t :: v :: ts, [u] =>
    rw [toList_resultsText_one, toList_resultsText_many] at h
    exact absurd (List.cons.inj h).2 ((hus u List.mem_cons_self).paren_ne_text (.inl rfl) _ s)
  | t :: v :: ts, u :: w :: us =>
    rw [toList_resultsText_many, toList_resultsText_many] at h
    simp only [List.cons_append, List.append_assoc] at h
    exact listText_inj hts hus (List.cons.inj (List.cons.inj h).2).2

/-! ## All types -/

/-- A type reads once if the rest tells it from the other types of its head. -/
theorem WrittenOut.readsOnce_of_rest (ht : t.WrittenOut)
    (h : ∀ ⦃u : Ty⦄, u.WrittenOut → t.head? = u.head? → ∀ ⦃r s : List Char⦄, Closes r → Closes s →
      t.rest ++ r = u.rest ++ s → t = u ∧ r = s) : t.ReadsOnce := by
  intro u hu r s hr hs htext
  obtain ⟨hhead, hrest⟩ := ht.head_inj hu hr hs htext
  exact h hu hhead hr hs hrest

/-- **Every type written out reads once.** -/
theorem WrittenOut.readsOnce (ht : t.WrittenOut) : t.ReadsOnce := by
  induction ht with
  | basic b =>
    refine (WrittenOut.basic b).readsOnce_of_rest fun u hu hhead r s _ _ hrest => ?_
    cases hu with
    | basic c =>
      obtain rfl : b = c := Head.basic.inj (Option.some.inj hhead)
      exact ⟨rfl, hrest⟩
    | _ => cases hhead
  | interface i =>
    refine (WrittenOut.interface i).readsOnce_of_rest fun u hu hhead r s _ _ hrest => ?_
    cases hu with
    | interface j =>
      obtain rfl : i = j := Head.interface.inj (Option.some.inj hhead)
      exact ⟨rfl, hrest⟩
    | _ => cases hhead
  | package =>
    refine WrittenOut.package.readsOnce_of_rest fun u hu hhead r s _ _ hrest => ?_
    cases hu with
    | package => exact ⟨rfl, hrest⟩
    | _ => cases hhead
  | pointer helem ih =>
    refine helem.pointer.readsOnce_of_rest fun u hu hhead r s hr hs hrest => ?_
    cases hu with
    | pointer helem' =>
      obtain ⟨rfl, hrs⟩ := ih helem' hr hs hrest
      exact ⟨rfl, hrs⟩
    | _ => cases hhead
  | slice helem ih =>
    refine helem.slice.readsOnce_of_rest fun u hu hhead r s hr hs hrest => ?_
    cases hu with
    | slice helem' =>
      obtain ⟨rfl, hrs⟩ := ih helem' hr hs hrest
      exact ⟨rfl, hrs⟩
    | _ => cases hhead
  | array m helem ih =>
    refine (helem.array m).readsOnce_of_rest fun u hu hhead r s hr hs hrest => ?_
    cases hu with
    | array n helem' =>
      obtain rfl : m = n := Option.some.inj (Head.sequence.inj (Option.some.inj hhead))
      obtain ⟨rfl, hrs⟩ := ih helem' hr hs hrest
      exact ⟨rfl, hrs⟩
    | _ => cases hhead
  | chan helem ih =>
    refine helem.chan.readsOnce_of_rest fun u hu hhead r s hr hs hrest => ?_
    cases hu with
    | chan helem' =>
      obtain ⟨rfl, hrs⟩ := ih helem' hr hs hrest
      exact ⟨rfl, hrs⟩
    | _ => cases hhead
  | map hkey hvalue ihkey ihvalue =>
    refine (hkey.map hvalue).readsOnce_of_rest fun u hu hhead r s hr hs hrest => ?_
    cases hu with
    | map hkey' hvalue' =>
      simp only [rest, List.append_assoc, List.cons_append] at hrest
      -- the key is closed by its bracket, the value by what closes the map
      obtain ⟨rfl, hbehind⟩ := ihkey hkey' (closes_bracket _) (closes_bracket _) hrest
      obtain ⟨rfl, hrs⟩ := ihvalue hvalue' hr hs (List.cons.inj hbehind).2
      exact ⟨rfl, hrs⟩
    | _ => cases hhead
  | func hparams hresults ihparams ihresults =>
    refine (WrittenOut.func hparams hresults).readsOnce_of_rest
      fun u hu hhead r s hr hs hrest => ?_
    cases hu with
    | func hparams' hresults' =>
      simp only [rest, List.append_assoc, List.cons_append] at hrest
      obtain ⟨rfl, hbehind⟩ :=
        listText_inj (fun t ht => ⟨hparams t ht, ihparams t ht⟩) hparams' hrest
      obtain ⟨rfl, hrs⟩ :=
        resultsText_inj (fun t ht => ⟨hresults t ht, ihresults t ht⟩) hresults' hr hs hbehind
      exact ⟨rfl, hrs⟩
    | _ => cases hhead

end Ty

/-- **Types with one text are equal**, if no declared type is part of them and no function that
takes any number of arguments. -/
theorem text_eq_iff {t u : Ty} (ht : t.WrittenOut) (hu : u.WrittenOut) :
    t.text = u.text ↔ t = u := by
  constructor
  · intro htext
    have hreads := ht.readsOnce hu Ty.closes_nil Ty.closes_nil
    rw [List.append_nil, List.append_nil, String.toList_inj] at hreads
    exact (hreads htext).1
  · intro heq
    rw [heq]

/-- A function with a function and a number as its results is not written as one whose only result
is a function with two numbers as its results. -/
theorem text_eq_iff_results :
    let function (results : List Ty) : Ty := .func [] results false
    let pair := function [function [.int], .int]
    let single := function [function [.int, .int]]
    pair.WrittenOut ∧ single.WrittenOut ∧ pair.text ≠ single.text := by
  intro function pair single
  have hfunction : ∀ results : List Ty, (∀ t ∈ results, t.WrittenOut) →
      (function results).WrittenOut := fun _ hresults => .func nofun hresults
  have hint : Ty.int.WrittenOut := .basic .int
  have hpair : pair.WrittenOut := by
    apply hfunction
    simp only [List.forall_mem_cons]
    exact ⟨hfunction _ (by simpa using hint), hint, nofun⟩
  have hsingle : single.WrittenOut := by
    apply hfunction
    simp only [List.forall_mem_cons]
    exact ⟨hfunction _ (by simpa using hint), nofun⟩
  refine ⟨hpair, hsingle, fun htext => ?_⟩
  have hsame : pair = single := (text_eq_iff hpair hsingle).1 htext
  exact absurd hsame (by decide +kernel)

end ConstCheck
