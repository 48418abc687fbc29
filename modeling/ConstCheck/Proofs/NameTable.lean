import Mathlib.Data.Finset.Card
import Mathlib.Data.Fintype.EquivFin
import Mathlib.Data.List.Nodup
import ConstCheck.Expr.Interner

/-!
# The table of names over many calls

A table keeps each string twice: under its number in the list, and as a key that has the number.
Every call keeps the two in step, so a name that was given out once stands for its string for ever,
and the numbers are used up one after another.

* `Interner.tryIntern_serves`: what a call can do, with its guards.
* `Interner.Agrees`: the list and the keys are inverse to each other.
* `Interner.Agrees.tryIntern`, `Interner.Agrees.after`: a call keeps that, and so do all.
* `Interner.Agrees.tryInternAround_eq`: a call between whose two look-ups others are served.
* `Interner.exists_size_after`: tables of every size are reached, the full one included.
* `Interner.first_uses`: strings and names in the order of first use.
* `Interner.Corresponds`, `interner_invariant` (every sequence of calls): **names and strings
  correspond**, one to one and for good.
-/

namespace ConstCheck

namespace Interner

variable {t t' : Interner} {s : String} {name : Name}

/-! ## One call -/

theorem known?_eq_some_iff : t.known? s = some name ↔ t.numbers[s]? = some name.index := by
  obtain ⟨index⟩ := name
  simp [known?]

theorem known?_eq_none_iff : t.known? s = none ↔ t.numbers[s]? = none := by
  simp [known?]

/-- The outcomes of a call. -/
inductive Serves (t : Interner) (s : String) : Except Overflow Name × Interner → Prop
  | known {name : Name} (h : t.known? s = some name) : Serves t s (.ok name, t)
  | issued (h : t.known? s = none) (hroom : t.size ≤ maxIndex) :
    Serves t s (.ok ⟨t.size⟩, ⟨t.strings.push s, t.numbers.insert s t.size⟩)
  | full (h : t.known? s = none) (hfull : maxIndex < t.size) : Serves t s (.error ⟨t.size⟩, t)

/-- With nobody between them, the second look-up finds what the first did. -/
theorem tryIntern_eq_register (t : Interner) (s : String) : t.tryIntern s = t.register s := by
  unfold tryIntern register
  cases t.known? s with
  | none => rfl
  | some name => rfl

/-- **What a call can do.** -/
theorem tryIntern_serves (t : Interner) (s : String) : Serves t s (t.tryIntern s) := by
  rw [tryIntern_eq_register]
  unfold register
  cases h : t.known? s with
  | some name => exact .known h
  | none =>
    dsimp only
    split_ifs with hfull
    · exact .full h hfull
    · exact .issued h (Nat.not_lt.1 hfull)

theorem size_pushed (t : Interner) (s : String) :
    (⟨t.strings.push s, t.numbers.insert s t.size⟩ : Interner).size = t.size + 1 :=
  Array.size_push _

theorem tryIntern_of_known (h : t.known? s = some name) : t.tryIntern s = (.ok name, t) := by
  unfold tryIntern
  rw [h]

/-! ## The two halves of the table -/

/-- The two halves of a table are in step. -/
structure Agrees (t : Interner) : Prop where
  /-- A string has a number if and only if it stands there. -/
  inverse : ∀ (s : String) (i : ℕ), t.numbers[s]? = some i ↔ t.strings[i]? = some s
  /-- The empty string comes first. -/
  empty : t.strings[0]? = some ""
  /-- Every string has a number that fits. -/
  bounded : t.size ≤ maxIndex + 1

theorem agrees_new : Agrees new where
  inverse s i := by
    rw [new, Std.HashMap.singleton_eq_insert, Std.HashMap.getElem?_insert]
    by_cases hs : s = ""
    · cases i <;> simp [hs]
    · cases i <;> simp [Ne.symm hs]
  empty := rfl
  bounded := Nat.succ_le_succ (Nat.zero_le _)

/-- A string that the table does not know stands nowhere in it. -/
theorem Agrees.not_mem (h : t.Agrees) (hs : t.known? s = none) : s ∉ t.strings := by
  intro hmem
  obtain ⟨i, hi⟩ := Array.mem_iff_getElem?.1 hmem
  have hnumber := (h.inverse s i).2 hi
  rw [known?_eq_none_iff.1 hs] at hnumber
  cases hnumber

theorem Agrees.mem_of_known? (h : t.Agrees) (hs : t.known? s = some name) : s ∈ t.strings :=
  Array.mem_iff_getElem?.2 ⟨_, (h.inverse s _).1 (known?_eq_some_iff.1 hs)⟩

theorem Agrees.nodup (h : t.Agrees) : t.strings.toList.Nodup := by
  rw [List.nodup_iff_getElem?_ne_getElem?]
  intro i j hij hj heq
  have hs : t.strings[j]? = some t.strings.toList[j] := by
    rw [← Array.getElem?_toList]
    exact List.getElem?_eq_getElem hj
  have hi : t.strings[i]? = t.strings[j]? := by
    rw [← Array.getElem?_toList, ← Array.getElem?_toList]
    exact heq
  have hnumber := (h.inverse _ j).2 hs
  rw [(h.inverse _ i).2 (hi.trans hs), Option.some.injEq] at hnumber
  omega

/-- A new string is the last one in the list, under the number that its key has. No other key has
that number, since no other string stands there. -/
theorem Agrees.push (h : t.Agrees) (hs : t.known? s = none) (hroom : t.size ≤ maxIndex) :
    Agrees ⟨t.strings.push s, t.numbers.insert s t.size⟩ where
  inverse s' i := by
    have hold := h.inverse s' i
    rw [Std.HashMap.getElem?_insert, Array.getElem?_push]
    by_cases hi : i = t.strings.size
    · subst hi
      have hbeyond : t.strings[t.strings.size]? = none := Array.getElem?_size
      rw [if_pos rfl]
      by_cases hs' : s = s'
      · simp [hs', size]
      · rw [if_neg (by simpa using hs'), hold, hbeyond]
        simp [hs']
    · rw [if_neg hi]
      by_cases hs' : s = s'
      · subst hs'
        rw [known?_eq_none_iff.1 hs] at hold
        simpa [size, Ne.symm hi] using hold
      · rw [if_neg (by simpa using hs')]
        exact hold
  empty := by
    have hfirst := (Array.getElem?_eq_some_iff.1 h.empty).1
    rw [Array.getElem?_push, if_neg (by omega)]
    exact h.empty
  bounded := by
    rw [size_pushed]
    exact Nat.succ_le_succ hroom

/-- **A call keeps the halves in step.** -/
theorem Agrees.tryIntern (h : t.Agrees) (s : String) : (t.tryIntern s).2.Agrees := by
  have hcall := t.tryIntern_serves s
  generalize t.tryIntern s = r at hcall ⊢
  cases hcall with
  | known => exact h
  | full => exact h
  | issued hs hroom => exact h.push hs hroom

/-- Every string keeps its number. -/
def Keeps (t t' : Interner) : Prop :=
  ∀ (i : ℕ) (s : String), t.strings[i]? = some s → t'.strings[i]? = some s

theorem keeps_tryIntern (t : Interner) (s : String) : t.Keeps (t.tryIntern s).2 := by
  have hcall := t.tryIntern_serves s
  generalize t.tryIntern s = r at hcall ⊢
  intro i s' hi
  cases hcall with
  | known => exact hi
  | full => exact hi
  | issued =>
    have hlt := (Array.getElem?_eq_some_iff.1 hi).1
    rw [Array.getElem?_push, if_neg (by omega)]
    exact hi

/-- The name that a call returns is the string's, in the table that it leaves. -/
theorem Agrees.string_of_ok (h : t.Agrees) (hok : t.tryIntern s = (.ok name, t')) :
    t'.strings[name.index]? = some s := by
  have hcall := t.tryIntern_serves s
  rw [hok] at hcall
  cases hcall with
  | known hs => exact (h.inverse s _).1 (known?_eq_some_iff.1 hs)
  | issued => exact Array.getElem?_push_size

/-- A string that stands in the table is known by its number there. -/
theorem Agrees.tryIntern_of_string (h : t.Agrees) (hs : t.strings[name.index]? = some s) :
    t.tryIntern s = (.ok name, t) :=
  tryIntern_of_known (known?_eq_some_iff.2 ((h.inverse s _).2 hs))

/-- **A call returns a name unless the string is new and the numbers are used up**; then it leaves
the table as it was. -/
theorem Agrees.tryIntern_ok_or_full (h : t.Agrees) (s : String) :
    ((s ∈ t.strings ∨ t.size ≤ maxIndex) ∧ ∃ name next, t.tryIntern s = (.ok name, next)) ∨
    (s ∉ t.strings ∧ t.size = maxIndex + 1 ∧ t.tryIntern s = (.error ⟨maxIndex + 1⟩, t)) := by
  have hcall := t.tryIntern_serves s
  generalize t.tryIntern s = r at hcall ⊢
  cases hcall with
  | known hs => exact .inl ⟨.inl (h.mem_of_known? hs), _, _, rfl⟩
  | issued hs hroom => exact .inl ⟨.inr hroom, _, _, rfl⟩
  | full hs hfull =>
    have hsize : t.size = maxIndex + 1 := Nat.le_antisymm h.bounded hfull
    exact .inr ⟨h.not_mem hs, hsize, by rw [hsize]⟩

/-! ## All calls -/

/-- The table after one call after another. -/
def after (t : Interner) (calls : List String) : Interner :=
  calls.foldl (fun t s => (t.tryIntern s).2) t

/-- The names that the calls return, each with its string. -/
def granted : Interner → List String → List (String × Name)
  | _, [] => []
  | t, s :: calls =>
    match t.tryIntern s with
    | (.ok name, next) => (s, name) :: next.granted calls
    | (.error _, next) => next.granted calls

theorem after_cons (t : Interner) (s : String) (calls : List String) :
    t.after (s :: calls) = (t.tryIntern s).2.after calls := rfl

theorem after_append (t : Interner) (calls later : List String) :
    t.after (calls ++ later) = (t.after calls).after later := List.foldl_append

theorem granted_append (t : Interner) (calls later : List String) :
    t.granted (calls ++ later) = t.granted calls ++ (t.after calls).granted later := by
  induction calls generalizing t with
  | nil => rfl
  | cons s calls ih =>
    rw [after_cons, List.cons_append, granted, granted]
    cases t.tryIntern s with
    | mk answer next =>
      cases answer with
      | ok name => exact congrArg ((s, name) :: ·) (ih next)
      | error e => exact ih next

theorem Agrees.after (h : t.Agrees) (calls : List String) : (t.after calls).Agrees := by
  induction calls generalizing t with
  | nil => exact h
  | cons s calls ih => exact ih (h.tryIntern s)

theorem keeps_after (t : Interner) (calls : List String) : t.Keeps (t.after calls) := by
  induction calls generalizing t with
  | nil => exact fun _ _ h => h
  | cons s calls ih => exact fun i s' h => ih _ i s' (keeps_tryIntern t s i s' h)

/-- A name that was returned stands for its string at the end. -/
theorem Agrees.string_of_granted (h : t.Agrees) {calls : List String}
    (hn : (s, name) ∈ t.granted calls) : (t.after calls).strings[name.index]? = some s := by
  induction calls generalizing t with
  | nil => cases hn
  | cons s' calls ih =>
    have hnext := h.tryIntern s'
    rw [after_cons]
    rw [granted] at hn
    cases hcall : t.tryIntern s' with
    | mk answer next =>
      rw [hcall] at hn hnext
      cases answer with
      | error e => exact ih hnext hn
      | ok n =>
        rcases List.mem_cons.1 hn with heq | hlater
        · cases heq
          exact keeps_after next calls _ _ (h.string_of_ok hcall)
        · exact ih hnext hlater

theorem exists_not_mem (t : Interner) : ∃ s, s ∉ t.strings := by
  obtain ⟨s, hs⟩ := Infinite.exists_notMem_finset t.strings.toList.toFinset
  exact ⟨s, by simpa using hs⟩

/-- Tables of every size are reached, since there is always a string that is not listed yet. -/
theorem exists_size_after {n : ℕ} (hn : n ≤ maxIndex) :
    ∃ calls, (new.after calls).size = n + 1 := by
  induction n with
  | zero => exact ⟨[], rfl⟩
  | succ n ih =>
    obtain ⟨calls, hsize⟩ := ih (by omega)
    obtain ⟨s, hnew⟩ := exists_not_mem (new.after calls)
    have hagrees := agrees_new.after calls
    refine ⟨calls ++ [s], ?_⟩
    rw [after_append]
    generalize new.after calls = t at *
    have hcall := t.tryIntern_serves s
    rw [after_cons]
    generalize t.tryIntern s = r at hcall ⊢
    cases hcall with
    | known hknown => exact absurd (hagrees.mem_of_known? hknown) hnew
    | issued => exact (size_pushed t s).trans (by rw [hsize])
    | full _ hfull => omega

/-- A call between whose two look-ups other calls are served. -/
def tryInternAround (t : Interner) (between : List String) (s : String) :
    Except Overflow Name × Interner :=
  match t.known? s with
  | some name => (.ok name, t.after between)
  | none => (t.after between).register s

/-- **A call between whose look-ups others are served is a call after them.** What the first
look-up finds is still there, and what it does not find is looked up again. -/
theorem Agrees.tryInternAround_eq (h : t.Agrees) (between : List String) (s : String) :
    t.tryInternAround between s = (t.after between).tryIntern s := by
  unfold tryInternAround
  cases hs : t.known? s with
  | none => exact (tryIntern_eq_register _ s).symm
  | some name =>
    have hstring := (h.inverse s _).1 (known?_eq_some_iff.1 hs)
    exact ((h.after between).tryIntern_of_string (keeps_after t between _ _ hstring)).symm

/-! ## The order of first use -/

section

variable {α : Type} [BEq α] [LawfulBEq α] {xs : List α} {x : α}

theorem eraseDups_concat_of_mem (h : x ∈ xs) : (xs ++ [x]).eraseDups = xs.eraseDups := by
  rw [List.eraseDups_append]
  simp [List.removeAll, h]

theorem eraseDups_concat_of_not_mem (h : x ∉ xs) :
    (xs ++ [x]).eraseDups = xs.eraseDups ++ [x] := by
  rw [List.eraseDups_append]
  simp [List.removeAll, h, List.eraseDups_cons]

end

/-- **Strings and names in the order of first use**, the empty string before all. A known string
and its name were used before; a new string comes last, with the next number. -/
theorem first_uses (calls : List String) :
    ("" :: (new.granted calls).map Prod.fst).eraseDups = (new.after calls).strings.toList ∧
    (Name.empty :: (new.granted calls).map Prod.snd).eraseDups =
      (List.range (new.after calls).size).map Name.mk := by
  induction calls using List.reverseRecOn with
  | nil => exact ⟨rfl, rfl⟩
  | append_singleton calls s ih =>
    obtain ⟨hstrings, hnames⟩ := ih
    have hagrees := agrees_new.after calls
    rw [granted_append, after_append]
    generalize new.granted calls = given at *
    generalize new.after calls = t at *
    -- what was used before is what stands in the table
    have hs_used : ∀ s, s ∈ "" :: given.map Prod.fst ↔ s ∈ t.strings := by
      intro s
      rw [← List.mem_eraseDups, hstrings, Array.mem_toList_iff]
    have hn_used : ∀ n : Name, n ∈ Name.empty :: given.map Prod.snd ↔ n.index < t.size := by
      intro n
      rw [← List.mem_eraseDups, hnames, List.mem_map]
      constructor
      · rintro ⟨i, hi, rfl⟩
        exact List.mem_range.1 hi
      · exact fun hn => ⟨n.index, List.mem_range.2 hn, rfl⟩
    have hcall := t.tryIntern_serves s
    rw [after_cons, granted]
    generalize t.tryIntern s = r at hcall ⊢
    cases hcall with
    | full => simpa [granted, after] using ⟨hstrings, hnames⟩
    | @known name hs =>
      have hlisted := (hagrees.inverse s _).1 (known?_eq_some_iff.1 hs)
      have hold := (hs_used s).2 (hagrees.mem_of_known? hs)
      have hold' := (hn_used name).2 (Array.getElem?_eq_some_iff.1 hlisted).1
      simp only [granted, List.map_append, List.map_cons, List.map_nil, ← List.cons_append]
      rw [eraseDups_concat_of_mem hold, eraseDups_concat_of_mem hold']
      exact ⟨hstrings, hnames⟩
    | issued hs =>
      have hnew : s ∉ "" :: given.map Prod.fst := by
        intro hold
        exact hagrees.not_mem hs ((hs_used s).1 hold)
      have hnew' : (⟨t.size⟩ : Name) ∉ Name.empty :: given.map Prod.snd := by
        intro hold
        exact Nat.lt_irrefl _ ((hn_used _).1 hold)
      simp only [granted, List.map_append, List.map_cons, List.map_nil, ← List.cons_append]
      rw [eraseDups_concat_of_not_mem hnew, eraseDups_concat_of_not_mem hnew', hstrings, hnames]
      refine ⟨Array.toList_push.symm, ?_⟩
      rw [after, List.foldl_nil, size_pushed, List.range_succ, List.map_append]
      rfl

/-- The table holds the empty string and each other string that was given a name, once. -/
theorem size_after (calls : List String) :
    (new.after calls).size = 1 + (((new.granted calls).map Prod.fst).toFinset.erase "").card := by
  obtain ⟨hstrings, -⟩ := first_uses calls
  have hnodup := (agrees_new.after calls).nodup
  generalize (new.granted calls).map Prod.fst = named at *
  have hset : (new.after calls).strings.toList.toFinset = insert "" (named.toFinset.erase "") := by
    rw [← hstrings]
    ext s
    by_cases hs : s = "" <;> simp [hs]
  calc (new.after calls).size
      = (new.after calls).strings.toList.toFinset.card :=
        (List.toFinset_card_of_nodup hnodup).symm
    _ = 1 + (named.toFinset.erase "").card := by
        rw [hset, Finset.card_insert_of_notMem (Finset.notMem_erase _ _), Nat.add_comm]

/-- **Names and strings correspond**, one to one and for good: a table, and the names that were
granted on the way to it, each with its string. -/
structure Corresponds (t : Interner) (granted : List (String × Name)) : Prop where
  /-- The keys and the list are inverse to each other, and the empty string is number 0. -/
  agrees : t.Agrees
  nodup : t.strings.toList.Nodup
  /-- A name is looked up as its string, and returned for it again, after any further calls. -/
  kept : ∀ s name, (s, name) ∈ granted → ∀ later,
    (t.after later).lookup name = s ∧
    (t.after later).tryIntern s = (.ok name, t.after later)
  injective : ∀ s name s' name', (s, name) ∈ granted → (s', name') ∈ granted →
    (name = name' ↔ s = s')
  /-- The names are used up one after another, beginning with that of the empty string. -/
  names : (Name.empty :: granted.map Prod.snd).eraseDups = (List.range t.size).map Name.mk
  /-- The strings are listed in the order of first use. -/
  strings : ("" :: granted.map Prod.fst).eraseDups = t.strings.toList
  size_eq : t.size = 1 + ((granted.map Prod.fst).toFinset.erase "").card
  /-- A call fails if and only if its string is new and no number is left. Then it leaves the table
  as it was. -/
  served : ∀ s,
    ((s ∈ t.strings ∨ t.size ≤ maxIndex) ∧ ∃ name next, t.tryIntern s = (.ok name, next)) ∨
    (s ∉ t.strings ∧ t.size = maxIndex + 1 ∧ t.tryIntern s = (.error ⟨maxIndex + 1⟩, t))
  /-- A call between whose two look-ups others are served is a call after them. -/
  around : ∀ between s, t.tryInternAround between s = (t.after between).tryIntern s

end Interner

/-- **Names and strings correspond**, after any sequence of calls. -/
theorem interner_invariant (calls : List String) :
    (Interner.new.after calls).Corresponds (Interner.new.granted calls) := by
  have ht := Interner.agrees_new.after calls
  have hgranted : ∀ {s name}, (s, name) ∈ Interner.new.granted calls →
      (Interner.new.after calls).strings[name.index]? = some s :=
    Interner.agrees_new.string_of_granted
  obtain ⟨hstrings, hnames⟩ := Interner.first_uses calls
  have hsize := Interner.size_after calls
  generalize Interner.new.after calls = t at *
  refine ⟨ht, ht.nodup, ?_, ?_, hnames, hstrings, hsize, ht.tryIntern_ok_or_full,
    ht.tryInternAround_eq⟩
  · intro s name hn later
    have hlater := t.keeps_after later _ _ (hgranted hn)
    refine ⟨?_, (ht.after later).tryIntern_of_string hlater⟩
    rw [Interner.lookup, hlater, Option.getD_some]
  · intro s name s' name' hn hn'
    have hs := hgranted hn
    have hs' := hgranted hn'
    constructor
    · rintro rfl
      rw [hs] at hs'
      exact Option.some.inj hs'
    · rintro rfl
      have hnumber := (ht.inverse s _).2 hs
      rw [(ht.inverse s _).2 hs', Option.some.injEq] at hnumber
      exact (Name.mk.injEq _ _).mpr hnumber.symm

/-- Of four calls the first and the last are for one string, and get one name: the first number that
is left beside that of the empty string. And there are calls that leave no number, so that the next
new string is refused. -/
theorem interner_invariant_again :
    (("x", (⟨1⟩ : Name)) ∈ Interner.new.granted ["x", "", "y", "x"] ∧
      ("y", (⟨2⟩ : Name)) ∈ Interner.new.granted ["x", "", "y", "x"] ∧
      ((Interner.new.after ["x", "", "y", "x"]).after ["z"]).lookup ⟨1⟩ = "x" ∧
      ((⟨1⟩ : Name) = ⟨2⟩ ↔ "x" = "y")) ∧
    ∃ calls s, (Interner.new.after calls).tryIntern s =
      (.error ⟨0x100000000⟩, Interner.new.after calls) := by
  have hcalls : Interner.new.granted ["x", "", "y", "x"] =
      [("x", ⟨1⟩), ("", ⟨0⟩), ("y", ⟨2⟩), ("x", ⟨1⟩)] := by
    simp [Interner.granted, Interner.tryIntern, Interner.register, Interner.known?, Interner.new,
      Interner.maxIndex, Std.HashMap.getElem_insert]
  have hx : ("x", (⟨1⟩ : Name)) ∈ Interner.new.granted ["x", "", "y", "x"] := by simp [hcalls]
  have hy : ("y", (⟨2⟩ : Name)) ∈ Interner.new.granted ["x", "", "y", "x"] := by simp [hcalls]
  have hfour := interner_invariant ["x", "", "y", "x"]
  refine ⟨⟨hx, hy, (hfour.kept _ _ hx ["z"]).1, hfour.injective _ _ _ _ hx hy⟩, ?_⟩
  obtain ⟨calls, hsize⟩ := Interner.exists_size_after (Nat.le_refl _)
  obtain ⟨s, hnew⟩ := Interner.exists_not_mem (Interner.new.after calls)
  refine ⟨calls, s, ?_⟩
  rcases (interner_invariant calls).served s with ⟨hmem | hroom, -⟩ | ⟨-, -, hfull⟩
  · exact absurd hmem hnew
  · omega
  · exact hfull

end ConstCheck
