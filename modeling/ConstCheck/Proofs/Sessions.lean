import ConstCheck.Proofs.Alike

/-!
# Variables over a session

A session uses one environment: it defines variables, constants, functions and packages, stores
and loads through the handles of the variables it has defined, and checks expressions, in any
order. A handle is the cell that a definition returned, and a copy of it is the same cell; so the
number of the definition names the handle and all its copies.

* `Session`, `Session.step`, `Session.run`: the actions of a session.
* `Action.exists_last_iff`, `lastStored`: the definition that counts, and the value that was last
  stored through a handle.
* `Session.Sound`: every handle has a cell of its own.
* `Session.Holds.run`, `Session.Binds.run`: what an action does to a cell, and to a variable, and
  what all actions do.
* `Builtin.store_of_call`: what is folded in a check leaves the store as it is.
* `variables_over_session` (every session): **a variable has the type of its last definition and
  the value last stored through the handle of that definition**.
-/

namespace ConstCheck

/-- What is done in a session. Handles go by the number of the definition that returned them. -/
inductive Action where
  | defineVar (name : Name) (ty : Ty) (value : Value)
  | defineConst (name : Name) (c : Const)
  | defineFunc (name : Name) (ty : Ty)
  | definePackage (name : Name)
  | store (handle : ℕ) (value : Value)
  | load (handle : ℕ)
  | check (names : Interner) (word : WordSize) (a : Arena) (root : ExprId)

/-- What an action answers. -/
inductive Answer where
  | done
  | handle (n : ℕ)
  | value (v : Value)
  | checked (r : Option Checked)

/-- An environment, and the handles that were returned so far. -/
structure Session where
  env : Env := .empty
  handles : List Cell := []

namespace Session

/-- The answer to an action, and the session after it; none if there is no such handle yet. -/
def step (s : Session) : Action → Option (Answer × Session)
  | .defineVar name ty value =>
    let (cell, env) := s.env.defineVar name ty value
    some (.handle s.handles.length, { env, handles := s.handles ++ [cell] })
  | .defineConst name c => some (.done, { s with env := s.env.defineConst name c })
  | .defineFunc name ty => some (.done, { s with env := s.env.defineFunc name ty })
  | .definePackage name => some (.done, { s with env := s.env.definePackage name })
  | .store handle value => do
    let cell ← s.handles[handle]?
    return (.done, { s with env := s.env.assign cell value })
  | .load handle => do
    let cell ← s.handles[handle]?
    return (.value (s.env.load cell), s)
  | .check names word a root => some (.checked (a.check? ⟨names, s.env, word⟩ root), s)

/-- The session after one action after another. -/
def run (s : Session) : List Action → Option Session
  | [] => some s
  | act :: acts => do
    let (_, next) ← s.step act
    next.run acts

end Session

namespace Action

/-- The action defines a variable. -/
def isVar : Action → Bool
  | defineVar _ _ _ => true
  | _ => false

/-- The action defines a variable of this name. -/
def DefinesVar (name : Name) (act : Action) : Prop := ∃ ty value, act = defineVar name ty value

/-- The content of the cell of a handle after an action, in terms of that before. -/
def content (handle : ℕ) (v : Value) : Action → Value
  | store h value => if h = handle then value else v
  | _ => v

/-- **If a variable of a name is defined, one definition is the last.** -/
theorem exists_last_iff {acts : List Action} {name : Name} :
    (∃ act ∈ acts, act.DefinesVar name) ↔ ∃ before ty init after,
      acts = before ++ .defineVar name ty init :: after ∧ ∀ act ∈ after, ¬act.DefinesVar name := by
  constructor
  · intro h
    induction acts with
    | nil =>
      obtain ⟨act, hact, -⟩ := h
      cases hact
    | cons first acts ih =>
      by_cases hlater : ∃ act ∈ acts, act.DefinesVar name
      · obtain ⟨before, ty, init, after, rfl, hlast⟩ := ih hlater
        exact ⟨first :: before, ty, init, after, rfl, hlast⟩
      · rw [List.exists_mem_cons_iff] at h
        obtain ⟨ty, init, rfl⟩ := h.resolve_right hlater
        exact ⟨[], ty, init, acts, rfl, fun act hact hdefines => hlater ⟨act, hact, hdefines⟩⟩
  · rintro ⟨before, ty, init, after, rfl, -⟩
    exact ⟨_, List.mem_append_right before List.mem_cons_self, ty, init, rfl⟩

end Action

/-- The value that the actions stored last through a handle, or the one at the start. -/
def lastStored (handle : ℕ) (init : Value) (acts : List Action) : Value :=
  acts.foldl (Action.content handle) init

namespace Session

variable {s s' : Session} {act : Action} {acts : List Action} {answer : Answer} {name : Name}
  {ty : Ty} {n : ℕ} {v : Value}

theorem run_cons : s.run (act :: acts) = (s.step act).bind fun r => r.2.run acts := rfl

theorem run_cons_eq_some :
    s.run (act :: acts) = some s' ↔ ∃ answer mid, s.step act = some (answer, mid) ∧
      mid.run acts = some s' := by
  rw [run_cons, Option.bind_eq_some_iff]
  constructor
  · rintro ⟨⟨answer, mid⟩, hstep, hrun⟩
    exact ⟨answer, mid, hstep, hrun⟩
  · rintro ⟨answer, mid, hstep, hrun⟩
    exact ⟨⟨answer, mid⟩, hstep, hrun⟩

theorem run_append_eq_some {later : List Action} :
    s.run (acts ++ later) = some s' ↔ ∃ mid, s.run acts = some mid ∧ mid.run later = some s' := by
  induction acts generalizing s with
  | nil => simp [run]
  | cons act acts ih =>
    rw [List.cons_append, run_cons_eq_some]
    constructor
    · rintro ⟨answer, next, hstep, hrun⟩
      obtain ⟨mid, hmid, hlater⟩ := ih.1 hrun
      exact ⟨mid, run_cons_eq_some.2 ⟨answer, next, hstep, hmid⟩, hlater⟩
    · rintro ⟨mid, hmid, hlater⟩
      obtain ⟨answer, next, hstep, hrun⟩ := run_cons_eq_some.1 hmid
      exact ⟨answer, next, hstep, ih.2 ⟨mid, hrun, hlater⟩⟩

/-! ## One action -/

/-- What an action does to the environment and the handles. -/
inductive Steps (s : Session) : Action → Session → Prop
  | defineVar (name : Name) (ty : Ty) (value : Value) :
    Steps s (.defineVar name ty value) ⟨(s.env.defineVar name ty value).2,
      s.handles ++ [(s.env.defineVar name ty value).1]⟩
  | store {handle : ℕ} {cell : Cell} (h : s.handles[handle]? = some cell) (value : Value) :
    Steps s (.store handle value) ⟨s.env.assign cell value, s.handles⟩
  /-- Any other action leaves the variables and the store as they are. -/
  | other {act : Action} {env : Env} (hvars : env.vars = s.env.vars)
    (hstore : env.store = s.env.store) (hact : act.isVar = false)
    (hcontent : ∀ handle v, act.content handle v = v) : Steps s act ⟨env, s.handles⟩

theorem steps_of_step (h : s.step act = some (answer, s')) : s.Steps act s' := by
  cases act with
  | defineVar name ty value =>
    cases h
    exact .defineVar name ty value
  | defineConst | defineFunc | definePackage | check =>
    cases h
    exact .other rfl rfl rfl fun _ _ => rfl
  | store handle value =>
    obtain ⟨cell, hcell, h⟩ := Option.bind_eq_some_iff.1 h
    cases h
    exact .store hcell value
  | load handle =>
    obtain ⟨cell, hcell, h⟩ := Option.bind_eq_some_iff.1 h
    cases h
    exact .other rfl rfl rfl fun _ _ => rfl

/-! ## Handles and cells -/

/-- Every handle has a cell of its own, which the store gave out. -/
structure Sound (s : Session) : Prop where
  issued : ∀ c ∈ s.handles, c.index < s.env.store.contents.size
  distinct : s.handles.Nodup

theorem sound_new : Sound {} where
  issued _ h := absurd h List.not_mem_nil
  distinct := List.nodup_nil

/-- **An action keeps the cells apart**: a new one is behind all that were given out. -/
theorem Sound.step (h : s.Sound) (hstep : s.Steps act s') : s'.Sound := by
  cases hstep with
  | defineVar name ty value =>
    have hnew : (s.env.defineVar name ty value).1.index = s.env.store.contents.size := rfl
    have hsize : (s.env.defineVar name ty value).2.store.contents.size =
        s.env.store.contents.size + 1 := Array.size_push _
    refine ⟨?_, ?_⟩
    · intro c hc
      rw [hsize]
      rcases List.mem_append.1 hc with hold | hc
      · have hlt := h.issued c hold
        omega
      · rw [List.mem_singleton.1 hc]
        omega
    · refine List.nodup_append.2 ⟨h.distinct, List.pairwise_singleton _ _, ?_⟩
      rintro c hold d hd rfl
      have hlt := h.issued c hold
      rw [List.mem_singleton.1 hd] at hlt
      omega
  | @store handle cell hcell value =>
    refine ⟨fun c hc => ?_, h.distinct⟩
    have hsize : (s.env.assign cell value).store.contents.size = s.env.store.contents.size :=
      Array.size_setIfInBounds
    rw [hsize]
    exact h.issued c hc
  | other hvars hstore => exact ⟨hstore ▸ h.issued, h.distinct⟩

/-- The cell of a handle holds a value. -/
def Holds (s : Session) (n : ℕ) (v : Value) : Prop :=
  ∃ c, s.handles[n]? = some c ∧ s.env.load c = v

/-- **What an action does to the cell of a handle**: a store through the handle replaces the
content, and nothing else touches it. -/
theorem Holds.step (h : s.Holds n v) (hs : s.Sound) (hstep : s.Steps act s') :
    s'.Holds n (act.content n v) := by
  obtain ⟨c, hc, hv⟩ := h
  have hlt : c.index < s.env.store.contents.size := hs.issued c (List.mem_of_getElem? hc)
  cases hstep with
  | defineVar name ty value =>
    refine ⟨c, ?_, ?_⟩
    · rw [List.getElem?_append_left (List.getElem?_eq_some_iff.1 hc).1]
      exact hc
    · exact (Store.load_alloc_of_lt value hlt).trans hv
  | @store handle cell hcell value =>
    refine ⟨c, hc, ?_⟩
    simp only [Action.content]
    split_ifs with hhandle
    · subst hhandle
      rw [hc, Option.some.injEq] at hcell
      subst hcell
      exact Store.load_store_self value hlt
    · -- two handles never share a cell
      have hne : cell ≠ c := by
        rintro rfl
        have hbound := (List.getElem?_eq_some_iff.1 hcell).1
        exact hhandle ((List.getElem?_inj hbound hs.distinct).1 (hcell.trans hc.symm))
      exact (Store.load_store_of_ne value hne).trans hv
  | other hvars hstore hact hcontent =>
    refine ⟨c, hc, ?_⟩
    rw [hcontent, ← hv, Env.load, hstore]
    rfl

/-- A name is bound to a variable of a type, with the cell of a handle. -/
def Binds (s : Session) (name : Name) (ty : Ty) (n : ℕ) : Prop :=
  ∃ c, s.handles[n]? = some c ∧ s.env.var? name = some ⟨ty, c⟩

/-- **What an action does to a variable**: only a definition of its name binds it anew. -/
theorem Binds.step (h : s.Binds name ty n) (hstep : s.Steps act s') (hact : ¬act.DefinesVar name) :
    s'.Binds name ty n := by
  obtain ⟨c, hc, hvar⟩ := h
  cases hstep with
  | defineVar name' ty' value =>
    have hne : name ≠ name' := by
      rintro rfl
      exact hact ⟨ty', value, rfl⟩
    refine ⟨c, ?_, ?_⟩
    · rw [List.getElem?_append_left (List.getElem?_eq_some_iff.1 hc).1]
      exact hc
    · exact (s.env.var?_defineVar_of_ne ty' value hne).trans hvar
  | store => exact ⟨c, hc, hvar⟩
  | other hvars =>
    refine ⟨c, hc, ?_⟩
    rw [← hvar, Env.var?, Env.var?]
    exact congrArg (List.lookup name) hvars

/-! ## All actions -/

theorem Sound.run (h : s.Sound) (hrun : s.run acts = some s') : s'.Sound := by
  induction acts generalizing s with
  | nil => cases hrun; exact h
  | cons act acts ih =>
    obtain ⟨answer, mid, hstep, hrun⟩ := run_cons_eq_some.1 hrun
    exact ih (h.step (steps_of_step hstep)) hrun

/-- A definition of a variable returns one handle, and nothing else does. -/
theorem length_handles_run (hrun : s.run acts = some s') :
    s'.handles.length = s.handles.length + acts.countP Action.isVar := by
  induction acts generalizing s with
  | nil => cases hrun; rfl
  | cons act acts ih =>
    obtain ⟨answer, mid, hstep, hrun⟩ := run_cons_eq_some.1 hrun
    rw [ih hrun, List.countP_cons]
    cases steps_of_step hstep with
    | defineVar => simp [Action.isVar, Nat.add_comm, Nat.add_left_comm]
    | store => simp [Action.isVar]
    | other _ _ hact => simp [hact]

/-- **A cell holds what was last stored through its handle.** -/
theorem Holds.run (h : s.Holds n v) (hs : s.Sound) (hrun : s.run acts = some s') :
    s'.Holds n (lastStored n v acts) := by
  induction acts generalizing s v with
  | nil => cases hrun; exact h
  | cons act acts ih =>
    obtain ⟨answer, mid, hstep, hrun⟩ := run_cons_eq_some.1 hrun
    exact ih (h.step hs (steps_of_step hstep)) (hs.step (steps_of_step hstep)) hrun

/-- **A variable stays bound as it is until its name is defined anew.** -/
theorem Binds.run (h : s.Binds name ty n) (hrun : s.run acts = some s')
    (hacts : ∀ act ∈ acts, ¬act.DefinesVar name) : s'.Binds name ty n := by
  induction acts generalizing s with
  | nil => cases hrun; exact h
  | cons act acts ih =>
    obtain ⟨answer, mid, hstep, hrun⟩ := run_cons_eq_some.1 hrun
    have hbinds := h.step (steps_of_step hstep) (hacts act List.mem_cons_self)
    exact ih hbinds hrun fun act hact => hacts act (List.mem_cons_of_mem _ hact)

/-- A definition binds its name, to a new cell that holds the initial value. -/
theorem of_defineVar {init : Value} (hstep : s.step (.defineVar name ty init) = some (answer, s')) :
    s'.Binds name ty s.handles.length ∧ s'.Holds s.handles.length init := by
  cases hstep
  have hcell : (s.handles ++ [(s.env.defineVar name ty init).1])[s.handles.length]? =
      some (s.env.defineVar name ty init).1 := List.getElem?_concat_length
  exact ⟨⟨_, hcell, s.env.var?_defineVar_self name ty init⟩, _, hcell,
    Store.load_alloc_self _ init⟩

/-- A name is that of a variable if and only if it was defined so. -/
theorem isSome_var?_run (hrun : s.run acts = some s') :
    (s'.env.var? name).isSome ↔ (s.env.var? name).isSome ∨ ∃ act ∈ acts, act.DefinesVar name := by
  induction acts generalizing s with
  | nil => cases hrun; simp
  | cons act acts ih =>
    obtain ⟨answer, mid, hstep, hrun⟩ := run_cons_eq_some.1 hrun
    have hmid : (mid.env.var? name).isSome ↔ (s.env.var? name).isSome ∨ act.DefinesVar name := by
      cases steps_of_step hstep with
      | defineVar name' ty value =>
        by_cases hname : name = name'
        · subst hname
          simp [Env.var?_defineVar_self, Action.DefinesVar]
        · simp [Env.var?_defineVar_of_ne _ _ _ hname, Action.DefinesVar, Ne.symm hname]
      | store => simp [Action.DefinesVar, Env.assign, Env.var?]
      | other hvars _ hact =>
        have hnot : ¬act.DefinesVar name := by
          rintro ⟨ty, value, rfl⟩
          cases hact
        simp only [Env.var?, hvars, hnot, or_false]
    rw [ih hrun, hmid, or_assoc, List.exists_mem_cons_iff]

end Session

/-! ## Checks -/

/-- **What is folded in a check leaves the store as it is.** -/
theorem Builtin.store_of_call {b : Builtin} (hb : b.isFoldable) {word : WordSize}
    {store next : Store} {args : List Arg} {c : Const}
    (h : b.call word store args = .ok (c, next)) : next = store := by
  rcases b.call_cases hb word store store args with ⟨c', hok, -⟩ | ⟨e, herror, -⟩
  · rw [hok] at h
    cases h
    rfl
  · rw [herror] at h
    cases h

/-- The check of a variable. -/
theorem Arena.check?_variable {a : Arena} {root : ExprId} {name : Name} {span : Span}
    {ctx : Context} {x : Variable} (ha : a.get? root = some ⟨.leaf (.ident name), span⟩)
    (hnil : ctx.names.lookup name ≠ "nil") (hx : ctx.env.var? name = some x) :
    a.check? ctx root = some ⟨.mk span (.ident name) (.ofReading (ctx.env.current x)), []⟩ := by
  have hmeaning : ctx.resolve? name = some (.reading (ctx.env.current x)) := by
    simp only [Context.resolve?, if_neg hnil, hx]
  unfold check? checkWithin
  simp only [ha, Context.checkLeaf, Context.checkIdent, hmeaning]

/-! ## Sessions -/

/-- **A variable has the type of its last definition and the value last stored through the handle of
that definition**, in every session that begins with an empty environment.

A name is bound as a variable if and only if some action defined it so, and then one definition is
the last. The handle of any of its definitions loads what was stored last through it, or the initial
value: no matter what is stored through other handles, of earlier and later definitions of the name
included, what constants, functions and packages are defined under the name, and what is checked. If
the definition is the last, then an identifier that is not `nil` and has its name is checked without
errors; its node is not constant and has the type of the definition and that value. The check leaves
the session as it is, and any builtin that is folded in a check leaves the store as it is. -/
theorem variables_over_session {acts : List Action} {s : Session}
    (h : Session.run {} acts = some s) (name : Name) :
    ((s.env.var? name).isSome ↔ ∃ before ty init after,
      acts = before ++ .defineVar name ty init :: after ∧ ∀ act ∈ after, ¬act.DefinesVar name) ∧
    (∀ before ty init after, acts = before ++ .defineVar name ty init :: after →
      let n := before.countP Action.isVar
      let v := lastStored n init after
      s.step (.load n) = some (.value v, s) ∧
      ((∀ act ∈ after, ¬act.DefinesVar name) →
        ∀ (names : Interner) (word : WordSize) (a : Arena) (root : ExprId) (span : Span),
          a.get? root = some ⟨.leaf (.ident name), span⟩ → names.lookup name ≠ "nil" →
          s.step (.check names word a root) = some (.checked (some ⟨.mk span (.ident name)
            { known := [.typed ty], isConst := false, value := some (.typed ⟨ty, v⟩) }, []⟩), s))) ∧
    ∀ (b : Builtin) (word : WordSize) (args : List Arg) (c : Const) (next : Store),
      b.isFoldable → b.call word s.env.store args = .ok (c, next) → next = s.env.store := by
  refine ⟨?_, ?_, fun b word args c next hb => Builtin.store_of_call hb⟩
  · rw [Session.isSome_var?_run h, ← Action.exists_last_iff]
    exact or_iff_right Bool.false_ne_true
  · intro before ty init after hacts n v
    subst hacts
    obtain ⟨s₁, hbefore, hrest⟩ := Session.run_append_eq_some.1 h
    obtain ⟨answer, s₂, hdefine, hafter⟩ := Session.run_cons_eq_some.1 hrest
    have hlength : s₁.handles.length = n := by
      rw [Session.length_handles_run hbefore]
      exact Nat.zero_add _
    obtain ⟨hbinds, hholds⟩ := Session.of_defineVar hdefine
    rw [hlength] at hbinds hholds
    have hsound : s₂.Sound :=
      (Session.sound_new.run hbefore).step (Session.steps_of_step hdefine)
    obtain ⟨c, hc, hv⟩ : s.Holds n v := hholds.run hsound hafter
    refine ⟨?_, ?_⟩
    · simp [Session.step, hc, hv]
    · intro hlast names word a root span hroot hnil
      obtain ⟨d, hd, hvar⟩ := hbinds.run hafter hlast
      rw [hc, Option.some.injEq] at hd
      subst hd
      rw [Session.step, Arena.check?_variable hroot hnil hvar, Env.current, hv]
      rfl

/-- `x` is an `int`, then `y` a string, then `x` a boolean. Something is stored in each of the three
cells, and a constant and a package are named `x` too. -/
def Action.redefinitions : List Action :=
  [.defineVar ⟨1⟩ .int (.int 1), .defineVar ⟨2⟩ .string (.str "a"),
    .defineVar ⟨1⟩ .bool (.bool false), .store 2 (.bool true), .store 0 (.int 5),
    .defineConst ⟨1⟩ (.untyped .nil), .store 1 (.str "b"), .definePackage ⟨1⟩]

/-- In the end `x` is true, and the handle of the first `x` loads five. -/
theorem variables_over_session_redefined :
    ∃ s, Session.run {} Action.redefinitions = some s ∧
      (s.env.var? ⟨1⟩).isSome ∧
      s.step (.load 0) = some (.value (.int 5), s) ∧
      s.step (.check ⟨#["", "x"], {}⟩ .bits64 { exprs := #[⟨.leaf (.ident ⟨1⟩), ⟨0, 1⟩⟩] } ⟨0⟩) =
        some (.checked (some ⟨.mk ⟨0, 1⟩ (.ident ⟨1⟩)
          ⟨[.typed .bool], false, some (.typed ⟨.bool, .bool true⟩)⟩, []⟩), s) ∧
      ∃ c next, Builtin.len.isFoldable ∧
        Builtin.len.call .bits64 s.env.store [.ofConst (.untyped (.string "ab"))] = .ok (c, next) ∧
        next = s.env.store := by
  obtain ⟨s, hrun⟩ : ∃ s, Session.run {} Action.redefinitions = some s := ⟨_, rfl⟩
  obtain ⟨hbound, hread, hstore⟩ := variables_over_session hrun ⟨1⟩
  obtain ⟨hload, -⟩ := hread [] .int (.int 1) _ rfl
  obtain ⟨c, hcall⟩ : ∃ c, Builtin.len.call .bits64 s.env.store
      [.ofConst (.untyped (.string "ab"))] = .ok (c, s.env.store) := ⟨_, rfl⟩
  have hlast : ∀ act ∈ Action.redefinitions.drop 3, ¬act.DefinesVar ⟨1⟩ := by
    simp [Action.redefinitions, Action.DefinesVar]
  have hdefined : Action.redefinitions =
      Action.redefinitions.take 2 ++ .defineVar ⟨1⟩ .bool (.bool false) ::
        Action.redefinitions.drop 3 := rfl
  refine ⟨s, hrun, hbound.2 ⟨_, _, _, _, hdefined, hlast⟩, hload, ?_,
    c, _, rfl, hcall, hstore _ _ _ _ _ rfl hcall⟩
  exact (hread _ _ _ _ hdefined).2 hlast _ .bits64 _ _ _ rfl (by decide)

end ConstCheck
