import ConstCheck.Constant
import ConstCheck.Value.Store

/-!
# The environment

What names stand for besides the predeclared ones: variables, named constants, functions and
packages, four kinds of binding that do not get into each other's way. A variable has a declared
type and a cell of the store; defining it again gives it a new cell and leaves the old one to
whoever still holds it.

* `Env`: the bindings and the store.
* `Env.defineVar`, `Env.defineConst`, `Env.defineFunc`, `Env.definePackage`: new bindings.
* `Env.var?`, `Env.const?`, `Env.func?`, `Env.hasPackage`: what a name stands for.
* `Env.load`, `Env.assign`: the content of a cell.
-/

namespace ConstCheck

/-- A variable. -/
structure Variable where
  ty : Ty
  cell : Cell

/-- The bindings, latest first, and the contents of the cells. -/
structure Env where
  vars : List (Name × Variable) := []
  consts : List (Name × Const) := []
  funcs : List (Name × Ty) := []
  packages : List Name := []
  store : Store := .empty

namespace Env

def empty : Env := {}

/-- Binds a variable to a new cell that holds a value. -/
def defineVar (env : Env) (name : Name) (ty : Ty) (value : Value) : Cell × Env :=
  let (cell, store) := env.store.alloc value
  (cell, { env with vars := (name, ⟨ty, cell⟩) :: env.vars, store })

def defineConst (env : Env) (name : Name) (c : Const) : Env :=
  { env with consts := (name, c) :: env.consts }

def defineFunc (env : Env) (name : Name) (ty : Ty) : Env :=
  { env with funcs := (name, ty) :: env.funcs }

def definePackage (env : Env) (name : Name) : Env :=
  { env with packages := name :: env.packages }

def var? (env : Env) (name : Name) : Option Variable := env.vars.lookup name

def const? (env : Env) (name : Name) : Option Const := env.consts.lookup name

def func? (env : Env) (name : Name) : Option Ty := env.funcs.lookup name

def hasPackage (env : Env) (name : Name) : Bool := env.packages.contains name

theorem var?_defineVar_self (env : Env) (name : Name) (ty : Ty) (value : Value) :
    (env.defineVar name ty value).2.var? name = some ⟨ty, (env.defineVar name ty value).1⟩ :=
  List.lookup_cons_self

theorem var?_defineVar_of_ne (env : Env) {name other : Name} (ty : Ty) (value : Value)
    (h : name ≠ other) : (env.defineVar other ty value).2.var? name = env.var? name := by
  have hne : (name == other) = false := beq_eq_false_iff_ne.2 h
  simp only [defineVar, var?, List.lookup_cons, hne]

/-- The content of a cell. -/
def load (env : Env) (cell : Cell) : Value := env.store.load cell

/-- Replaces the content of a cell. -/
def assign (env : Env) (cell : Cell) (value : Value) : Env :=
  { env with store := env.store.store cell value }

/-- A variable with the value that its cell holds. -/
def current (env : Env) (v : Variable) : TypedValue := ⟨v.ty, env.load v.cell⟩

end Env

end ConstCheck
