import ConstCheck.Check.Env
import ConstCheck.Check.Error
import ConstCheck.Check.Node
import ConstCheck.Expr.Interner
import ConstCheck.Number.Literal
import ConstCheck.Ty.Predeclared

/-!
# Checking literals and identifiers

Expressions without children. A malformed literal is an error and counts as zero. An identifier is
looked up in a fixed order: `nil`, variables, named constants, functions, builtin functions,
packages, `true` and `false`, predeclared types; each hides those after it.

* `Context`: what an expression is checked against.
* `Checked`: a node and the errors found on the way.
* `Context.checkLeaf`: the check of a leaf.
* `Context.checkMissing`: the check of a number of no expression.
-/

namespace ConstCheck

/-- What an expression is checked against: the table of its names, the environment, and the width
of a machine word. -/
structure Context where
  names : Interner
  env : Env
  word : WordSize

/-- A checked expression and the errors in it, in source order. -/
structure Checked where
  node : Node
  errors : List CheckError

namespace Context

/-- A numeric literal. -/
def checkNumber (ctx : Context) (text : Name) (kind : NumKind)
    (parse : List Char → Option Number) (span : Span) : Checked :=
  let spelling := ctx.names.lookup text
  match parse spelling.toList with
  | some n => ⟨.mk span .literal (.ofConst (.number n)), []⟩
  | none =>
    ⟨.mk span .literal (.ofConst (.number (.zero kind))),
      [⟨span, .invalidLiteral kind spelling⟩]⟩

/-- What an identifier stands for. -/
inductive Meaning where
  | const (c : Const)
  | reading (v : TypedValue)
  | builtin (b : Builtin)
  | type (ty : Ty)

/-- What an identifier stands for, if anything. -/
def resolve? (ctx : Context) (name : Name) : Option Meaning :=
  let text := ctx.names.lookup name
  if text = "nil" then some (.const (.untyped .nil))
  else if let some v := ctx.env.var? name then some (.reading (ctx.env.current v))
  else if let some c := ctx.env.const? name then some (.const c)
  else if let some ty := ctx.env.func? name then some (.reading ⟨ty, .func name⟩)
  else if let some b := Builtin.ofName? text then some (.builtin b)
  else if ctx.env.hasPackage name then some (.reading ⟨.package, .package name⟩)
  else if text = "true" then some (.const (.untyped (.bool true)))
  else if text = "false" then some (.const (.untyped (.bool false)))
  else (Ty.ofName? text).map .type

def checkIdent (ctx : Context) (name : Name) (span : Span) : Checked :=
  match ctx.resolve? name with
  | some (.const c) => ⟨.mk span (.ident name) (.ofConst c), []⟩
  | some (.reading v) => ⟨.mk span (.ident name) (.ofReading v), []⟩
  | some (.builtin _) => ⟨.mk span (.builtin name) .unknown, []⟩
  | some (.type ty) => ⟨.mk span (.typeName ty) .unknown, []⟩
  | none =>
    ⟨.mk span (.ident name) .unknown, [⟨span, .undefinedIdentifier (ctx.names.lookup name)⟩]⟩

/-- The check of an expression without children. -/
def checkLeaf (ctx : Context) (leaf : Leaf) (span : Span) : Checked :=
  match leaf with
  | .int text => ctx.checkNumber text .int Literal.int? span
  | .float text => ctx.checkNumber text .float Literal.float? span
  | .imag text => ctx.checkNumber text .complex Literal.imag? span
  | .rune c => ⟨.mk span .literal (.ofConst (.number (.ofRune c))), []⟩
  | .string text =>
    ⟨.mk span .literal (.ofConst (.untyped (.string (ctx.names.lookup text)))), []⟩
  | .ident name => ctx.checkIdent name span

/-- The check of a number of no expression. -/
def checkMissing : Checked := ⟨.mk .none .literal .unknown, [⟨.none, .internal⟩]⟩

end Context

end ConstCheck
