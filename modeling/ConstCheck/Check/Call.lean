import ConstCheck.Check.BuiltinCall
import ConstCheck.Check.Leaf

/-!
# Checking calls

A call is decided by its callee: a builtin, a type name (then it is a conversion), or a value of
function type. A callee of unknown type leaves the call unknown, without an error of its own. The
children of a call are checked before; here only what the call adds is found.

* `Context.callInfo`: what is known of a call, and its own errors.
-/

namespace ConstCheck

/-- What is known of an expression, and the errors that it adds to those of its children. -/
structure Finding where
  info : Info
  errors : List CheckError

namespace Finding

/-- Nothing is known, because of an error. -/
def failed (span : Span) (kind : ErrorKind) : Finding := ⟨.unknown, [⟨span, kind⟩]⟩

end Finding

namespace Context

/-- How a callee or an argument is named in an error. -/
def describe (ctx : Context) (n : Node) : String :=
  match n.kind with
  | .ident name | .builtin name => ctx.names.lookup name
  | .typeName ty => ty.text
  | _ =>
    match n.info.value, n.singleType? with
    | some c, _ => c.text
    | none, some known => s!"value of type {known.text}"
    | none, none => "expression"

/-- A node as an argument of a builtin; none unless it is a type or has one value. -/
def arg? (n : Node) : Option Arg :=
  match n.kind with
  | .typeName ty => some (.type ty)
  | _ => n.singleType?.map fun known => .value known n.constant?

/-- The arguments of a builtin, or the first node that is none. -/
def argsOf : List Node → Except Node (List Arg)
  | [] => .ok []
  | n :: ns =>
    match arg? n with
    | none => .error n
    | some a => (argsOf ns).map (a :: ·)

/-- A type, or a value that is known. -/
def isKnown : Arg → Bool
  | .type _ => true
  | .value _ c => c.isSome

/-- A builtin on as many arguments as it takes: its value if it is foldable and all arguments are
known, else the types of its results. -/
def applyBuiltin (ctx : Context) (b : Builtin) (args : List Node) (span : Span) : Finding :=
  match argsOf args with
  | .error n => .failed n.span (.valuelessArgument b (ctx.describe n))
  | .ok args =>
    if b.isFoldable && args.all isKnown then
      match b.call ctx.word ctx.env.store args with
      | .ok (c, _) => ⟨.ofConst c, []⟩
      | .error e => .failed span (.builtin e)
    else
      match b.resultTypes args with
      | .ok known => ⟨.ofTypes known, []⟩
      | .error e => .failed span (.builtin e)

/-- A call of a builtin by name. The name was found to be of a builtin before, and a name that is of
none here is an internal error. -/
def callBuiltin (ctx : Context) (name : Name) (args : List Node) (span : Span) : Finding :=
  let text := ctx.names.lookup name
  match Builtin.ofName? text with
  | none => .failed span .internal
  | some b =>
    if args.length ≠ b.arity then
      .failed span (.wrongArgumentCount text b.arity args.length)
    else ctx.applyBuiltin b args span

/-- A conversion to a type. The losses of a constant are errors at the argument. -/
def callConversion (ctx : Context) (ty : Ty) (args : List Node) (span : Span) : Finding :=
  match args with
  | [arg] =>
    match arg.constant? with
    | some c =>
      let (value, kinds) := c.convert ty ctx.word
      ⟨match value with
        | some v => .ofConst (.typed v)
        | none => .unknown,
        kinds.map (⟨arg.span, ·⟩)⟩
    | none =>
      match arg.singleType? with
      | some (.typed source) =>
        if source.convertibleTo ty then ⟨.ofTypes [.typed ty], []⟩
        else .failed span (.invalidConversion (ctx.describe arg) source ty)
      | _ => ⟨.ofTypes [.typed ty], []⟩
  | _ => .failed span (.wrongArgumentCount s!"conversion to {ty.text}" 1 args.length)

/-- A call of a function: its results. The last parameter of a variadic function takes any number
of arguments. -/
def callFunc (ctx : Context) (callee : Node) (sig : Ty.Signature) (found : Nat) (span : Span) :
    Finding :=
  let expected := sig.params.length
  let fits := if sig.variadic then expected ≤ found + 1 else found = expected
  if fits then ⟨.ofTypes (sig.results.map .typed), []⟩
  else .failed span (.wrongArgumentCount (ctx.describe callee) expected found)

/-- What is known of a call, and the errors it adds. -/
def callInfo (ctx : Context) (callee : Node) (args : List Node) (span : Span) : Finding :=
  match callee.kind with
  | .builtin name => ctx.callBuiltin name args span
  | .typeName ty => ctx.callConversion ty args span
  | _ =>
    if callee.info.known.isEmpty then ⟨.unknown, []⟩
    else
      match callee.singleType?.bind KnownType.ty? |>.bind Ty.signature? with
      | some sig => ctx.callFunc callee sig args.length span
      | none => .failed span (.notCallable (ctx.describe callee))

end Context

end ConstCheck
