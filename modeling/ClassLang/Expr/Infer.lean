import ClassLang.Scope

/-! # Types of expressions

An expression has a type, or no value at all when it calls a method without a result. Subexpressions
are looked at from left to right, and the first fault ends the search. -/

namespace ClassLang

/-- The absence of a value is a fault wherever one is used. -/
def needValue (site : Construct) : Option Ty → Except Diagnostic Ty
  | some t => .ok t
  | none => .error ⟨.typeMismatch "value" "void", site⟩

/-- What was found instead of a value of type `want`, if that is not what was found. -/
def misfit? (want : Ty) : Option Ty → Option String
  | some t => if t = want then none else some t.render
  | none => some "void"

/-- Both operands have to be comparable, so the left one decides for both. Logical operators refuse
integers only. -/
def BinaryOp.result (op : BinaryOp) (h : Hierarchy) (left right : Ty) : Except Diagnostic Ty :=
  if h.comparable left right = false then
    .error ⟨.typeMismatch left.render right.render, .binop⟩
  else if op.isArithmetic then
    if left = .int then .ok .int else .error ⟨.typeMismatch Ty.int.render left.render, .binop⟩
  else if op.isLogical && left = .int then
    .error ⟨.typeMismatch Ty.bool.render left.render, .binop⟩
  else .ok .bool

def UnaryOp.result (op : UnaryOp) (operand : Ty) : Except Diagnostic Ty :=
  if operand = op.ty then .ok op.ty
  else .error ⟨.typeMismatch op.ty.render operand.render, .unop⟩

namespace Hierarchy

/-- The type of a field of a value of the given type. -/
def selectField (h : Hierarchy) (x : String) : Ty → Except Diagnostic Ty
  | .object c =>
    if h.contains c then
      match h.field? c x with
      | some f => .ok f.ty
      | none => .error ⟨.unknownField c x, .field⟩
    else .error ⟨.unknownClass c, .field⟩
  | t => .error ⟨.typeMismatch "object" t.render, .field⟩

/-- An argument of type `arg` may be passed for a parameter of type `param`. -/
def acceptArg (h : Hierarchy) (site : Construct) (param arg : Ty) : Except Diagnostic Unit := do
  if param.sameShape arg = false then
    throw ⟨.typeMismatch param.render arg.render, site⟩
  h.requireClass site param
  h.requireClass site arg
  if h.assignable param arg = false then
    throw ⟨.typeMismatch param.render arg.render, site⟩

/-- The method that a call of this many arguments on an object of the class runs. -/
def resolve (h : Hierarchy) (site : Construct) (className m : String) (arity : Nat) :
    Except Diagnostic MethodDecl :=
  match h.method? className m with
  | none => .error ⟨.unknownMethod className m, site⟩
  | some d =>
    if d.params.length = arity then .ok d
    else .error ⟨.arityMismatch d.params.length arity, site⟩

end Hierarchy

/-- The element type of the array that an index is applied to. Only named arrays have elements that
can be selected. -/
def Scope.elementType (Γ : Scope) (h : Hierarchy) : Expr → Except Diagnostic Ty
  | .var x => do
    match ← Γ.typeOf h .index x with
    | .array t => .ok t
    | t => .error ⟨.typeMismatch "array" t.render, .index⟩
  | e => .error ⟨.typeMismatch "array identifier" e.kind, .index⟩

namespace Expr

mutual
/-- The type of the expression, or `none` if it yields no value. -/
def infer (h : Hierarchy) (Γ : Scope) : Expr → Except Diagnostic (Option Ty)
  | .int _ => .ok (some .int)
  | .bool _ => .ok (some .bool)
  | .str s => .error ⟨.unrecognizedNode (str s).kind, .expr⟩
  | .var x => do
    return some (← Γ.typeOf h .var x)
  | .this => do
    return some (.object (← Γ.className .this))
  | .field r x =>
    if r.isReference then do
      let t ← needValue .field (← r.infer h Γ)
      return some (← h.selectField x t)
    else .error ⟨.typeMismatch "object reference" r.kind, .field⟩
  | .call r m args => do
    let d ← h.resolve .call (← Γ.classOfReceiver .call r) m args.length
    checkArgs h Γ .call d.params args
    return d.ret
  | .newObject c =>
    if h.contains c then .ok (some (.object c)) else .error ⟨.unknownClass c, .newObject⟩
  | .newArray t k =>
    if t.isPrimitive = false then .error ⟨.typeMismatch "int or boolean" t.render, .newArray⟩
    else if k < 0 then .error ⟨.negativeArrayLength k, .newArray⟩
    else .ok (some (.array t))
  | .index a i => do
    let t ← Γ.elementType h a
    let found ← if i.isText then pure (some "String") else misfit? .int <$> i.infer h Γ
    match found with
    | none => return some t
    | some received => throw ⟨.indexNotInteger received, .index⟩
  | .binop op l r => do
    let s ← needValue .binop (← l.infer h Γ)
    let t ← needValue .binop (← r.infer h Γ)
    return some (← op.result h s t)
  | .unop op e => do
    let t ← needValue .unop (← e.infer h Γ)
    return some (← op.result t)

/-- Each argument in turn against its parameter. -/
def checkArgs (h : Hierarchy) (Γ : Scope) (site : Construct) :
    List Param → List Expr → Except Diagnostic Unit
  | p :: params, e :: args => do
    h.acceptArg site p.ty (← needValue site (← e.infer h Γ))
    checkArgs h Γ site params args
  | _, _ => .ok ()
end

/-- The type of an expression that has to yield a value. -/
def inferValue (h : Hierarchy) (Γ : Scope) (site : Construct) (e : Expr) : Except Diagnostic Ty := do
  needValue site (← e.infer h Γ)

/-- The result type of a call, as an expression or as a statement of its own. -/
def inferCall (h : Hierarchy) (Γ : Scope) (site : Construct) (receiver : Expr) (m : String)
    (args : List Expr) : Except Diagnostic (Option Ty) := do
  let d ← h.resolve site (← Γ.classOfReceiver site receiver) m args.length
  checkArgs h Γ site d.params args
  return d.ret

theorem infer_call (h : Hierarchy) (Γ : Scope) (r : Expr) (m : String) (args : List Expr) :
    (call r m args).infer h Γ = inferCall h Γ .call r m args := by
  simp only [infer, inferCall]

end Expr
end ClassLang
