import ClassLang.Checker.Basic
import ClassLang.Expr.Infer

/-! # Checking statements

Statements only read the scope. All they change in a checker is the evidence, which is recorded
for a branch before the branch is looked at. -/

namespace ClassLang

/-- Without a value on the right there is nothing to compare, and the assignment passes. -/
def checkAssign (h : Hierarchy) (target value : Expr) (Γ : Scope) : Except Diagnostic Unit := do
  let t ← target.infer h Γ
  match t, ← value.infer h Γ with
  | _, none => .ok ()
  | some t, some s =>
    if h.assignable t s then .ok () else .error ⟨.typeMismatch t.render s.render, .assign⟩
  | none, some s => .error ⟨.typeMismatch "void" s.render, .assign⟩

def checkCondition (h : Hierarchy) (site : Construct) (cond : Expr) (Γ : Scope) :
    Except Diagnostic Unit := do
  let found ← if cond.isText then pure (some "String") else misfit? .bool <$> cond.infer h Γ
  match found with
  | none => .ok ()
  | some received => .error ⟨.conditionNotBoolean received, site⟩

/-- The only place for a string literal. -/
def checkPrint (h : Hierarchy) (arg : Option Expr) (Γ : Scope) : Except Diagnostic Unit :=
  match arg with
  | none => .ok ()
  | some e =>
    if e.isText then .ok ()
    else do
      let t ← e.inferValue h Γ .print
      if t.isPrimitive then .ok ()
      else .error ⟨.typeMismatch "int, boolean or string" t.render, .print⟩

/-- A returned value only has to have the shape of the result type. In a method without a result
the value is refused unseen. -/
def checkReturn (h : Hierarchy) (value : Option Expr) (s : Checker) : Except Diagnostic Unit :=
  match value, s.returnType? with
  | none, none => .ok ()
  | none, some t => .error ⟨.missingReturnValue t.render, .ret⟩
  | some _, none => .error ⟨.unexpectedReturnValue, .ret⟩
  | some e, some t => do
    let received ← e.inferValue h s.scope .ret
    if t.sameShape received then .ok ()
    else .error ⟨.typeMismatch t.render received.render, .ret⟩

namespace Stmt

mutual
def check (h : Hierarchy) : Stmt → CheckM Unit
  | block body => checkAll h body
  | assign target value => CheckM.askScope (checkAssign h target value)
  | call receiver m args =>
    CheckM.askScope fun Γ => discard (Expr.inferCall h Γ .callStmt receiver m args)
  | ifThen cond thn => do
    CheckM.askScope (checkCondition h .ifStmt cond)
    CheckM.record [thn.thenEvidence]
    thn.check h
  | ifElse cond thn els => do
    CheckM.askScope (checkCondition h .ifStmt cond)
    CheckM.record [thn.thenEvidence]
    thn.check h
    CheckM.record [els.elseEvidence]
    els.check h
  | .while cond body => do
    CheckM.askScope (checkCondition h .whileStmt cond)
    CheckM.record body.loopEvidence
    body.check h
  | print arg => CheckM.askScope (checkPrint h arg)
  | ret value => CheckM.ask (checkReturn h value)

def checkAll (h : Hierarchy) : List Stmt → CheckM Unit
  | [] => pure ()
  | s :: ss => do
    s.check h
    checkAll h ss
end

theorem checkAll_eq_forM (h : Hierarchy) (ss : List Stmt) : checkAll h ss = ss.forM (check h) := by
  induction ss with
  | nil => rfl
  | cons s ss ih => simp [checkAll, ih]

end Stmt
end ClassLang
