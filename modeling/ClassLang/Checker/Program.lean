import ClassLang.Checker.Stmt
import ClassLang.Hierarchy.Build

/-! # Checking programs

Declarations are checked in the order of the hierarchy, so every class after its parent. A name
is declared before its own declaration is looked at. -/

namespace ClassLang

def Param.check (h : Hierarchy) (p : Param) : CheckM Unit := do
  CheckM.ask fun _ => h.requireClass .param p.ty
  modify (·.bindObject p.name p.ty)

def Param.introduce (h : Hierarchy) (p : Param) : CheckM Unit := do
  modify (·.declare p.name p.ty)
  p.check h

/-- The value that a variable starts with. -/
def checkInit (h : Hierarchy) (t : Ty) (init : Expr) (Γ : Scope) : Except Diagnostic Unit := do
  let s ← init.inferValue h Γ .varDecl
  h.requireClass .varDecl s
  if h.assignable t s then .ok () else .error ⟨.typeMismatch t.render s.render, .varDecl⟩

def VarDecl.check (h : Hierarchy) (v : VarDecl) : CheckM Unit := do
  CheckM.ask fun _ => h.requireClass .varDecl v.ty
  modify (·.bindObject v.name v.ty)
  match v.init with
  | none => pure ()
  | some e => CheckM.askScope (checkInit h v.ty e)

def VarDecl.introduce (h : Hierarchy) (v : VarDecl) : CheckM Unit := do
  modify (·.declare v.name v.ty)
  v.check h

namespace MethodDecl

/-- Only returns that stand in the body itself count as evidence of their own. -/
def checkBody (h : Hierarchy) (body : List Stmt) : CheckM Unit :=
  body.forM fun s => do
    s.check h
    if s.isReturn then CheckM.record [.ret]

/-- A method with a result has to return on the evidence of its body. -/
def checkReturns (m : MethodDecl) (s : Checker) : Except Diagnostic Unit :=
  if m.ret.isSome && !verdict s.evidence then .error ⟨.missingReturn m.name, .methodDecl⟩
  else .ok ()

def check (h : Hierarchy) (m : MethodDecl) : CheckM Unit := do
  modify (·.enterMethod m.toSignature)
  m.params.forM (Param.introduce h)
  m.locals.forM (VarDecl.introduce h)
  checkBody h m.body
  CheckM.ask m.checkReturns

end MethodDecl

def ClassDecl.check (h : Hierarchy) (c : ClassDecl) : CheckM Unit := do
  modify (·.enterClass c.name)
  c.fields.forM (VarDecl.introduce h)
  c.methods.forM (MethodDecl.check h)

/-- The first fault of the program, if it has one. -/
def Program.check (p : Program) : Except Diagnostic Unit := do
  let h ← Hierarchy.build p.classes
  (h.order.forM (ClassDecl.check h)).outcome {}

end ClassLang
