import ClassLang.Checker.Program
import ClassLang.Proofs.Hierarchy.Embedding

/-! # What a check sees of the classes

Of the classes around it a check asks which there are, which one is above which, the types of their
fields and the signatures of their methods. Between two hierarchies that answer alike it cannot
tell: it ends with the same result, with the same fault if it fails, and in the same state. -/

namespace ClassLang

/-- Whatever a check asks of the two hierarchies, they answer alike. -/
structure Hierarchy.Alike (h h' : Hierarchy) : Prop where
  contains : ∀ c, h'.contains c = h.contains c
  isAncestorOrSelf : ∀ a c, h'.isAncestorOrSelf a c = h.isAncestorOrSelf a c
  fieldType : ∀ c x, (h'.field? c x).map (·.ty) = (h.field? c x).map (·.ty)
  signature : ∀ c m, (h'.method? c m).map (·.toSignature) = (h.method? c m).map (·.toSignature)

theorem map_eq_map_of_some {α β : Type} {view : α → β} {o o' : Option α}
    (hto : ∀ {a}, o = some a → ∃ a', o' = some a' ∧ view a' = view a)
    (hfrom : ∀ {a'}, o' = some a' → ∃ a, o = some a ∧ view a = view a') :
    o'.map view = o.map view := by
  cases ho : o with
  | some a =>
    obtain ⟨a', rfl, hview⟩ := hto ho
    exact congrArg some hview
  | none =>
    cases ho' : o' with
    | none => rfl
    | some a' =>
      obtain ⟨a, ha, -⟩ := hfrom ho'
      rw [ho] at ha
      cases ha

theorem Hierarchy.Embeds.alike {h h' : Hierarchy} (hto : h.Embeds h') (hfrom : h'.Embeds h) :
    h.Alike h' where
  contains := fun _ => Bool.eq_iff_iff.mpr ⟨hfrom.contains, hto.contains⟩
  isAncestorOrSelf := fun _ _ =>
    Bool.eq_iff_iff.mpr ⟨hfrom.isAncestorOrSelf, hto.isAncestorOrSelf⟩
  fieldType := fun _ _ => map_eq_map_of_some hto.field? hfrom.field?
  signature := fun _ _ => map_eq_map_of_some hto.method? hfrom.method?

namespace Hierarchy.Alike

variable {h h' : Hierarchy} (hlike : h.Alike h')

include hlike

/-! ## Questions about types -/

theorem assignable (t s : Ty) : h'.assignable t s = h.assignable t s := by
  induction t generalizing s with
  | int => cases s <;> rfl
  | bool => cases s <;> rfl
  | array t ih =>
    cases s with
    | array s => exact ih s
    | _ => rfl
  | object c =>
    cases s with
    | object d => rw [Hierarchy.assignable, Hierarchy.assignable, hlike.isAncestorOrSelf]
    | _ => rfl

theorem comparable (s t : Ty) : h'.comparable s t = h.comparable s t := by
  rw [Hierarchy.comparable, Hierarchy.comparable, hlike.assignable, hlike.assignable]

theorem requireClass (site : Construct) (t : Ty) :
    h'.requireClass site t = h.requireClass site t := by
  cases t with
  | object c => rw [Hierarchy.requireClass, Hierarchy.requireClass, hlike.contains]
  | _ => rfl

theorem acceptArg (site : Construct) (param arg : Ty) :
    h'.acceptArg site param arg = h.acceptArg site param arg := by
  simp only [Hierarchy.acceptArg, hlike.requireClass, hlike.assignable]

theorem selectField (x : String) (t : Ty) : h'.selectField x t = h.selectField x t := by
  cases t with
  | object c =>
    have htype := hlike.fieldType c x
    rw [Hierarchy.selectField, Hierarchy.selectField, hlike.contains]
    cases hf : h.field? c x with
    | none =>
      rw [hf, Option.map_none, Option.map_eq_none_iff] at htype
      rw [htype]
    | some f =>
      rw [hf, Option.map_some, Option.map_eq_some_iff] at htype
      obtain ⟨f', hf', hty⟩ := htype
      rw [hf']
      simp only [hty]
  | _ => rfl

theorem binaryResult (op : BinaryOp) (s t : Ty) : op.result h' s t = op.result h s t := by
  simp only [BinaryOp.result, hlike.comparable]

/-! ## Questions about names -/

theorem type? (Γ : Scope) (x : String) : Γ.type? h' x = Γ.type? h x := by
  have hfield : (Γ.ownField? h' x).map (·.ty) = (Γ.ownField? h x).map (·.ty) := by
    unfold Scope.ownField?
    cases Γ.self with
    | none => rfl
    | some c => exact hlike.fieldType c x
  rw [Scope.type?, Scope.type?, hfield]

theorem typeOf (Γ : Scope) (site : Construct) (x : String) :
    Γ.typeOf h' site x = Γ.typeOf h site x := by
  rw [Scope.typeOf, Scope.typeOf, hlike.type?]

theorem elementType (Γ : Scope) (a : Expr) : Γ.elementType h' a = Γ.elementType h a := by
  cases a with
  | var x => rw [Scope.elementType, Scope.elementType, hlike.typeOf]
  | _ => rfl

/-- The methods that are found may differ in their bodies, but a call asks for the parameters and
the result type alone. -/
theorem inferCall_of_args {Γ : Scope} {site : Construct} {args : List Expr}
    (hargs : ∀ params, Expr.checkArgs h' Γ site params args = Expr.checkArgs h Γ site params args)
    (r : Expr) (m : String) :
    Expr.inferCall h' Γ site r m args = Expr.inferCall h Γ site r m args := by
  rw [Expr.inferCall, Expr.inferCall]
  congr 1
  funext c
  have hsig := hlike.signature c m
  rw [Hierarchy.resolve, Hierarchy.resolve]
  cases hd : h.method? c m with
  | none =>
    rw [hd, Option.map_none, Option.map_eq_none_iff] at hsig
    rw [hsig]
    rfl
  | some d =>
    rw [hd, Option.map_some, Option.map_eq_some_iff] at hsig
    obtain ⟨d', hd', hsig⟩ := hsig
    have hparams : d'.params = d.params := congrArg Signature.params hsig
    have hret : d'.ret = d.ret := congrArg Signature.ret hsig
    rw [hd']
    simp only [hparams]
    by_cases hlen : d.params.length = args.length
    · simp only [hlen, if_true, bind, Except.bind, hparams, hargs, hret]
    · simp only [hlen, if_false, bind, Except.bind]

mutual
theorem infer (Γ : Scope) : ∀ e : Expr, e.infer h' Γ = e.infer h Γ
  | .int _ | .bool _ | .str _ | .this | .newArray .. => by
    simp only [Expr.infer]
  | .var x => by
    simp only [Expr.infer, hlike.typeOf]
  | .field r x => by
    simp only [Expr.infer, infer Γ r, hlike.selectField]
  | .call r m args => by
    rw [Expr.infer_call, Expr.infer_call]
    exact hlike.inferCall_of_args (fun params => checkArgs Γ .call params args) r m
  | .newObject c => by
    simp only [Expr.infer, hlike.contains]
  | .index a i => by
    simp only [Expr.infer, hlike.elementType, infer Γ i]
  | .binop op l r => by
    simp only [Expr.infer, infer Γ l, infer Γ r, hlike.binaryResult]
  | .unop op e => by
    simp only [Expr.infer, infer Γ e]

theorem checkArgs (Γ : Scope) (site : Construct) : ∀ (params : List Param) (args : List Expr),
    Expr.checkArgs h' Γ site params args = Expr.checkArgs h Γ site params args
  | p :: params, e :: args => by
    simp only [Expr.checkArgs, infer Γ e, hlike.acceptArg, checkArgs Γ site params args]
  | [], _ | _ :: _, [] => by
    simp only [Expr.checkArgs]
end

theorem inferValue (Γ : Scope) (site : Construct) (e : Expr) :
    e.inferValue h' Γ site = e.inferValue h Γ site := by
  rw [Expr.inferValue, Expr.inferValue, hlike.infer]

theorem inferCall (Γ : Scope) (site : Construct) (r : Expr) (m : String) (args : List Expr) :
    Expr.inferCall h' Γ site r m args = Expr.inferCall h Γ site r m args :=
  hlike.inferCall_of_args (fun params => hlike.checkArgs Γ site params args) r m

/-! ## Statements and declarations -/

theorem checkAssign (target value : Expr) :
    ClassLang.checkAssign h' target value = ClassLang.checkAssign h target value := by
  funext Γ
  simp only [ClassLang.checkAssign, hlike.infer, hlike.assignable]

theorem checkCondition (site : Construct) (cond : Expr) :
    ClassLang.checkCondition h' site cond = ClassLang.checkCondition h site cond := by
  funext Γ
  simp only [ClassLang.checkCondition, hlike.infer]

theorem checkPrint (arg : Option Expr) :
    ClassLang.checkPrint h' arg = ClassLang.checkPrint h arg := by
  funext Γ
  simp only [ClassLang.checkPrint, hlike.inferValue]

theorem checkReturn (value : Option Expr) :
    ClassLang.checkReturn h' value = ClassLang.checkReturn h value := by
  funext s
  simp only [ClassLang.checkReturn, hlike.inferValue]

theorem checkInit (t : Ty) (init : Expr) :
    ClassLang.checkInit h' t init = ClassLang.checkInit h t init := by
  funext Γ
  simp only [ClassLang.checkInit, hlike.inferValue, hlike.requireClass, hlike.assignable]

omit hlike in
mutual
theorem checkStmt (hlike : h.Alike h') : ∀ st : Stmt, st.check h' = st.check h
  | .block body => by
    simp only [Stmt.check, hlike.checkStmts body]
  | .assign target value => by
    simp only [Stmt.check, hlike.checkAssign]
  | .call r m args => by
    simp only [Stmt.check, hlike.inferCall]
  | .ifThen cond thn => by
    simp only [Stmt.check, hlike.checkCondition, hlike.checkStmt thn]
  | .ifElse cond thn els => by
    simp only [Stmt.check, hlike.checkCondition, hlike.checkStmt thn, hlike.checkStmt els]
  | .while cond body => by
    simp only [Stmt.check, hlike.checkCondition, hlike.checkStmt body]
  | .print arg => by
    simp only [Stmt.check, hlike.checkPrint]
  | .ret value => by
    simp only [Stmt.check, hlike.checkReturn]

theorem checkStmts (hlike : h.Alike h') :
    ∀ ss : List Stmt, Stmt.checkAll h' ss = Stmt.checkAll h ss
  | [] => rfl
  | st :: ss => by
    simp only [Stmt.checkAll, hlike.checkStmt st, hlike.checkStmts ss]
end

theorem checkVar (v : VarDecl) : v.check h' = v.check h := by
  simp only [VarDecl.check, hlike.requireClass, hlike.checkInit]

theorem introduceVar : VarDecl.introduce h' = VarDecl.introduce h := by
  funext v
  rw [VarDecl.introduce, VarDecl.introduce, hlike.checkVar]

theorem introduceParam : Param.introduce h' = Param.introduce h := by
  funext p
  simp only [Param.introduce, Param.check, hlike.requireClass]

theorem checkMethod : MethodDecl.check h' = MethodDecl.check h := by
  funext m
  have hbody : MethodDecl.checkBody h' m.body = MethodDecl.checkBody h m.body := by
    simp only [MethodDecl.checkBody, hlike.checkStmt]
  rw [MethodDecl.check, MethodDecl.check, hlike.introduceParam, hlike.introduceVar, hbody]

theorem checkClass : ClassDecl.check h' = ClassDecl.check h := by
  funext c
  rw [ClassDecl.check, ClassDecl.check, hlike.introduceVar, hlike.checkMethod]

end Hierarchy.Alike
end ClassLang
