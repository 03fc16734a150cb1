import ClassLang.Checker.Program
import ClassLang.Proofs.Renaming.Expr

/-! # Programs under renaming

A check goes the same way through a program and through the same program under other class names:
both pass a statement or a declaration, or both end there with the same fault. Class names thus
have no meaning beyond the difference between them. -/

namespace ClassLang

variable {r : String → String}

/-! ## Checkers that know the same -/

structure Checker.Renames (r : String → String) (s s' : Checker) : Prop where
  scope : s.scope.Renames r s'.scope
  method : s'.method = s.method.map (Signature.rename r)
  evidence : s'.evidence = s.evidence

namespace Scope.Renames

theorem empty (self : Option String) : Scope.Renames r { self } { self := self.map r } :=
  ⟨rfl, fun _ => by simp, fun _ => by simp⟩

theorem declare {Γ Γ' : Scope} (hΓ : Γ.Renames r Γ') (x : String) (t : Ty) :
    (Γ.declare x t).Renames r (Γ'.declare x (t.rename r)) where
  self := hΓ.self
  objects := hΓ.objects
  types := by
    intro y
    rw [Scope.declare, Scope.declare, Std.TreeMap.getElem?_insert, Std.TreeMap.getElem?_insert,
      hΓ.types]
    split <;> rfl

theorem bindObject {Γ Γ' : Scope} (hΓ : Γ.Renames r Γ') (x : String) (t : Ty) :
    (Γ.bindObject x t).Renames r (Γ'.bindObject x (t.rename r)) := by
  cases t with
  | object c =>
    refine ⟨hΓ.self, hΓ.types, ?_⟩
    intro y
    change (Γ'.objects.insert x (r c))[y]? = ((Γ.objects.insert x c)[y]?).map r
    rw [Std.TreeMap.getElem?_insert, Std.TreeMap.getElem?_insert, hΓ.objects]
    split <;> rfl
  | int | bool | array t => exact hΓ

end Scope.Renames

namespace Checker.Renames

variable {s s' : Checker} (hs : s.Renames r s')

include hs

theorem enterClass (c : String) : (s.enterClass c).Renames r (s'.enterClass (r c)) :=
  ⟨.empty (some c), rfl, hs.evidence⟩

theorem enterMethod (m : Signature) :
    (s.enterMethod m).Renames r (s'.enterMethod (m.rename r)) := by
  refine ⟨?_, rfl, rfl⟩
  rw [Checker.enterMethod, Checker.enterMethod, Scope.clear, Scope.clear, hs.scope.self]
  exact .empty s.scope.self

theorem declare (x : String) (t : Ty) :
    (s.declare x t).Renames r (s'.declare x (t.rename r)) :=
  ⟨hs.scope.declare x t, hs.method, hs.evidence⟩

theorem bindObject (x : String) (t : Ty) :
    (s.bindObject x t).Renames r (s'.bindObject x (t.rename r)) :=
  ⟨hs.scope.bindObject x t, hs.method, hs.evidence⟩

theorem record (es : List Evidence) : (s.record es).Renames r (s'.record es) :=
  ⟨hs.scope, hs.method, congrArg (· ++ es) hs.evidence⟩

theorem returnType? : s'.returnType? = s.returnType?.map (Ty.rename r) := by
  rw [Checker.returnType?, Checker.returnType?, hs.method]
  cases s.method <;> rfl

end Checker.Renames

namespace CheckM

/-- Both runs have passed and left checkers that know the same, or both have the same fault. -/
inductive EndsAgree (r : String → String) : EStateM.Result Diagnostic Checker Unit →
    EStateM.Result Diagnostic Checker Unit → Prop
  | ok {s s' : Checker} (hs : s.Renames r s') : EndsAgree r (.ok () s) (.ok () s')
  | error {d d' : Diagnostic} {s s' : Checker} (hd : d.Renames r d') :
      EndsAgree r (.error d s) (.error d' s')

/-- From checkers that know the same the two actions end alike. -/
def RunsAgree (r : String → String) (act act' : CheckM Unit) : Prop :=
  ∀ s s', s.Renames r s' → EndsAgree r (act s) (act' s')

namespace RunsAgree

variable {act act' next next' : CheckM Unit}

theorem pure : RunsAgree r (pure ()) (pure ()) :=
  fun _ _ hs => .ok hs

theorem modify {f f' : Checker → Checker} (hf : ∀ s s', s.Renames r s' → (f s).Renames r (f' s')) :
    RunsAgree r (modify f) (modify f') :=
  fun s s' hs => .ok (hf s s' hs)

theorem record (es : List Evidence) : RunsAgree r (record es) (record es) :=
  modify fun _ _ hs => hs.record es

theorem ask {f f' : Checker → Except Diagnostic Unit}
    (hf : ∀ s s', s.Renames r s' → Agree r id (f s) (f' s')) : RunsAgree r (ask f) (ask f') := by
  intro s s' hs
  have hagree := hf s s' hs
  unfold CheckM.ask
  generalize f s = a, f' s' = a' at hagree
  cases hagree with
  | ok _ => exact .ok hs
  | error hd => exact .error hd

theorem askScope {f f' : Scope → Except Diagnostic Unit}
    (hf : ∀ Γ Γ', Γ.Renames r Γ' → Agree r id (f Γ) (f' Γ')) :
    RunsAgree r (askScope f) (askScope f') :=
  ask fun s s' hs => hf s.scope s'.scope hs.scope

theorem bind (hact : RunsAgree r act act') (hnext : RunsAgree r next next') :
    RunsAgree r (act >>= fun _ => next) (act' >>= fun _ => next') := by
  intro s s' hs
  have hends := hact s s' hs
  rw [bind_apply, bind_apply]
  generalize act s = e, act' s' = e' at hends
  cases hends with
  | ok ht => exact hnext _ _ ht
  | error hd => exact .error hd

theorem forM {α : Type} {f f' : α → CheckM Unit} {g : α → α}
    (hf : ∀ a, RunsAgree r (f a) (f' (g a))) (as : List α) :
    RunsAgree r (as.forM f) ((as.map g).forM f') := by
  induction as with
  | nil => exact pure
  | cons a as ih => exact bind (hf a) ih

theorem outcome (hact : RunsAgree r act act') {s s' : Checker} (hs : s.Renames r s') :
    Agree r id (act.outcome s) (act'.outcome s') := by
  have hends := hact s s' hs
  unfold CheckM.outcome
  generalize act s = e, act' s' = e' at hends
  cases hends with
  | ok _ => exact .ok rfl
  | error hd => exact .error hd

end RunsAgree
end CheckM

/-! ## Evidence -/

namespace Stmt

variable (r)

theorem direct_rename (s : Stmt) : (s.rename r).direct = s.direct.map (rename r) := by
  cases s <;> simp [rename, direct, renameAll_eq_map]

theorem branchShape_rename (s : Stmt) : (s.rename r).branchShape = s.branchShape := by
  have hreturn : isReturn ∘ rename r = isReturn := funext (isReturn_rename r)
  have hif : isIf ∘ rename r = isIf := funext (isIf_rename r)
  rw [branchShape, branchShape, direct_rename, List.any_map, List.any_map, hreturn, hif]

theorem thenEvidence_rename (s : Stmt) : (s.rename r).thenEvidence = s.thenEvidence := by
  rw [thenEvidence, thenEvidence, branchShape_rename]

theorem elseEvidence_rename (s : Stmt) : (s.rename r).elseEvidence = s.elseEvidence := by
  rw [elseEvidence, elseEvidence, branchShape_rename]

theorem loopEvidence_rename (s : Stmt) : (s.rename r).loopEvidence = s.loopEvidence := by
  have hreturn : isReturn ∘ rename r = isReturn := funext (isReturn_rename r)
  rw [loopEvidence, loopEvidence, direct_rename, List.filter_map, hreturn, List.map_map]
  rfl

end Stmt

/-! ## Statements -/

section Statements

variable (hr : Function.Injective r) {h : Hierarchy} {Γ Γ' : Scope}

include hr

theorem checkAssign_rename (hΓ : Γ.Renames r Γ') (target value : Expr) :
    Agree r id (checkAssign h target value Γ)
      (checkAssign (h.rename r) (target.rename r) (value.rename r) Γ') := by
  apply (Expr.infer_rename hr hΓ target).bind
  intro t
  apply (Expr.infer_rename hr hΓ value).bind
  intro s
  cases s with
  | none => cases t <;> exact .ok rfl
  | some s =>
    cases t with
    | none => exact .fault (.typeMismatch (.fixed _) (.ty s))
    | some t =>
      simp only [Option.map_some, Hierarchy.assignable_rename hr]
      exact .ite Iff.rfl (.ok rfl) (.fault (.mismatch t s))

theorem checkCondition_rename (hΓ : Γ.Renames r Γ') (site : Construct) (cond : Expr) :
    Agree r id (checkCondition h site cond Γ)
      (checkCondition (h.rename r) site (cond.rename r) Γ') := by
  refine Expr.misfit?_bind_rename (fun _ => Ty.rename_eq_bool_iff r)
    (Expr.infer_rename hr hΓ cond) (.ok rfl) ?_
  intro _ _ htext
  exact .fault (.conditionNotBoolean htext)

theorem checkPrint_rename (hΓ : Γ.Renames r Γ') (arg : Option Expr) :
    Agree r id (checkPrint h arg Γ)
      (checkPrint (h.rename r) (arg.map (Expr.rename r)) Γ') := by
  cases arg with
  | none => exact .ok rfl
  | some e =>
    rw [Option.map_some, checkPrint, checkPrint, Expr.isText_rename]
    apply Agree.ite Iff.rfl (.ok rfl)
    apply (Expr.inferValue_rename hr hΓ .print e).bind
    intro t
    rw [Ty.isPrimitive_rename]
    exact .ite Iff.rfl (.ok rfl) (.fault (.typeMismatch (.fixed _) (.ty t)))

theorem checkReturn_rename {s s' : Checker} (hs : s.Renames r s') (value : Option Expr) :
    Agree r id (checkReturn h value s)
      (checkReturn (h.rename r) (value.map (Expr.rename r)) s') := by
  unfold checkReturn
  rw [hs.returnType?]
  cases value with
  | none =>
    cases s.returnType? with
    | none => exact .ok rfl
    | some t => exact .fault .missingReturnValue
  | some e =>
    cases s.returnType? with
    | none => exact .fault .unexpectedReturnValue
    | some t =>
      apply (Expr.inferValue_rename hr hs.scope .ret e).bind
      intro received
      rw [Ty.sameShape_rename]
      exact .ite Iff.rfl (.ok rfl) (.fault (.mismatch t received))

theorem checkInit_rename (hΓ : Γ.Renames r Γ') (t : Ty) (e : Expr) :
    Agree r id (checkInit h t e Γ) (checkInit (h.rename r) (t.rename r) (e.rename r) Γ') := by
  apply (Expr.inferValue_rename hr hΓ .varDecl e).bind
  intro s
  apply (Hierarchy.requireClass_rename hr h .varDecl s).bind
  intro _
  rw [Hierarchy.assignable_rename hr]
  exact .ite Iff.rfl (.ok rfl) (.fault (.mismatch t s))

end Statements

namespace Stmt

variable {h : Hierarchy}

mutual
theorem check_rename (hr : Function.Injective r) : ∀ st : Stmt,
    CheckM.RunsAgree r (st.check h) ((st.rename r).check (h.rename r))
  | block body => checkAll_rename hr body
  | assign target value => .askScope fun _ _ hΓ => checkAssign_rename hr hΓ target value
  | call receiver m args => .askScope fun _ _ hΓ =>
      (Expr.inferCall_rename hr hΓ .callStmt receiver m args).bind fun _ => .ok rfl
  | ifThen cond thn => by
    rw [rename, check, check, thenEvidence_rename]
    refine .bind (.askScope fun _ _ hΓ => checkCondition_rename hr hΓ .ifStmt cond) ?_
    exact .bind (.record _) (check_rename hr thn)
  | ifElse cond thn els => by
    rw [rename, check, check, thenEvidence_rename, elseEvidence_rename]
    refine .bind (.askScope fun _ _ hΓ => checkCondition_rename hr hΓ .ifStmt cond) ?_
    refine .bind (.record _) (.bind (check_rename hr thn) ?_)
    exact .bind (.record _) (check_rename hr els)
  | .while cond body => by
    rw [rename, check, check, loopEvidence_rename]
    refine .bind (.askScope fun _ _ hΓ => checkCondition_rename hr hΓ .whileStmt cond) ?_
    exact .bind (.record _) (check_rename hr body)
  | print arg => .askScope fun _ _ hΓ => checkPrint_rename hr hΓ arg
  | ret value => .ask fun _ _ hs => checkReturn_rename hr hs value

theorem checkAll_rename (hr : Function.Injective r) : ∀ ss : List Stmt,
    CheckM.RunsAgree r (checkAll h ss) (checkAll (h.rename r) (renameAll r ss))
  | [] => .pure
  | st :: ss => .bind (check_rename hr st) (checkAll_rename hr ss)
end

end Stmt

/-! ## Declarations -/

section Declarations

variable (hr : Function.Injective r) {h : Hierarchy}

include hr

theorem Param.introduce_rename (p : Param) :
    CheckM.RunsAgree r (p.introduce h) ((p.rename r).introduce (h.rename r)) := by
  refine .bind (.modify fun _ _ hs => hs.declare p.name p.ty) ?_
  refine .bind (.ask fun _ _ _ => Hierarchy.requireClass_rename hr h .param p.ty) ?_
  exact .modify fun _ _ hs => hs.bindObject p.name p.ty

theorem VarDecl.introduce_rename (v : VarDecl) :
    CheckM.RunsAgree r (v.introduce h) ((v.rename r).introduce (h.rename r)) := by
  refine .bind (.modify fun _ _ hs => hs.declare v.name v.ty) ?_
  refine .bind (.ask fun _ _ _ => Hierarchy.requireClass_rename hr h .varDecl v.ty) ?_
  refine .bind (.modify fun _ _ hs => hs.bindObject v.name v.ty) ?_
  rw [VarDecl.rename]
  cases v.init with
  | none => exact .pure
  | some e => exact .askScope fun _ _ hΓ => checkInit_rename hr hΓ v.ty e

theorem MethodDecl.checkBody_rename (body : List Stmt) :
    CheckM.RunsAgree r (checkBody h body) (checkBody (h.rename r) (body.map (Stmt.rename r))) := by
  apply CheckM.RunsAgree.forM
  intro st
  rw [Stmt.isReturn_rename]
  apply (Stmt.check_rename hr st).bind
  cases st.isReturn with
  | true => exact .record _
  | false => exact .pure

omit hr in
theorem MethodDecl.checkReturns_rename (m : MethodDecl) {s s' : Checker} (hs : s.Renames r s') :
    Agree r id (m.checkReturns s) ((m.rename r).checkReturns s') := by
  have hret : (m.rename r).ret.isSome = m.ret.isSome := Option.isSome_map ..
  rw [checkReturns, checkReturns, hret, hs.evidence]
  exact .ite Iff.rfl (.fault .missingReturn) (.ok rfl)

theorem MethodDecl.check_rename (m : MethodDecl) :
    CheckM.RunsAgree r (m.check h) ((m.rename r).check (h.rename r)) := by
  refine .bind (.modify fun _ _ hs => hs.enterMethod m.toSignature) ?_
  refine .bind (.forM (Param.introduce_rename hr) m.params) ?_
  refine .bind (.forM (VarDecl.introduce_rename hr) m.locals) ?_
  refine .bind (checkBody_rename hr m.body) ?_
  exact .ask fun _ _ hs => m.checkReturns_rename hs

theorem ClassDecl.check_rename (c : ClassDecl) :
    CheckM.RunsAgree r (c.check h) ((c.rename r).check (h.rename r)) := by
  refine .bind (.modify fun _ _ hs => hs.enterClass c.name) ?_
  refine .bind (.forM (VarDecl.introduce_rename hr) c.fields) ?_
  exact .forM (MethodDecl.check_rename hr) c.methods

/-- Under names that are all kept apart a program passes as before, or ends with the same fault
under the other names. -/
theorem Program.check_rename (p : Program) : Agree r id p.check (p.rename r).check := by
  apply (Hierarchy.build_rename hr p.classes).bind
  intro h
  rw [Hierarchy.order_rename]
  exact (CheckM.RunsAgree.forM (ClassDecl.check_rename hr) h.order).outcome ⟨.empty none, rfl, rfl⟩

end Declarations

/-! ## Programs -/

namespace Program

/-- New names for the classes of a program change neither whether it passes nor what is wrong with
it and where, if they differ for the classes that it names. It does not matter how they read: a
class may have the name of a primitive type. -/
theorem check_rename_of_injOn (p : Program) (r : String → String)
    (hr : Set.InjOn r {c | c ∈ p.classNames}) :
    ((p.rename r).check = .ok () ↔ p.check = .ok ()) ∧
    ∀ d d' : Diagnostic, p.check = .error d → (p.rename r).check = .error d' →
      d'.fault.title = d.fault.title ∧ d'.site = d.site := by
  -- the checker may compare any two names, so `r` first goes on to one that keeps all names apart
  obtain ⟨r', hinj, heq⟩ := exists_injective_eqOn hr
  have hagree := check_rename hinj p
  rw [← rename_congr heq] at hagree
  generalize p.check = result, (p.rename r).check = result' at hagree ⊢
  cases hagree with
  | ok _ => simp
  | error hd =>
    constructor
    · simp
    · intro d d' h h'
      cases h
      cases h'
      exact ⟨hd.fault.title_eq, hd.site⟩

/-- A number is stored where an object of class `Cell` is expected. -/
def storeNumber : Program :=
  { classes := [
      { name := "Sheet", parent := some "Cell", fields := []
        methods := [
          { name := "put", params := [⟨.object "Cell", "x"⟩], ret := none, locals := []
            body := [.assign (.var "x") (.int 1)] }] },
      { name := "Cell", parent := none, fields := [], methods := [] }] }

/-- `Cell` reads like the type of the number. -/
def disguise (c : String) : String :=
  if c = "Cell" then "int" else "String"

theorem storeNumber_rename :
    Set.InjOn disguise {c | c ∈ storeNumber.classNames} ∧
    storeNumber.check = .error ⟨.typeMismatch "Cell" "int", .assign⟩ ∧
    (storeNumber.rename disguise).check = .error ⟨.typeMismatch "int" "int", .assign⟩ ∧
    (Fault.typeMismatch "int" "int").title = (Fault.typeMismatch "Cell" "int").title := by
  have hr : Set.InjOn disguise {c | c ∈ storeNumber.classNames} := by
    have hnames : ∀ c ∈ storeNumber.classNames, ∀ c' ∈ storeNumber.classNames,
        disguise c = disguise c' → c = c' := by decide
    exact fun c hc c' hc' => hnames c hc c' hc'
  have hcheck : storeNumber.check = .error ⟨.typeMismatch "Cell" "int", .assign⟩ := by
    decide +kernel
  have hcheck' : (storeNumber.rename disguise).check =
      .error ⟨.typeMismatch "int" "int", .assign⟩ := by
    decide +kernel
  have hrename := check_rename_of_injOn storeNumber disguise hr
  exact ⟨hr, hcheck, hcheck', (hrename.2 _ _ hcheck hcheck').1⟩

end Program

end ClassLang
