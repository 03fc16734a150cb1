import ClassLang.Checker.Program
import ClassLang.Proofs.Hierarchy.Outcome
import ClassLang.Proofs.Stmt.Typing

/-! # Accepted programs

When declarations are well typed, said by rules that know no checker and no order of classes, and
that a program is accepted if and only if its classes are. -/

namespace ClassLang

/-- The name is declared, and can be called on if its type is of objects. -/
def Scope.introduce (Γ : Scope) (x : String) (t : Ty) : Scope :=
  (Γ.declare x t).bindObject x t

@[simp] theorem Scope.introduce_self (Γ : Scope) (x : String) (t : Ty) :
    (Γ.introduce x t).self = Γ.self := by
  cases t <;> rfl

theorem Scope.foldl_introduce_self {α : Type} (name : α → String) (ty : α → Ty) (as : List α)
    (Γ : Scope) : (as.foldl (fun Γ a => Γ.introduce (name a) (ty a)) Γ).self = Γ.self := by
  induction as generalizing Γ with
  | nil => rfl
  | cons a as ih => rw [List.foldl_cons, ih, introduce_self]

/-- The declared type is known, and the initial value may stand there. -/
structure VarDecl.WellTyped (h : Hierarchy) (Γ : Scope) (v : VarDecl) : Prop where
  knows : h.Knows v.ty
  init : ∀ e, v.init = some e → ∃ t, HasType h Γ e (some t) ∧ h.Accepts v.ty t

/-- Each variable is well typed where it and those before it are declared. -/
def AllVarsWellTyped (h : Hierarchy) (Γ : Scope) : List VarDecl → Prop
  | [] => True
  | v :: vs => v.WellTyped h (Γ.introduce v.name v.ty) ∧
      AllVarsWellTyped h (Γ.introduce v.name v.ty) vs

namespace MethodDecl

/-- The scope in which the locals of a method are declared. -/
def paramScope (m : MethodDecl) (self : Option String) : Scope :=
  m.params.foldl (fun Γ p => Γ.introduce p.name p.ty) { self }

/-- The scope in which the body of a method stands. -/
def bodyScope (m : MethodDecl) (self : Option String) : Scope :=
  m.locals.foldl (fun Γ v => Γ.introduce v.name v.ty) (m.paramScope self)

@[simp] theorem bodyScope_self (m : MethodDecl) (self : Option String) :
    (m.bodyScope self).self = self := by
  rw [bodyScope, Scope.foldl_introduce_self, paramScope, Scope.foldl_introduce_self]

structure WellTyped (h : Hierarchy) (cls : Option String) (m : MethodDecl) : Prop where
  params : ∀ p ∈ m.params, h.Knows p.ty
  locals : AllVarsWellTyped h (m.paramScope cls) m.locals
  body : ∀ s ∈ m.body, s.WellTyped h (m.bodyScope cls) m.ret
  returns : m.ret.isSome = true → verdict (bodyEvidence m.body) = true

end MethodDecl

structure ClassDecl.WellTyped (h : Hierarchy) (c : ClassDecl) : Prop where
  fields : AllVarsWellTyped h (.ofClass c.name) c.fields
  methods : ∀ m ∈ c.methods, m.WellTyped h (some c.name)

section Declarations

variable {h : Hierarchy} {s s' : Checker}

/-- The checker in another scope. -/
def Checker.inScope (s : Checker) (Γ : Scope) : Checker :=
  { s with scope := Γ }

theorem Param.introduce_eq_ok {p : Param} : p.introduce h s = .ok () s' ↔
    h.Knows p.ty ∧ s' = s.inScope (s.scope.introduce p.name p.ty) := by
  rw [Param.introduce, Param.check]
  simp only [CheckM.bind_eq_ok, CheckM.modify_eq_ok, CheckM.ask_eq_ok]
  constructor
  · rintro ⟨_, rfl, _, ⟨hknows, rfl⟩, rfl⟩
    exact ⟨Hierarchy.requireClass_eq_ok.mp hknows, rfl⟩
  · rintro ⟨hknows, rfl⟩
    exact ⟨_, rfl, _, ⟨Hierarchy.requireClass_eq_ok.mpr hknows, rfl⟩, rfl⟩

theorem checkInit_eq_ok {t : Ty} {e : Expr} {Γ : Scope} (ht : h.Knows t) :
    checkInit h t e Γ = .ok () ↔ ∃ s, HasType h Γ e (some s) ∧ h.Accepts t s := by
  rw [checkInit]
  simp only [bind_eq_ok, inferValue_eq_ok]
  apply exists_congr
  intro s
  apply and_congr_right'
  constructor
  · rintro ⟨_, hs, hassign⟩
    refine ⟨?_, ht, Hierarchy.requireClass_eq_ok.mp hs⟩
    by_contra hnot
    simp [hnot] at hassign
  · rintro ⟨hassign, -, hs⟩
    exact ⟨(), Hierarchy.requireClass_eq_ok.mpr hs, by simp [hassign]⟩

theorem VarDecl.introduce_eq_ok {v : VarDecl} : v.introduce h s = .ok () s' ↔
    v.WellTyped h (s.scope.introduce v.name v.ty) ∧
      s' = s.inScope (s.scope.introduce v.name v.ty) := by
  rw [VarDecl.introduce, VarDecl.check]
  simp only [CheckM.bind_eq_ok, CheckM.modify_eq_ok, CheckM.ask_eq_ok]
  constructor
  · rintro ⟨_, rfl, _, ⟨hknows, rfl⟩, _, rfl, hinit⟩
    have hknows := Hierarchy.requireClass_eq_ok.mp hknows
    cases hv : v.init with
    | none =>
      rw [hv] at hinit
      cases hinit
      exact ⟨⟨hknows, by simp [hv]⟩, rfl⟩
    | some e =>
      rw [hv] at hinit
      obtain ⟨he, rfl⟩ := CheckM.askScope_eq_ok.mp hinit
      refine ⟨⟨hknows, ?_⟩, rfl⟩
      intro e' he'
      obtain rfl := Option.some.inj (hv.symm.trans he')
      exact (checkInit_eq_ok hknows).mp he
  · rintro ⟨⟨hknows, hinit⟩, rfl⟩
    refine ⟨_, rfl, _, ⟨Hierarchy.requireClass_eq_ok.mpr hknows, rfl⟩, _, rfl, ?_⟩
    cases hv : v.init with
    | none => rfl
    | some e => exact CheckM.askScope_eq_ok.mpr ⟨(checkInit_eq_ok hknows).mpr (hinit e hv), rfl⟩

theorem Checker.foldl_inScope {α : Type} (f : Scope → α → Scope) (as : List α) (s : Checker) :
    as.foldl (fun t a => t.inScope (f t.scope a)) s = s.inScope (as.foldl f s.scope) := by
  induction as generalizing s with
  | nil => rfl
  | cons a as ih => exact ih _

theorem params_forM_eq_ok {params : List Param} :
    params.forM (Param.introduce h) s = .ok () s' ↔ (∀ p ∈ params, h.Knows p.ty) ∧
      s' = s.inScope (params.foldl (fun Γ p => Γ.introduce p.name p.ty) s.scope) := by
  rw [CheckM.forM_eq_ok fun _ _ _ => Param.introduce_eq_ok,
    Checker.foldl_inScope fun Γ (p : Param) => Γ.introduce p.name p.ty]
  exact and_congr_left fun _ => CheckM.eachPasses_iff_forall (by intros; rfl)

theorem vars_forM_eq_ok {vars : List VarDecl} :
    vars.forM (VarDecl.introduce h) s = .ok () s' ↔ AllVarsWellTyped h s.scope vars ∧
      s' = s.inScope (vars.foldl (fun Γ v => Γ.introduce v.name v.ty) s.scope) := by
  rw [CheckM.forM_eq_ok fun _ _ _ => VarDecl.introduce_eq_ok,
    Checker.foldl_inScope fun Γ (v : VarDecl) => Γ.introduce v.name v.ty]
  apply and_congr_left'
  induction vars generalizing s with
  | nil => rfl
  | cons v vs ih => exact and_congr_right fun _ => ih

namespace MethodDecl

theorem recordIf_eq_ok {b : Bool} {es : List Evidence} :
    (if b then CheckM.record es else pure () : CheckM Unit) s = .ok () s' ↔
      s' = s.record (if b then es else []) := by
  cases b with
  | true => exact CheckM.record_eq_ok
  | false =>
    change EStateM.Result.ok () s = .ok () s' ↔ _
    simp [eq_comm]

theorem checkBody_eq_ok {body : List Stmt} :
    checkBody h body s = .ok () s' ↔ (∀ st ∈ body, st.WellTyped h s.scope s.returnType?) ∧
      s' = s.record (bodyEvidence body) := by
  have hstep (st : Stmt) (s s' : Checker) :
      (do st.check h; if st.isReturn then CheckM.record [.ret] : CheckM Unit) s = .ok () s' ↔
        st.WellTyped h s.scope s.returnType? ∧
          s' = s.record (st.evidence ++ if st.isReturn then [.ret] else []) := by
    simp only [CheckM.bind_eq_ok, Stmt.check_eq_ok_iff, recordIf_eq_ok, ← Checker.record_record]
    constructor
    · rintro ⟨_, ⟨hst, rfl⟩, rfl⟩
      exact ⟨hst, rfl⟩
    · rintro ⟨hst, rfl⟩
      exact ⟨_, ⟨hst, rfl⟩, rfl⟩
  have hrecord : body.foldl
      (fun t st => t.record (st.evidence ++ if st.isReturn then [.ret] else [])) s =
        s.record (bodyEvidence body) := by
    induction body generalizing s with
    | nil => simp
    | cons st body ih => rw [List.foldl_cons, ih, Checker.record_record, bodyEvidence_cons]
  rw [checkBody, CheckM.forM_eq_ok hstep, hrecord]
  exact and_congr_left fun _ => CheckM.eachPasses_iff_forall (by intros; rfl)

theorem checkReturns_eq_ok {m : MethodDecl} :
    m.checkReturns s = .ok () ↔ (m.ret.isSome = true → verdict s.evidence = true) := by
  unfold checkReturns
  cases m.ret.isSome <;> cases verdict s.evidence <;> simp

/-- A method is checked alike in every state of the checker that is in the same class. -/
theorem check_eq_ok_iff {m : MethodDecl} : m.check h s = .ok () s' ↔
    m.WellTyped h s.scope.self ∧
      s' = ⟨m.bodyScope s.scope.self, m.toSignature, bodyEvidence m.body⟩ := by
  rw [MethodDecl.check]
  simp only [CheckM.bind_eq_ok, CheckM.modify_eq_ok, params_forM_eq_ok, vars_forM_eq_ok,
    checkBody_eq_ok, CheckM.ask_eq_ok, checkReturns_eq_ok]
  constructor
  · rintro ⟨_, rfl, _, ⟨hparams, rfl⟩, _, ⟨hlocals, rfl⟩, _, ⟨hbody, rfl⟩, hreturns, rfl⟩
    exact ⟨⟨hparams, hlocals, hbody, hreturns⟩, rfl⟩
  · rintro ⟨⟨hparams, hlocals, hbody, hreturns⟩, rfl⟩
    exact ⟨_, rfl, _, ⟨hparams, rfl⟩, _, ⟨hlocals, rfl⟩, _, ⟨hbody, rfl⟩, hreturns, rfl⟩

theorem self_of_check {m : MethodDecl} (hm : m.check h s = .ok () s') :
    s'.scope.self = s.scope.self := by
  obtain ⟨-, rfl⟩ := check_eq_ok_iff.mp hm
  exact m.bodyScope_self _

end MethodDecl

theorem methods_forM_eq_ok {methods : List MethodDecl} :
    methods.forM (MethodDecl.check h) s = .ok () s' ↔
      (∀ m ∈ methods, m.WellTyped h s.scope.self) ∧ s' = methods.foldl
        (fun t m => ⟨m.bodyScope t.scope.self, m.toSignature, bodyEvidence m.body⟩) s := by
  rw [CheckM.forM_eq_ok fun _ _ _ => MethodDecl.check_eq_ok_iff]
  exact and_congr_left fun _ => CheckM.eachPasses_iff_forall (by simp)

/-- What a checker holds after a class: that of its last method, or of its fields. -/
def ClassDecl.leave (c : ClassDecl) (s : Checker) : Checker :=
  c.methods.foldl
    (fun t m => ⟨m.bodyScope t.scope.self, m.toSignature, bodyEvidence m.body⟩)
    ((s.enterClass c.name).inScope
      (c.fields.foldl (fun Γ v => Γ.introduce v.name v.ty) (.ofClass c.name)))

theorem ClassDecl.check_eq_ok_iff {c : ClassDecl} :
    c.check h s = .ok () s' ↔ c.WellTyped h ∧ s' = c.leave s := by
  have hself : (c.fields.foldl (fun Γ v => Γ.introduce v.name v.ty)
      (Scope.ofClass c.name)).self = some c.name := Scope.foldl_introduce_self ..
  rw [ClassDecl.check]
  simp only [CheckM.bind_eq_ok, CheckM.modify_eq_ok, vars_forM_eq_ok, methods_forM_eq_ok]
  constructor
  · rintro ⟨_, rfl, _, ⟨hfields, rfl⟩, hall, rfl⟩
    exact ⟨⟨hfields, fun m hm => hself ▸ hall m hm⟩, rfl⟩
  · rintro ⟨⟨hfields, hall⟩, rfl⟩
    exact ⟨_, rfl, _, ⟨hfields, rfl⟩, fun m hm => hself.symm ▸ hall m hm, rfl⟩

theorem classes_forM_eq_ok {classes : List ClassDecl} :
    classes.forM (ClassDecl.check h) s = .ok () s' ↔
      (∀ c ∈ classes, c.WellTyped h) ∧ s' = classes.foldl (fun t c => c.leave t) s := by
  rw [CheckM.forM_eq_ok fun _ _ _ => ClassDecl.check_eq_ok_iff]
  exact and_congr_left fun _ => CheckM.eachPasses_iff_forall (by intros; rfl)

end Declarations

/-- A program is accepted if and only if its classes make up a hierarchy in which each of them is
well typed. Neither the order of the classes nor what the checker holds has a part in this. -/
theorem Program.check_eq_ok_iff {p : Program} : p.check = .ok () ↔
    ∃ h, Hierarchy.build p.classes = .ok h ∧ ∀ c ∈ p.classes, c.WellTyped h := by
  rw [Program.check, bind_eq_ok]
  apply exists_congr
  intro h
  apply and_congr_right
  intro hbuild
  rw [CheckM.outcome_eq_ok]
  simp only [classes_forM_eq_ok, exists_and_left, exists_eq, and_true]
  apply forall_congr'
  intro c
  rw [Hierarchy.mem_order, (Hierarchy.arranges_of_build hbuild).perm.mem_iff]

end ClassLang
