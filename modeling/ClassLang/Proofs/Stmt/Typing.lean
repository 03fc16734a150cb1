import ClassLang.Checker.Stmt
import ClassLang.Proofs.Checker.Runs
import ClassLang.Proofs.Expr.Typing
import ClassLang.Returns.Trace

/-! # Rules for statements

When a statement is well typed, said by rules, and that a check accepts exactly these. All that an
accepted statement leaves in the checker is its evidence. -/

namespace ClassLang

/-- A value without a type may be assigned to anything. -/
def AssignFits (h : Hierarchy) (Γ : Scope) (target value : Expr) : Prop :=
  ∃ t s, HasType h Γ target t ∧ HasType h Γ value s ∧
    ∀ u, s = some u → ∃ w, t = some w ∧ h.assignable w u = true

def PrintFits (h : Hierarchy) (Γ : Scope) : Option Expr → Prop
  | none => True
  | some e => e.isText = true ∨ ∃ t, HasType h Γ e (some t) ∧ t.isPrimitive = true

/-- A value of the shape of the result type, or none where there is no result. -/
def ReturnFits (h : Hierarchy) (Γ : Scope) : (result : Option Ty) → (value : Option Expr) → Prop
  | none, none => True
  | some t, some e => ∃ s, HasType h Γ e (some s) ∧ t.sameShape s = true
  | none, some _ | some _, none => False

section Questions

variable {h : Hierarchy} {Γ : Scope}

theorem discard_eq_ok {ε α : Type} {x : Except ε α} : discard x = .ok () ↔ ∃ a, x = .ok a := by
  cases x with
  | error e =>
    constructor
    · rintro ⟨⟩
    · rintro ⟨_, ⟨⟩⟩
  | ok a => exact ⟨fun _ => ⟨a, rfl⟩, fun _ => rfl⟩

theorem inferValue_eq_ok {site : Construct} {e : Expr} {t : Ty} :
    e.inferValue h Γ site = .ok t ↔ HasType h Γ e (some t) := by
  rw [Expr.inferValue, bind_eq_ok]
  simp only [needValue_eq_ok, Expr.infer_eq_ok_iff]
  exact ⟨fun ⟨_, he, hr⟩ => hr ▸ he, fun he => ⟨_, he, rfl⟩⟩

theorem checkAssign_eq_ok {target value : Expr} :
    checkAssign h target value Γ = .ok () ↔ AssignFits h Γ target value := by
  rw [checkAssign, bind_eq_ok]
  simp only [bind_eq_ok, Expr.infer_eq_ok_iff]
  apply exists_congr
  intro t
  constructor
  · rintro ⟨ht, s, hs, hfits⟩
    refine ⟨s, ht, hs, ?_⟩
    rintro u rfl
    cases t with
    | none => cases hfits
    | some w =>
      refine ⟨w, rfl, ?_⟩
      by_contra hnot
      simp [hnot] at hfits
  · rintro ⟨s, ht, hs, hfits⟩
    refine ⟨ht, s, hs, ?_⟩
    cases s with
    | none => rfl
    | some u =>
      obtain ⟨w, rfl, hassign⟩ := hfits u rfl
      simp [hassign]

theorem checkCondition_eq_ok {site : Construct} {cond : Expr} :
    checkCondition h site cond Γ = .ok () ↔ HasType h Γ cond (some .bool) := by
  rw [checkCondition, ← Expr.infer_eq_ok_iff]
  apply (Expr.misfit?_bind_eq_ok (by rintro _ ⟨⟩)).trans
  simp

theorem checkPrint_eq_ok {arg : Option Expr} :
    checkPrint h arg Γ = .ok () ↔ PrintFits h Γ arg := by
  cases arg with
  | none => simp [checkPrint, PrintFits]
  | some e =>
    rw [checkPrint, PrintFits]
    cases e.isText with
    | true => simp
    | false =>
      simp only [Bool.false_eq_true, if_false, false_or, bind_eq_ok, inferValue_eq_ok]
      apply exists_congr
      intro t
      apply and_congr_right'
      cases t.isPrimitive <;> simp

theorem checkReturn_eq_ok {value : Option Expr} {s : Checker} :
    checkReturn h value s = .ok () ↔ ReturnFits h s.scope s.returnType? value := by
  unfold checkReturn
  cases value <;> cases s.returnType?
  · simp [ReturnFits]
  · simp [ReturnFits]
  · simp [ReturnFits]
  · simp only [ReturnFits, bind_eq_ok, inferValue_eq_ok]
    apply exists_congr
    intro t
    apply and_congr_right'
    split_ifs with hshape <;> simp [hshape]

end Questions

namespace Stmt

mutual
/-- The statement is well typed in a method of the result type, and so are those inside it. -/
def WellTyped (h : Hierarchy) (Γ : Scope) (result : Option Ty) : Stmt → Prop
  | block body => AllWellTyped h Γ result body
  | assign target value => AssignFits h Γ target value
  | call receiver m args => ∃ t, HasType h Γ (.call receiver m args) t
  | ifThen cond thn => HasType h Γ cond (some .bool) ∧ thn.WellTyped h Γ result
  | ifElse cond thn els =>
    HasType h Γ cond (some .bool) ∧ thn.WellTyped h Γ result ∧ els.WellTyped h Γ result
  | .while cond body => HasType h Γ cond (some .bool) ∧ body.WellTyped h Γ result
  | print arg => PrintFits h Γ arg
  | ret value => ReturnFits h Γ result value

def AllWellTyped (h : Hierarchy) (Γ : Scope) (result : Option Ty) : List Stmt → Prop
  | [] => True
  | s :: ss => s.WellTyped h Γ result ∧ AllWellTyped h Γ result ss
end

theorem allWellTyped_iff {h : Hierarchy} {Γ : Scope} {result : Option Ty} {ss : List Stmt} :
    AllWellTyped h Γ result ss ↔ ∀ s ∈ ss, s.WellTyped h Γ result := by
  induction ss with
  | nil => simp [AllWellTyped]
  | cons s ss ih => simp [AllWellTyped, ih]

variable {h : Hierarchy}

mutual
/-- A statement that is accepted leaves its evidence and nothing else. -/
theorem check_eq_ok_iff : ∀ (st : Stmt) (s s' : Checker), st.check h s = .ok () s' ↔
    st.WellTyped h s.scope s.returnType? ∧ s' = s.record st.evidence
  | block body, s, s' => checkAll_eq_ok_iff body s s'
  | assign target value, s, s' => by
    rw [check, CheckM.askScope_eq_ok, checkAssign_eq_ok]
    simp [WellTyped, evidence]
  | call receiver m args, s, s' => by
    rw [check, CheckM.askScope_eq_ok, discard_eq_ok]
    simp [WellTyped, evidence, Expr.inferCall_eq_ok_iff]
  | ifThen cond thn, s, s' => by
    rw [check]
    simp only [CheckM.bind_eq_ok, CheckM.askScope_eq_ok, CheckM.record_eq_ok,
      check_eq_ok_iff thn]
    constructor
    · rintro ⟨_, ⟨hcond, rfl⟩, _, rfl, hthn, rfl⟩
      exact ⟨⟨checkCondition_eq_ok.mp hcond, hthn⟩, Checker.record_record ..⟩
    · rintro ⟨⟨hcond, hthn⟩, rfl⟩
      exact ⟨s, ⟨checkCondition_eq_ok.mpr hcond, rfl⟩, _, rfl, hthn,
        (Checker.record_record s [thn.thenEvidence] thn.evidence).symm⟩
  | ifElse cond thn els, s, s' => by
    rw [check]
    simp only [CheckM.bind_eq_ok, CheckM.askScope_eq_ok, CheckM.record_eq_ok,
      check_eq_ok_iff thn, check_eq_ok_iff els]
    have hrecord : (((s.record [thn.thenEvidence]).record thn.evidence).record
        [els.elseEvidence]).record els.evidence = s.record (ifElse cond thn els).evidence := by
      simp [Checker.record_record, evidence]
    constructor
    · rintro ⟨_, ⟨hcond, rfl⟩, _, rfl, _, ⟨hthn, rfl⟩, _, rfl, hels, rfl⟩
      exact ⟨⟨checkCondition_eq_ok.mp hcond, hthn, hels⟩, hrecord⟩
    · rintro ⟨⟨hcond, hthn, hels⟩, rfl⟩
      exact ⟨s, ⟨checkCondition_eq_ok.mpr hcond, rfl⟩, _, rfl, _, ⟨hthn, rfl⟩, _, rfl, hels,
        hrecord.symm⟩
  | .while cond body, s, s' => by
    rw [check]
    simp only [CheckM.bind_eq_ok, CheckM.askScope_eq_ok, CheckM.record_eq_ok,
      check_eq_ok_iff body]
    constructor
    · rintro ⟨_, ⟨hcond, rfl⟩, _, rfl, hbody, rfl⟩
      exact ⟨⟨checkCondition_eq_ok.mp hcond, hbody⟩, Checker.record_record ..⟩
    · rintro ⟨⟨hcond, hbody⟩, rfl⟩
      exact ⟨s, ⟨checkCondition_eq_ok.mpr hcond, rfl⟩, _, rfl, hbody,
        (Checker.record_record ..).symm⟩
  | print arg, s, s' => by
    rw [check, CheckM.askScope_eq_ok, checkPrint_eq_ok]
    simp [WellTyped, evidence]
  | ret value, s, s' => by
    rw [check, CheckM.ask_eq_ok, checkReturn_eq_ok]
    simp [WellTyped, evidence]

theorem checkAll_eq_ok_iff : ∀ (ss : List Stmt) (s s' : Checker), checkAll h ss s = .ok () s' ↔
    AllWellTyped h s.scope s.returnType? ss ∧ s' = s.record (evidenceAll ss)
  | [], s, s' => by
    change EStateM.Result.ok () s = .ok () s' ↔ _
    simp [AllWellTyped, evidenceAll, eq_comm]
  | st :: ss, s, s' => by
    rw [checkAll]
    simp only [CheckM.bind_eq_ok, check_eq_ok_iff st, checkAll_eq_ok_iff ss]
    constructor
    · rintro ⟨_, ⟨hst, rfl⟩, hss, rfl⟩
      exact ⟨⟨hst, hss⟩, Checker.record_record ..⟩
    · rintro ⟨⟨hst, hss⟩, rfl⟩
      exact ⟨_, ⟨hst, rfl⟩, hss, (Checker.record_record ..).symm⟩
end

end Stmt
end ClassLang
