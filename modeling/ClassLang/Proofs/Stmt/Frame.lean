import ClassLang.Proofs.Checker.Separate

/-! # What a check of a statement leaves behind

Evidence is recorded in the middle of a check, before the branch that it is about has been looked
at. A check that fails has thus recorded a part of what the text of the statement says, from its
beginning, and a check that succeeds all of it. Nothing else in the checker changes in either case,
and what has been recorded before has no part in the result. -/

namespace ClassLang

namespace CheckM

/-- Whatever evidence the checker holds, the action has the same outcome and records the same: all
of `es` if it succeeds, and the beginning of it if it fails. -/
def Records (act : CheckM Unit) (es : List Evidence) : Prop :=
  ∀ s : Checker, ∃ recorded, recorded <+: es ∧ (act.outcome s = .ok () → recorded = es) ∧
    ∀ evidence, act.outcome { s with evidence } = act.outcome s ∧
      act.final { s with evidence } = { s with evidence := evidence ++ recorded }

namespace Records

theorem pure : Records (pure ()) [] := by
  intro s
  refine ⟨[], List.prefix_rfl, fun _ => rfl, ?_⟩
  intro evidence
  rw [List.append_nil]
  exact ⟨rfl, rfl⟩

theorem ask {f : Checker → Except Diagnostic Unit}
    (hf : ∀ s evidence, f { s with evidence } = f s) : (ask f).Records [] := by
  intro s
  refine ⟨[], List.prefix_rfl, fun _ => rfl, ?_⟩
  intro evidence
  rw [outcome_ask, outcome_ask, hf, final_ask, List.append_nil]
  exact ⟨rfl, rfl⟩

theorem askScope (f : Scope → Except Diagnostic Unit) : (askScope f).Records [] :=
  ask fun _ _ => rfl

theorem record (es : List Evidence) : (record es).Records es :=
  fun _ => ⟨es, List.prefix_rfl, fun _ => rfl, fun _ => ⟨rfl, rfl⟩⟩

/-- The second action records behind the first, if it is come to. -/
theorem bind {act next : CheckM Unit} {es fs : List Evidence} (hact : act.Records es)
    (hnext : next.Records fs) : (act >>= fun _ => next).Records (es ++ fs) := by
  intro s
  obtain ⟨recorded, hprefix, hok, hframe⟩ := hact s
  cases hout : act.outcome s with
  | error d =>
    refine ⟨recorded, hprefix.trans (List.prefix_append es fs), ?_, ?_⟩
    · intro hbind
      rw [outcome_bind, hout] at hbind
      cases hbind
    · intro evidence
      rw [outcome_bind, outcome_bind, final_bind, (hframe evidence).1, hout]
      exact ⟨rfl, (hframe evidence).2⟩
  | ok a =>
    obtain rfl := hok hout
    -- The second action starts with more evidence, which is of no account to it.
    obtain ⟨recorded', hprefix', hok', hframe'⟩ := hnext s
    have hrun (evidence : List Evidence) :
        (act >>= fun _ => next).outcome { s with evidence } = next.outcome s := by
      rw [outcome_bind, (hframe evidence).1, hout, (hframe evidence).2]
      exact (hframe' _).1
    refine ⟨recorded ++ recorded', ?_, ?_, ?_⟩
    · exact (List.prefix_append_right_inj recorded).mpr hprefix'
    · intro hbind
      rw [hok' ((hrun s.evidence).symm.trans hbind)]
    · intro evidence
      refine ⟨(hrun evidence).trans (hrun s.evidence).symm, ?_⟩
      rw [final_bind, (hframe evidence).1, hout, (hframe evidence).2, ← List.append_assoc]
      exact (hframe' _).2

theorem ask_bind {f : Scope → Except Diagnostic Unit} {next : CheckM Unit} {es : List Evidence}
    (hnext : next.Records es) : (CheckM.askScope f >>= fun _ => next).Records es :=
  (askScope f).bind hnext

end Records
end CheckM

namespace Stmt

variable {h : Hierarchy}

mutual
theorem check_records : ∀ st : Stmt, (st.check h).Records st.evidence
  | block body => checkAll_records body
  | assign .. | call .. | print _ => .askScope _
  | ret value => .ask fun _ _ => rfl
  | ifThen cond thn => by
    apply CheckM.Records.ask_bind
    exact .bind (.record [thn.thenEvidence]) (check_records thn)
  | ifElse cond thn els => by
    rw [evidence, List.cons_append]
    apply CheckM.Records.ask_bind
    exact .bind (.record [thn.thenEvidence]) (.bind (check_records thn)
      (.bind (.record [els.elseEvidence]) (check_records els)))
  | .while cond body => by
    apply CheckM.Records.ask_bind
    exact .bind (.record body.loopEvidence) (check_records body)

theorem checkAll_records : ∀ ss : List Stmt, (checkAll h ss).Records (evidenceAll ss)
  | [] => .pure
  | st :: ss => .bind (check_records st) (checkAll_records ss)
end

end Stmt

namespace MethodDecl

variable {h : Hierarchy} {m : MethodDecl} {s s₁ s₂ : Checker}

/-- Statements are judged alike at their turn and right after the locals, since all that those
before them leave is evidence. -/
theorem checkBody_of_passes {body : List Stmt}
    (hbody : ∀ st ∈ body, (st.check h).outcome s = .ok ()) :
    checkBody h body s = .ok () (s.record (bodyEvidence body)) := by
  refine checkBody_eq_ok.mpr ⟨?_, rfl⟩
  intro st hst
  obtain ⟨t, ht⟩ := CheckM.outcome_eq_ok.mp (hbody st hst)
  exact ((Stmt.check_eq_ok_iff st s t).mp ht).1

/-- Once its declarations and statements have passed, the evidence of the text decides. -/
theorem outcome_of_passes
    (hparams : m.params.forM (Param.introduce h) (s.enterMethod m.toSignature) = .ok () s₁)
    (hlocals : m.locals.forM (VarDecl.introduce h) s₁ = .ok () s₂)
    (hbody : ∀ st ∈ m.body, (st.check h).outcome s₂ = .ok ()) :
    (m.check h).outcome s =
      if m.ret.isSome && !verdict (bodyEvidence m.body) then
        .error ⟨.missingReturn m.name, .methodDecl⟩
      else .ok () := by
  have hrun : m.check h s = CheckM.ask m.checkReturns (s₂.record (bodyEvidence m.body)) := by
    rw [check, CheckM.modify_bind_apply, CheckM.bind_apply, hparams]
    change (m.locals.forM (VarDecl.introduce h) >>= _) s₁ = _
    rw [CheckM.bind_apply, hlocals]
    change (checkBody h m.body >>= _) s₂ = _
    rw [CheckM.bind_apply, checkBody_of_passes hbody]
  have hevidence : s₂.evidence = [] := by
    obtain ⟨-, rfl⟩ := params_forM_eq_ok.mp hparams
    obtain ⟨-, rfl⟩ := vars_forM_eq_ok.mp hlocals
    rfl
  calc (m.check h).outcome s
    _ = (CheckM.ask m.checkReturns).outcome (s₂.record (bodyEvidence m.body)) := by
      rw [CheckM.outcome, hrun, CheckM.outcome]
    _ = m.checkReturns (s₂.record (bodyEvidence m.body)) := CheckM.outcome_ask ..
    _ = _ := by rw [checkReturns, Checker.record, hevidence, List.nil_append]

/-- All that is asked of a method, but that it returns. -/
structure PartsWellTyped (h : Hierarchy) (cls : Option String) (m : MethodDecl) : Prop where
  params : ∀ p ∈ m.params, h.Knows p.ty
  locals : AllVarsWellTyped h (m.paramScope cls) m.locals
  body : ∀ st ∈ m.body, st.WellTyped h (m.bodyScope cls) m.ret

theorem outcome_of_partsWellTyped (hm : m.PartsWellTyped h s.scope.self) :
    (m.check h).outcome s =
      if m.ret.isSome && !verdict (bodyEvidence m.body) then
        .error ⟨.missingReturn m.name, .methodDecl⟩
      else .ok () := by
  apply outcome_of_passes (params_forM_eq_ok.mpr ⟨hm.params, rfl⟩)
    (vars_forM_eq_ok.mpr ⟨hm.locals, rfl⟩)
  intro st hst
  exact CheckM.outcome_eq_ok.mpr ⟨_, (Stmt.check_eq_ok_iff st _ _).mpr ⟨hm.body st hst, rfl⟩⟩

theorem partsWellTyped_of_runs {s₃ : Checker}
    (hparams : m.params.forM (Param.introduce h) (s.enterMethod m.toSignature) = .ok () s₁)
    (hlocals : m.locals.forM (VarDecl.introduce h) s₁ = .ok () s₂)
    (hbody : checkBody h m.body s₂ = .ok () s₃) : m.PartsWellTyped h s.scope.self := by
  obtain ⟨hknows, rfl⟩ := params_forM_eq_ok.mp hparams
  obtain ⟨hvars, rfl⟩ := vars_forM_eq_ok.mp hlocals
  exact ⟨hknows, hvars, (checkBody_eq_ok.mp hbody).1⟩

end MethodDecl

/-- The check of a statement keeps the scope and the method, its result does not depend on the
evidence, and what it records is read off the text of the statement. So in a method with a result
whose declarations and statements pass, the text of the body alone decides on a missing return. -/
theorem Stmt.check_effect (h : Hierarchy) :
    (∀ (st : Stmt) (s : Checker), ∃ recorded, recorded <+: st.evidence ∧
      ((st.check h).outcome s = .ok () → recorded = st.evidence) ∧
      ∀ evidence, (st.check h).outcome { s with evidence } = (st.check h).outcome s ∧
        (st.check h).final { s with evidence } = { s with evidence := evidence ++ recorded }) ∧
    (∀ (m : MethodDecl) (s s₁ s₂ : Checker), m.ret.isSome = true →
      m.params.forM (Param.introduce h) (s.enterMethod m.toSignature) = .ok () s₁ →
      m.locals.forM (VarDecl.introduce h) s₁ = .ok () s₂ →
      (∀ st ∈ m.body, (st.check h).outcome s₂ = .ok ()) →
      ((m.check h).outcome s = .error ⟨.missingReturn m.name, .methodDecl⟩ ↔
        verdict (bodyEvidence m.body) = false)) := by
  refine ⟨check_records, ?_⟩
  intro m s s₁ s₂ hret hparams hlocals hbody
  rw [MethodDecl.outcome_of_passes hparams hlocals hbody, hret]
  cases verdict (bodyEvidence m.body) <;> simp

/-- The only return stands in a loop. -/
def spin : MethodDecl :=
  { name := "spin", params := [⟨.bool, "go"⟩], ret := some .int
    locals := [{ ty := .int, name := "n", init := some (.int 0) }]
    body := [.while (.var "go") (.block [.print (some (.var "n")), .ret (some (.var "n"))])] }

theorem Stmt.spin_check_effect : ∃ s₁ s₂ : Checker,
    spin.params.forM (Param.introduce {}) (({} : Checker).enterMethod spin.toSignature) =
      .ok () s₁ ∧
    spin.locals.forM (VarDecl.introduce {}) s₁ = .ok () s₂ ∧
    (∀ st ∈ spin.body, (st.check {}).outcome s₂ = .ok ()) ∧
    (spin.check {}).outcome {} = .error ⟨.missingReturn "spin", .methodDecl⟩ := by
  refine ⟨_, _, rfl, rfl, ?body, ((check_effect {}).2 spin {} _ _ rfl rfl rfl ?body).mpr rfl⟩
  intro st hst
  obtain rfl := List.mem_singleton.mp hst
  rfl

end ClassLang
