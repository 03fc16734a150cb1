import ClassLang.Proofs.Returns.Neutral
import ClassLang.Proofs.Stmt.Frame

/-! # Bodies with at most one return

A fold comes to a verdict through a return of the body itself, or else through two branches that
return. A single return stands directly in one branch at most, so it has to stand in the body. It
is then lost again to every `if` behind it, since one of the branches of a tree of ifs without a
return falls through. -/

namespace ClassLang

namespace Evidence

/-- How far a piece of evidence brings a fold on its way to a verdict, which is two steps long. -/
def credit : Evidence → Nat
  | .ret | .loop false => 2
  | .thenBranch true | .elseBranch true => 1
  | _ => 0

def totalCredit : List Evidence → Nat
  | [] => 0
  | e :: es => e.credit + totalCredit es

theorem totalCredit_append (es fs : List Evidence) :
    totalCredit (es ++ fs) = totalCredit es + totalCredit fs := by
  induction es with
  | nil => simp [totalCredit]
  | cons e es ih => simp [totalCredit, ih, Nat.add_assoc]

end Evidence

namespace Flow

theorem step_of_credit_le_one {f : Flow} {e : Evidence} (hf : f.returned = false)
    (hle : f.awaitsElse.toNat + e.credit ≤ 1) :
    (f.step e).returned = false ∧
      (f.step e).awaitsElse.toNat ≤ f.awaitsElse.toNat + e.credit := by
  obtain ⟨_, waits, nested⟩ := f
  subst hf
  cases e with
  | ret => simp [Evidence.credit] at hle
  | loop returns | thenBranch returns | elseBranch returns =>
    cases returns <;> cases waits <;> cases nested <;> simp_all [Evidence.credit, step]
  | nestedThen | nestedElse => exact ⟨rfl, Nat.le_refl _⟩

theorem run_of_credit_le_one {f : Flow} {es : List Evidence} (hf : f.returned = false)
    (hle : f.awaitsElse.toNat + Evidence.totalCredit es ≤ 1) :
    (f.run es).returned = false := by
  -- An awaited else-branch is the step already made. Each piece adds to it what it takes from the
  -- rest, so their sum never grows.
  induction es generalizing f with
  | nil => exact hf
  | cons e es ih =>
    rw [Evidence.totalCredit] at hle
    have hhead : f.awaitsElse.toNat + e.credit ≤ 1 := by omega
    obtain ⟨hreturned, hwaits⟩ := step_of_credit_le_one hf hhead
    apply ih hreturned
    omega

end Flow

namespace Stmt

mutual
/-- The number of returns in the statement, however deep. -/
def returnCount : Stmt → Nat
  | ret _ => 1
  | block body => returnCountAll body
  | ifThen _ thn => thn.returnCount
  | ifElse _ thn els => thn.returnCount + els.returnCount
  | .while _ body => body.returnCount
  | assign .. | call .. | print _ => 0

def returnCountAll : List Stmt → Nat
  | [] => 0
  | s :: ss => s.returnCount + returnCountAll ss
end

theorem returnCountAll_append (ss ts : List Stmt) :
    returnCountAll (ss ++ ts) = returnCountAll ss + returnCountAll ts := by
  induction ss with
  | nil => simp [returnCountAll]
  | cons s ss ih => simp [returnCountAll, ih, Nat.add_assoc]

theorem thenEvidence_credit (s : Stmt) : s.thenEvidence.credit = s.returnsDirectly.toNat := by
  unfold thenEvidence branchShape returnsDirectly
  cases s.direct.any isReturn <;> cases s.direct.any isIf <;> rfl

theorem elseEvidence_credit (s : Stmt) : s.elseEvidence.credit = s.returnsDirectly.toNat := by
  unfold elseEvidence branchShape returnsDirectly
  cases s.direct.any isReturn <;> cases s.direct.any isIf <;> rfl

theorem loopEvidence_totalCredit (s : Stmt) : Evidence.totalCredit s.loopEvidence = 0 := by
  rw [loopEvidence]
  induction s.direct.filter isReturn with
  | nil => rfl
  | cons _ _ ih =>
    rw [List.map_cons, Evidence.totalCredit, ih]
    rfl

theorem toNat_returnsDirectly_le (s : Stmt) :
    s.returnsDirectly.toNat ≤ s.direct.countP isReturn := by
  cases hs : s.returnsDirectly with
  | false => exact Nat.zero_le _
  | true => exact List.one_le_countP_iff.mpr (List.any_eq_true.mp hs)

mutual
/-- A return that stands directly in the statement has left no evidence in it. -/
theorem credit_evidence_le : ∀ s : Stmt,
    Evidence.totalCredit s.evidence + s.direct.countP isReturn ≤ s.returnCount
  | block body => credit_evidenceAll_le body
  | assign .. | call .. | print _ | ret _ => by
    simp [evidence, Evidence.totalCredit, direct, isReturn, returnCount]
  | ifThen cond thn => by
    have hthn := credit_evidence_le thn
    have hdirect := toNat_returnsDirectly_le thn
    simp only [evidence, direct, returnCount, Evidence.totalCredit, thenEvidence_credit,
      List.countP_singleton, isReturn, Bool.false_eq_true, if_false]
    omega
  | ifElse cond thn els => by
    have hthn := credit_evidence_le thn
    have hels := credit_evidence_le els
    have hthnDirect := toNat_returnsDirectly_le thn
    have helsDirect := toNat_returnsDirectly_le els
    simp only [evidence, direct, returnCount, Evidence.totalCredit_append, Evidence.totalCredit,
      thenEvidence_credit, elseEvidence_credit, List.countP_singleton, isReturn,
      Bool.false_eq_true, if_false]
    omega
  | .while cond body => by
    have hbody := credit_evidence_le body
    simp only [evidence, direct, returnCount, Evidence.totalCredit_append,
      loopEvidence_totalCredit, List.countP_singleton, isReturn, Bool.false_eq_true, if_false]
    omega

theorem credit_evidenceAll_le : ∀ ss : List Stmt,
    Evidence.totalCredit (evidenceAll ss) + ss.countP isReturn ≤ returnCountAll ss
  | [] => by simp [evidenceAll, Evidence.totalCredit, returnCountAll]
  | s :: ss => by
    have hs := credit_evidence_le s
    have hss := credit_evidenceAll_le ss
    have hdirect : (if s.isReturn = true then 1 else 0) ≤ s.direct.countP isReturn := by
      cases s <;> simp [isReturn, direct]
    simp only [evidenceAll, returnCountAll, Evidence.totalCredit_append, List.countP_cons]
    omega
end

theorem returnsDirectly_of_returnCount_eq_zero {s : Stmt} (hs : s.returnCount = 0) :
    s.returnsDirectly = false := by
  have hle := credit_evidence_le s
  have hdirect := toNat_returnsDirectly_le s
  rw [← Bool.toNat_eq_zero]
  omega

theorem hasIf_of_direct_any_isIf {s : Stmt} (hs : s.direct.any isIf = true) : s.hasIf = true := by
  cases s with
  | block body =>
    obtain ⟨t, ht, hif⟩ := List.any_eq_true.mp hs
    rw [hasIf, anyHasIf_eq_any, List.any_eq_true]
    exact ⟨t, ht, hasIf_of_isIf hif⟩
  | ifThen _ _ | ifElse _ _ _ => rfl
  | _ => simp [direct, isIf] at hs

/-- A branch without a return takes the verdict back or has an `if` in it that will. -/
theorem step_branch_returned {s : Stmt} (hs : s.returnsDirectly = false) (f : Flow) :
    ((f.step s.thenEvidence).returned && !s.hasIf) = false ∧
      ((f.step s.elseEvidence).returned && !s.hasIf) = false := by
  rw [thenEvidence, elseEvidence, branchShape, ← returnsDirectly, hs]
  cases hif : s.direct.any isIf with
  | false => simp [Flow.step]
  | true => simp [hasIf_of_direct_any_isIf hif]

mutual
/-- Without a return a verdict is not raised, and it is kept if there is no `if` either. -/
theorem run_returned_of_no_return : ∀ s : Stmt, s.returnCount = 0 → ∀ f : Flow,
    (f.run s.evidence).returned = (f.returned && !s.hasIf)
  | block body, hs, f => runAll_returned_of_no_return body hs f
  | assign .., _, f | call .., _, f | print _, _, f => by simp [evidence, hasIf]
  | ifThen cond thn, hs, f => by
    rw [returnCount] at hs
    rw [evidence, Flow.run_cons, run_returned_of_no_return thn hs,
      (step_branch_returned (returnsDirectly_of_returnCount_eq_zero hs) f).1]
    simp [hasIf]
  | ifElse cond thn els, hs, f => by
    rw [returnCount, Nat.add_eq_zero_iff] at hs
    rw [evidence, Flow.run_append, Flow.run_cons, run_returned_of_no_return els hs.2,
      (step_branch_returned (returnsDirectly_of_returnCount_eq_zero hs.2) _).2]
    simp [hasIf]
  | .while cond body, hs, f => by
    rw [returnCount] at hs
    rw [evidence,
      loopEvidence_of_not_returnsDirectly (returnsDirectly_of_returnCount_eq_zero hs)]
    exact run_returned_of_no_return body hs f

theorem runAll_returned_of_no_return : ∀ ss : List Stmt, returnCountAll ss = 0 → ∀ f : Flow,
    (f.run (evidenceAll ss)).returned = (f.returned && !anyHasIf ss)
  | [], _, f => by simp [evidenceAll, anyHasIf]
  | s :: ss, hs, f => by
    rw [returnCountAll, Nat.add_eq_zero_iff] at hs
    rw [evidenceAll, Flow.run_append, runAll_returned_of_no_return ss hs.2,
      run_returned_of_no_return s hs.1, anyHasIf, Bool.not_or, Bool.and_assoc]
end

theorem isReturn_of_mem_of_no_return {ss : List Stmt} (hss : returnCountAll ss = 0) :
    ∀ s ∈ ss, s.isReturn = false := by
  have hle := credit_evidenceAll_le ss
  have hcount : ss.countP isReturn = 0 := by omega
  simpa [List.countP_eq_zero] using hcount

/-- One return that is not a statement of the body itself never makes a verdict. -/
theorem verdict_of_not_isReturn {body : List Stmt} (hcount : returnCountAll body ≤ 1)
    (hbody : ∀ s ∈ body, s.isReturn = false) : verdict (bodyEvidence body) = false := by
  rw [bodyEvidence_of_not_isReturn hbody]
  apply Flow.run_of_credit_le_one rfl
  have hle := credit_evidenceAll_le body
  simp only [Bool.toNat_false]
  omega

theorem verdict_append_ret {pre post : List Stmt} {value : Option Expr}
    (hpost : returnCountAll post = 0) :
    verdict (bodyEvidence (pre ++ ret value :: post)) = !anyHasIf post := by
  rw [bodyEvidence_append, bodyEvidence_cons,
    bodyEvidence_of_not_isReturn (isReturn_of_mem_of_no_return hpost), verdict,
    Flow.run_append, Flow.run_append, runAll_returned_of_no_return post hpost]
  simp [evidence, isReturn, Flow.step]

theorem verdict_iff_of_single_return {body : List Stmt} (hcount : returnCountAll body = 1) :
    verdict (bodyEvidence body) = true ↔
      ∃ pre value post, body = pre ++ ret value :: post ∧ anyHasIf post = false := by
  have hsplit {pre post : List Stmt} {value : Option Expr}
      (hbody : body = pre ++ ret value :: post) :
      verdict (bodyEvidence body) = !anyHasIf post := by
    rw [hbody, returnCountAll_append, returnCountAll, returnCount] at hcount
    rw [hbody]
    exact verdict_append_ret (by omega)
  constructor
  · intro hv
    have hdirect : ∃ s ∈ body, s.isReturn = true := by
      by_contra hnone
      have hbody : ∀ s ∈ body, s.isReturn = false := by simpa using hnone
      rw [verdict_of_not_isReturn hcount.le hbody] at hv
      cases hv
    obtain ⟨s, hs, hreturn⟩ := hdirect
    obtain ⟨pre, post, hbody⟩ := List.append_of_mem hs
    cases s with
    | ret value =>
      rw [hsplit hbody, Bool.not_eq_true'] at hv
      exact ⟨pre, value, post, hbody, hv⟩
    | _ => cases hreturn
  · rintro ⟨pre, value, post, hbody, hif⟩
    rw [hsplit hbody, hif]
    rfl

/-- On at most one return the text tells the verdict: the return has to be a statement of the body
itself, with no `if` anywhere behind it. A well-typed method with a result and a single return is
accepted then, and is refused for want of a return otherwise. One whose only return stands in a
loop, a branch or a block is thus refused, for want of a return if for nothing else. -/
theorem verdict_of_at_most_one_return (body : List Stmt) :
    (returnCountAll body = 0 → verdict (bodyEvidence body) = false) ∧
    (returnCountAll body = 1 → (verdict (bodyEvidence body) = true ↔
      ∃ pre value post, body = pre ++ ret value :: post ∧ anyHasIf post = false)) ∧
    (∀ (h : Hierarchy) (m : MethodDecl) (s : Checker), m.body = body → m.ret.isSome = true →
      returnCountAll body ≤ 1 → (∀ st ∈ body, st.isReturn = false) →
      (m.check h).outcome s ≠ .ok () ∧
      (m.PartsWellTyped h s.scope.self →
        (m.check h).outcome s = .error ⟨.missingReturn m.name, .methodDecl⟩)) ∧
    (∀ (h : Hierarchy) (m : MethodDecl) (s : Checker), m.body = body → m.ret.isSome = true →
      returnCountAll body = 1 → m.PartsWellTyped h s.scope.self →
      ((m.check h).outcome s = .ok () ↔
        ∃ pre value post, body = pre ++ ret value :: post ∧ anyHasIf post = false) ∧
      ((m.check h).outcome s = .error ⟨.missingReturn m.name, .methodDecl⟩ ↔
        ¬ ∃ pre value post, body = pre ++ ret value :: post ∧ anyHasIf post = false)) := by
  refine ⟨?_, verdict_iff_of_single_return, ?_, ?_⟩
  · intro hcount
    exact verdict_of_not_isReturn (by omega) (isReturn_of_mem_of_no_return hcount)
  · rintro h m s rfl hret hcount hdirect
    have hv : verdict (bodyEvidence m.body) = false := verdict_of_not_isReturn hcount hdirect
    constructor
    · intro hok
      obtain ⟨_, hrun⟩ := CheckM.outcome_eq_ok.mp hok
      obtain ⟨hm, -⟩ := MethodDecl.check_eq_ok_iff.mp hrun
      rw [hm.returns hret] at hv
      cases hv
    · intro hm
      rw [MethodDecl.outcome_of_partsWellTyped hm, hret, hv]
      rfl
  · rintro h m s rfl hret hcount hm
    rw [MethodDecl.outcome_of_partsWellTyped hm, hret, ← verdict_iff_of_single_return hcount]
    cases verdict (bodyEvidence m.body) <;> simp

/-- The only return stands in a block in a branch in a loop. -/
def seek : MethodDecl :=
  { name := "seek", params := [⟨.bool, "go"⟩], ret := some .int
    body := [.while (.var "go") (.ifThen (.var "go") (.block [.ret (some (.int 1))])),
      .print none] }

theorem seek_partsWellTyped : seek.PartsWellTyped {} none :=
  MethodDecl.partsWellTyped_of_runs (s := {}) rfl rfl rfl

/-- The only return stands between an `if` and a loop. -/
def conclude : MethodDecl :=
  { name := "conclude", params := [⟨.bool, "go"⟩], ret := some .int
    body := [.ifThen (.var "go") (.print none)] ++ .ret (some (.int 1)) ::
      [.while (.var "go") (.print none)] }

theorem conclude_partsWellTyped : conclude.PartsWellTyped {} none :=
  MethodDecl.partsWellTyped_of_runs (s := {}) rfl rfl rfl

theorem seek_verdict :
    (returnCountAll seek.body = 1 ∧ verdict (bodyEvidence seek.body) = false ∧
      (seek.check {}).outcome {} = .error ⟨.missingReturn "seek", .methodDecl⟩) ∧
    (returnCountAll conclude.body = 1 ∧ verdict (bodyEvidence conclude.body) = true ∧
      (conclude.check {}).outcome {} = .ok ()) := by
  constructor
  · obtain ⟨-, hsingle, hrefused, -⟩ := verdict_of_at_most_one_return seek.body
    refine ⟨rfl, ?_, (hrefused {} seek {} rfl rfl (by decide) (by decide)).2 seek_partsWellTyped⟩
    rw [Bool.eq_false_iff, ne_eq, hsingle rfl]
    rintro ⟨pre, value, post, hbody, -⟩
    have hmem : ret value ∈ seek.body := by simp [hbody]
    simp [seek] at hmem
  · obtain ⟨-, hsingle, -, haccepted⟩ := verdict_of_at_most_one_return conclude.body
    have hdirect : ∃ pre value post, conclude.body = pre ++ ret value :: post ∧
        anyHasIf post = false := ⟨_, _, _, rfl, rfl⟩
    exact ⟨rfl, (hsingle rfl).mpr hdirect,
      (haccepted {} conclude {} rfl rfl rfl conclude_partsWellTyped).1.mpr hdirect⟩

end Stmt
end ClassLang
