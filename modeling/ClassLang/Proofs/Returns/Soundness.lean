import ClassLang.Proofs.Checker.Acceptance
import ClassLang.Proofs.Returns.Arms
import ClassLang.Proofs.Returns.Paths
import ClassLang.Proofs.Stmt.Frame

/-! # What a verdict on returning is worth

The fold over the evidence of a method forgets which `if` a branch belongs to and whether it stands
in a loop. An accepted method with a result can still return, and it definitely does unless the fold
has taken an else-branch of its text for the end of a returning `if`. -/

namespace ClassLang

namespace Stmt

theorem definitelyReturns_of_returnsDirectly {s : Stmt} (hs : s.returnsDirectly = true) :
    s.definitelyReturns = true := by
  have hret {r : Stmt} (hr : r.isReturn = true) : r.definitelyReturns = true := by
    cases r with
    | ret _ => rfl
    | _ => cases hr
  cases s with
  | block body =>
    obtain ⟨r, hr, hreturn⟩ := List.any_eq_true.mp hs
    rw [definitelyReturns, anyDefinitelyReturns_eq_any, List.any_eq_true]
    exact ⟨r, hr, hret hreturn⟩
  | ret _ => rfl
  | _ => simp [returnsDirectly, direct, isReturn] at hs

mutual
theorem hasReturn_of_definitelyReturns : ∀ (s : Stmt), s.definitelyReturns = true →
    s.hasReturn = true
  | ret _, _ => rfl
  | block body, hs => anyHasReturn_of_anyDefinitelyReturns body hs
  | ifElse _ thn els, hs => by
    rw [definitelyReturns, Bool.and_eq_true] at hs
    rw [hasReturn, hasReturn_of_definitelyReturns thn hs.1, Bool.true_or]

theorem anyHasReturn_of_anyDefinitelyReturns : ∀ (ss : List Stmt),
    anyDefinitelyReturns ss = true → anyHasReturn ss = true
  | s :: ss, hs => by
    rw [anyDefinitelyReturns, Bool.or_eq_true] at hs
    rw [anyHasReturn, Bool.or_eq_true]
    exact hs.imp (hasReturn_of_definitelyReturns s) (anyHasReturn_of_anyDefinitelyReturns ss)
end

mutual
theorem hasReturn_of_mem_arms : ∀ (s : Stmt) {b : Stmt}, .els b ∈ s.arms → b.hasReturn = true →
    s.hasReturn = true
  | block body, _, hmem, hb => anyHasReturn_of_mem_armsAll body hmem hb
  | ifThen _ thn, _, hmem, hb => by
    simp only [arms, List.mem_cons, reduceCtorEq, false_or] at hmem
    exact hasReturn_of_mem_arms thn hmem hb
  | ifElse _ thn els, b, hmem, hb => by
    simp only [arms, List.mem_append, List.mem_cons, reduceCtorEq, false_or, Arm.els.injEq] at hmem
    rw [hasReturn, Bool.or_eq_true]
    rcases hmem with hmem | rfl | hmem
    · exact .inl (hasReturn_of_mem_arms thn hmem hb)
    · exact .inr hb
    · exact .inr (hasReturn_of_mem_arms els hmem hb)
  | .while _ body, _, hmem, hb => by
    simp only [arms, List.mem_cons, reduceCtorEq, false_or] at hmem
    exact hasReturn_of_mem_arms body hmem hb

theorem anyHasReturn_of_mem_armsAll : ∀ (ss : List Stmt) {b : Stmt}, .els b ∈ armsAll ss →
    b.hasReturn = true → anyHasReturn ss = true
  | s :: ss, _, hmem, hb => by
    rw [armsAll, List.mem_append] at hmem
    rw [anyHasReturn, Bool.or_eq_true]
    exact hmem.imp (hasReturn_of_mem_arms s · hb) (anyHasReturn_of_mem_armsAll ss · hb)
end

/-- Only the returns of the body itself leave evidence besides that of its statements. -/
theorem bodyEvidence_of_not_isReturn {body : List Stmt} (hbody : ∀ s ∈ body, s.isReturn = false) :
    bodyEvidence body = evidenceAll body := by
  rw [bodyEvidence, evidenceAll_eq_flatMap]
  apply List.flatMap_congr
  intro s hs
  rw [hbody s hs, if_neg Bool.false_ne_true, List.append_nil]

theorem bodyEvidence_of_not_definitelyReturns {body : List Stmt}
    (hd : anyDefinitelyReturns body = false) : bodyEvidence body = evidenceAll body := by
  rw [anyDefinitelyReturns_eq_any, List.any_eq_false] at hd
  apply bodyEvidence_of_not_isReturn
  intro s hs
  cases s with
  | ret value => exact (hd _ hs rfl).elim
  | _ => rfl

/-- The body may fall off its end, though its arms are conclusive. -/
structure Misread (body : List Stmt) : Prop where
  fallsOff : anyDefinitelyReturns body = false
  conclusive : Arm.Conclusive (armsAll body)

theorem verdict_iff_of_not_definitelyReturns {body : List Stmt}
    (hd : anyDefinitelyReturns body = false) :
    verdict (bodyEvidence body) = true ↔ Misread body := by
  rw [bodyEvidence_of_not_definitelyReturns hd, evidenceAll_eq_arms, Arm.verdict_iff_conclusive]
  exact ⟨fun hall => ⟨hd, hall⟩, Misread.conclusive⟩

/-- A verdict is never raised by a body without a return. -/
theorem anyHasReturn_of_verdict {body : List Stmt} (hv : verdict (bodyEvidence body) = true) :
    anyHasReturn body = true := by
  cases hd : anyDefinitelyReturns body with
  | true => exact anyHasReturn_of_anyDefinitelyReturns body hd
  | false =>
    obtain ⟨-, ⟨harms, hb, -, -⟩⟩ := (verdict_iff_of_not_definitelyReturns hd).mp hv
    apply anyHasReturn_of_mem_armsAll body (harms ▸ List.mem_append_right _ List.mem_cons_self)
    exact hasReturn_of_definitelyReturns _ (definitelyReturns_of_returnsDirectly hb)

end Stmt

namespace Program

/-- An accepted method with a result returns on some path, and on every path unless it is misread.
That exception is exact: of the well-typed methods that need not return, those that are misread are
accepted and all others are refused for want of a return. -/
theorem returns_or_misread_of_check :
    (∀ p : Program, p.check = .ok () → ∀ c ∈ p.classes, ∀ m ∈ c.methods, m.ret.isSome = true →
      Leaves m.body .returned ∧
        (Stmt.anyDefinitelyReturns m.body = true ∧ ¬ Leaves m.body .fellOff ∨
          Stmt.Misread m.body)) ∧
    ∀ (h : Hierarchy) (m : MethodDecl) (s : Checker), m.ret.isSome = true →
      m.PartsWellTyped h s.scope.self → Stmt.anyDefinitelyReturns m.body = false →
      ((m.check h).outcome s = .ok () ↔ Stmt.Misread m.body) ∧
      ((m.check h).outcome s = .error ⟨.missingReturn m.name, .methodDecl⟩ ↔
        ¬ Stmt.Misread m.body) := by
  constructor
  · intro p hp c hc m hm hret
    obtain ⟨h, _, hclasses⟩ := check_eq_ok_iff.mp hp
    have hv := ((hclasses c hc).methods m hm).returns hret
    have hpath := Stmt.leaves_returned_of_anyHasReturn m.body (Stmt.anyHasReturn_of_verdict hv) []
    rw [List.append_nil] at hpath
    refine ⟨hpath, ?_⟩
    cases hd : Stmt.anyDefinitelyReturns m.body with
    | true => exact .inl ⟨rfl, Stmt.anyDefinitelyReturns_iff.mp hd⟩
    | false => exact .inr ((Stmt.verdict_iff_of_not_definitelyReturns hd).mp hv)
  · intro h m s hret hm hd
    rw [MethodDecl.outcome_of_partsWellTyped hm, hret,
      ← Stmt.verdict_iff_of_not_definitelyReturns hd]
    cases verdict (bodyEvidence m.body) <;> simp

/-- A program of one method with this body, of two flags and an integer result. -/
def ofBody (body : List Stmt) : Program :=
  ⟨[{ name := "A"
      methods := [{ name := "m", params := [⟨.bool, "a"⟩, ⟨.bool, "b"⟩], ret := some .int
                    body }] }]⟩

/-- An early return, and a tree of ifs that returns in every leaf. -/
def treeBody : List Stmt :=
  [.ifThen (.var "a") (.ret (some (.int 0))),
    .ifElse (.var "b") (.block [.ifElse (.var "a") (.ret (some (.int 1))) (.ret (some (.int 2)))])
      (.ret (some (.int 3)))]

def pendingBody : List Stmt :=
  [.ifThen (.var "a") (.ret (some (.int 1))),
    .ifElse (.var "b") (.print none) (.ret (some (.int 2)))]

def nestedBody : List Stmt :=
  [.ifElse (.var "a") (.ifElse (.var "b") (.print none) (.ret (some (.int 1))))
    (.ret (some (.int 2)))]

def guardBody : List Stmt :=
  [.ifThen (.var "a") (.ifThen (.var "b") (.ret (some (.int 1))))]

def chainBody : List Stmt :=
  [.ifElse (.var "a") (.ret (some (.int 1)))
    (.ifElse (.var "b") (.ret (some (.int 2))) (.print none))]

/-- The method of `ofBody` alone. -/
def twoFlags (body : List Stmt) : MethodDecl :=
  { name := "m", params := [⟨.bool, "a"⟩, ⟨.bool, "b"⟩], ret := some .int, body }

/-- The early return is waiting for an else-branch, and is given that of the `if` behind it. -/
theorem pendingBody_misread : Stmt.Misread pendingBody := by
  have harms : Stmt.armsAll pendingBody =
      [.thn (.ret (some (.int 1))), .thn (.print none)] ++ .els (.ret (some (.int 2))) :: [] := rfl
  exact ⟨rfl, .intro harms rfl (.flat (by decide) rfl) (by simp)⟩

/-- Behind the nested branch the two else-branches make up a pair. -/
theorem nestedBody_misread : Stmt.Misread nestedBody := by
  have harms : Stmt.armsAll nestedBody =
      ([] ++ .thn (.ifElse (.var "b") (.print none) (.ret (some (.int 1)))) ::
        [.thn (.print none), .els (.ret (some (.int 1)))]) ++ .els (.ret (some (.int 2))) :: [] :=
    rfl
  exact ⟨rfl, .intro harms rfl (.paired rfl (by simp) rfl (by decide)) (by simp)⟩

/-- There is no else-branch. -/
theorem guardBody_not_misread : ¬ Stmt.Misread guardBody := by
  rintro ⟨-, @⟨early, late, b, harms, -, -, -⟩⟩
  have hmem : Arm.els b ∈ Stmt.armsAll guardBody := by simp [harms]
  simp [guardBody, Stmt.armsAll, Stmt.arms] at hmem

/-- Neither of the two else-branches returns directly. -/
theorem chainBody_not_misread : ¬ Stmt.Misread chainBody := by
  rintro ⟨-, @⟨early, late, b, harms, hb, -, -⟩⟩
  have hmem : Arm.els b ∈ Stmt.armsAll chainBody := by simp [harms]
  simp only [chainBody, Stmt.armsAll, Stmt.arms, List.mem_append, List.mem_cons, List.not_mem_nil,
    reduceCtorEq, Arm.els.injEq, false_or, or_false] at hmem
  rcases hmem with rfl | rfl <;> cases hb

theorem twoFlags_returns_or_misread :
    ((ofBody treeBody).check = .ok () ∧ ¬ Leaves treeBody .fellOff) ∧
    ((twoFlags pendingBody).check {}).outcome {} = .ok () ∧
    ((twoFlags nestedBody).check {}).outcome {} = .ok () ∧
    ((twoFlags guardBody).check {}).outcome {} = .error ⟨.missingReturn "m", .methodDecl⟩ ∧
    ((twoFlags chainBody).check {}).outcome {} = .error ⟨.missingReturn "m", .methodDecl⟩ := by
  obtain ⟨hsound, hexact⟩ := returns_or_misread_of_check
  have htree : (ofBody treeBody).check = .ok () := by decide +kernel
  refine ⟨⟨htree, ?_⟩, ?_, ?_, ?_, ?_⟩
  · obtain ⟨-, ⟨-, hreturns⟩ | hmisread⟩ :=
      hsound _ htree _ List.mem_cons_self _ List.mem_cons_self rfl
    · exact hreturns
    · cases hmisread.fallsOff
  · exact (hexact {} (twoFlags pendingBody) {} rfl
      (MethodDecl.partsWellTyped_of_runs (s := {}) rfl rfl rfl) rfl).1.mpr pendingBody_misread
  · exact (hexact {} (twoFlags nestedBody) {} rfl
      (MethodDecl.partsWellTyped_of_runs (s := {}) rfl rfl rfl) rfl).1.mpr nestedBody_misread
  · exact (hexact {} (twoFlags guardBody) {} rfl
      (MethodDecl.partsWellTyped_of_runs (s := {}) rfl rfl rfl) rfl).2.mpr guardBody_not_misread
  · exact (hexact {} (twoFlags chainBody) {} rfl
      (MethodDecl.partsWellTyped_of_runs (s := {}) rfl rfl rfl) rfl).2.mpr chainBody_not_misread

def loopBody : List Stmt :=
  [.while (.var "a") (.ifElse (.var "b") (.ret (some (.int 1))) (.ret (some (.int 2))))]

/-- A method with a result does not definitely return, and has a path to its end. -/
def MayFallOff (p : Program) : Prop :=
  ∃ c ∈ p.classes, ∃ m ∈ c.methods, m.ret.isSome = true ∧
    Stmt.anyDefinitelyReturns m.body = false ∧ Leaves m.body .fellOff

theorem mayFallOff_ofBody {body : List Stmt} (hd : Stmt.anyDefinitelyReturns body = false) :
    (ofBody body).MayFallOff :=
  ⟨_, List.mem_cons_self, _, List.mem_cons_self, rfl, hd,
    Stmt.leaves_fellOff_of_not_definitelyReturns hd⟩

/-- Each of these is misread and passes the check: an `if` in a branch, an `if` in a loop, and an
early return before an `if` that returns in its else-branch only. -/
theorem accepted_mayFallOff :
    ((ofBody nestedBody).check = .ok () ∧ (ofBody nestedBody).MayFallOff) ∧
    ((ofBody loopBody).check = .ok () ∧ (ofBody loopBody).MayFallOff) ∧
    ((ofBody pendingBody).check = .ok () ∧ (ofBody pendingBody).MayFallOff) :=
  ⟨⟨by decide +kernel, mayFallOff_ofBody rfl⟩, ⟨by decide +kernel, mayFallOff_ofBody rfl⟩,
    ⟨by decide +kernel, mayFallOff_ofBody rfl⟩⟩

end Program
end ClassLang
