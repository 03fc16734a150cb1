import ClassLang.Proofs.Returns.Soundness

/-! # Neutral statements

Statements without an `if` and without a return, whatever loops and blocks they are made of. They
leave no evidence. -/

namespace ClassLang.Stmt

mutual
/-- An `if` stands in the statement, however deep. -/
def hasIf : Stmt → Bool
  | ifThen .. | ifElse .. => true
  | block body => anyHasIf body
  | .while _ body => body.hasIf
  | assign .. | call .. | print _ | ret _ => false

def anyHasIf : List Stmt → Bool
  | [] => false
  | s :: ss => s.hasIf || anyHasIf ss
end

theorem hasIf_of_isIf {s : Stmt} (hs : s.isIf = true) : s.hasIf = true := by
  cases s with
  | ifThen _ _ => rfl
  | ifElse _ _ _ => rfl
  | _ => cases hs

theorem anyHasIf_eq_any (ss : List Stmt) : anyHasIf ss = ss.any hasIf := by
  induction ss with
  | nil => rfl
  | cons s ss ih => simp [anyHasIf, ih]

/-- Neither an `if` nor a return stands in the statement, however deep. -/
def neutral (s : Stmt) : Bool :=
  !s.hasIf && !s.hasReturn

theorem neutral_iff {s : Stmt} : s.neutral = true ↔ s.hasIf = false ∧ s.hasReturn = false := by
  simp [neutral]

theorem not_isIf_of_neutral {s : Stmt} (hs : s.neutral = true) : s.isIf = false := by
  rw [Bool.eq_false_iff]
  intro hif
  simp [neutral, hasIf_of_isIf hif] at hs

theorem not_isReturn_of_neutral {s : Stmt} (hs : s.neutral = true) : s.isReturn = false := by
  cases s with
  | ret _ => simp [neutral, hasReturn] at hs
  | _ => rfl

theorem returnsDirectly_of_not_hasReturn {s : Stmt} (hs : s.hasReturn = false) :
    s.returnsDirectly = false := by
  rw [Bool.eq_false_iff]
  intro hdirect
  rw [hasReturn_of_definitelyReturns s (definitelyReturns_of_returnsDirectly hdirect)] at hs
  cases hs

theorem loopEvidence_of_not_returnsDirectly {s : Stmt} (hs : s.returnsDirectly = false) :
    s.loopEvidence = [] := by
  rw [returnsDirectly, List.any_eq_false] at hs
  rw [loopEvidence, List.filter_eq_nil_iff.mpr hs, List.map_nil]

mutual
theorem evidence_eq_nil : ∀ s : Stmt, s.hasIf = false → s.hasReturn = false → s.evidence = []
  | block body, hif, hret => evidenceAll_eq_nil body hif hret
  | assign .., _, _ | call .., _, _ | print _, _, _ => rfl
  | .while cond body, hif, hret => by
    rw [hasReturn] at hret
    rw [evidence, loopEvidence_of_not_returnsDirectly (returnsDirectly_of_not_hasReturn hret),
      evidence_eq_nil body hif hret, List.append_nil]

theorem evidenceAll_eq_nil : ∀ ss : List Stmt, anyHasIf ss = false → anyHasReturn ss = false →
    evidenceAll ss = []
  | [], _, _ => rfl
  | s :: ss, hif, hret => by
    rw [anyHasIf, Bool.or_eq_false_iff] at hif
    rw [anyHasReturn, Bool.or_eq_false_iff] at hret
    rw [evidenceAll, evidence_eq_nil s hif.1 hret.1, evidenceAll_eq_nil ss hif.2 hret.2,
      List.append_nil]
end

theorem evidence_of_neutral {s : Stmt} (hs : s.neutral = true) : s.evidence = [] :=
  evidence_eq_nil s (neutral_iff.mp hs).1 (neutral_iff.mp hs).2

end ClassLang.Stmt
