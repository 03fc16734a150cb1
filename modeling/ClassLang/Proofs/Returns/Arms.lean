import ClassLang.Proofs.Returns.Fold
import ClassLang.Returns.Trace

/-! # Arms in the order of the text

The evidence of a statement comes from the branches of its ifs and the bodies of its loops, taken in
the order of the text. Whether they make a verdict can be told from these, without the evidence: by
what stands directly in each of them and by their order. -/

namespace ClassLang

/-- A branch of an `if`, or the body of a loop. -/
inductive Arm where
  | thn (b : Stmt)
  | els (b : Stmt)
  | loop (b : Stmt)

namespace Stmt

def returnsDirectly (s : Stmt) : Bool :=
  s.direct.any isReturn

mutual
/-- The arms in the statement, however deep, in the order of the text. -/
def arms : Stmt → List Arm
  | block body => armsAll body
  | ifThen _ thn => .thn thn :: thn.arms
  | ifElse _ thn els => .thn thn :: thn.arms ++ .els els :: els.arms
  | .while _ body => .loop body :: body.arms
  | assign .. | call .. | print _ | ret _ => []

def armsAll : List Stmt → List Arm
  | [] => []
  | s :: ss => s.arms ++ armsAll ss
end

end Stmt

namespace Arm

/-- A branch that leaves it to an `if` that stands directly in it. -/
def nests : Arm → Bool
  | thn b | els b => !b.returnsDirectly && b.direct.any Stmt.isIf
  | loop _ => false

/-- A branch that falls through, or a loop that returns. -/
def revokes : Arm → Bool
  | thn b | els b => !b.returnsDirectly && !b.direct.any Stmt.isIf
  | loop b => b.returnsDirectly

def returnsInThen : Arm → Bool
  | thn b => b.returnsDirectly
  | els _ | loop _ => false

def returnsInElse : Arm → Bool
  | els b => b.returnsDirectly
  | thn _ | loop _ => false

/-- Of the branches that return, the last one is a then-branch. -/
def lastReturnsInThen (arms : List Arm) : Bool :=
  (arms.filter fun a => a.returnsInThen || a.returnsInElse).getLast?.any returnsInThen

/-- The arms leave an `if` open, which an else-branch that returns will close. -/
inductive LeavesOpen (arms : List Arm) : Prop
  /-- No branch is nested, and the last one to return is a then-branch. -/
  | flat (hflat : ∀ a ∈ arms, a.nests = false) (hlast : lastReturnsInThen arms = true) :
      LeavesOpen arms
  /-- The number of else-branches that return behind the first nested branch is odd, where one more
  is counted if the last branch to return before it is a then-branch. -/
  | paired {early late : List Arm} {a : Arm} (hsplit : arms = early ++ a :: late)
      (hearly : ∀ b ∈ early, b.nests = false) (ha : a.nests = true)
      (hodd : Odd ((lastReturnsInThen early).toNat + late.countP returnsInElse)) : LeavesOpen arms

/-- Some else-branch that returns directly closes an `if` that the arms before it have left open,
and none of the arms behind it takes this back. -/
inductive Conclusive (arms : List Arm) : Prop
  | intro {early late : List Arm} {b : Stmt} (hsplit : arms = early ++ .els b :: late)
      (hb : b.returnsDirectly = true) (hopen : LeavesOpen early)
      (hlate : ∀ a ∈ late, a.revokes = false) : Conclusive arms

/-! ## Evidence -/

def evidence : Arm → List Evidence
  | thn b => [b.thenEvidence]
  | els b => [b.elseEvidence]
  | loop b => b.loopEvidence

end Arm

namespace Stmt

theorem thenEvidence_eq (s : Stmt) :
    s.thenEvidence = if s.returnsDirectly then .thenBranch true
      else if s.direct.any isIf then .nestedThen else .thenBranch false := by
  unfold thenEvidence branchShape returnsDirectly
  split_ifs <;> rfl

theorem elseEvidence_eq (s : Stmt) :
    s.elseEvidence = if s.returnsDirectly then .elseBranch true
      else if s.direct.any isIf then .nestedElse else .elseBranch false := by
  unfold elseEvidence branchShape returnsDirectly
  split_ifs <;> rfl

theorem eq_loop_of_mem_loopEvidence {s : Stmt} {e : Evidence} (he : e ∈ s.loopEvidence) :
    e = .loop true := by
  obtain ⟨_, _, rfl⟩ := List.mem_map.mp he
  rfl

mutual
theorem evidence_eq_arms : ∀ s : Stmt, s.evidence = s.arms.flatMap Arm.evidence
  | block body => evidenceAll_eq_arms body
  | ifThen cond thn => by
    rw [evidence, arms, List.flatMap_cons, evidence_eq_arms thn]
    rfl
  | ifElse cond thn els => by
    rw [evidence, arms, List.flatMap_append, List.flatMap_cons, List.flatMap_cons,
      evidence_eq_arms thn, evidence_eq_arms els]
    rfl
  | .while cond body => by
    rw [evidence, arms, List.flatMap_cons, evidence_eq_arms body]
    rfl
  | assign .. | call .. | print _ | ret _ => rfl

theorem evidenceAll_eq_arms : ∀ ss : List Stmt, evidenceAll ss = (armsAll ss).flatMap Arm.evidence
  | [] => rfl
  | s :: ss => by
    rw [evidenceAll, armsAll, List.flatMap_append, evidence_eq_arms s, evidenceAll_eq_arms ss]
end

end Stmt

namespace Arm

theorem any_nests_evidence (a : Arm) : a.evidence.any Evidence.nests = a.nests := by
  cases a with
  | thn b =>
    rw [evidence, nests, Stmt.thenEvidence_eq]
    cases b.returnsDirectly <;> cases b.direct.any Stmt.isIf <;> rfl
  | els b =>
    rw [evidence, nests, Stmt.elseEvidence_eq]
    cases b.returnsDirectly <;> cases b.direct.any Stmt.isIf <;> rfl
  | loop b =>
    rw [nests, List.any_eq_false]
    intro e he
    rw [Stmt.eq_loop_of_mem_loopEvidence he]
    exact Bool.false_ne_true

/-- The branches that return directly can be told by their evidence. -/
theorem filter_evidence (a : Arm) :
    a.evidence.filter Evidence.branchReturns =
      if a.returnsInThen then [.thenBranch true]
      else if a.returnsInElse then [.elseBranch true] else [] := by
  cases a with
  | thn b =>
    rw [evidence, returnsInThen, returnsInElse, Stmt.thenEvidence_eq]
    cases b.returnsDirectly <;> cases b.direct.any Stmt.isIf <;> rfl
  | els b =>
    rw [evidence, returnsInThen, returnsInElse, Stmt.elseEvidence_eq]
    cases b.returnsDirectly <;> cases b.direct.any Stmt.isIf <;> rfl
  | loop b =>
    apply List.filter_eq_nil_iff.mpr
    intro e he
    rw [Stmt.eq_loop_of_mem_loopEvidence he]
    exact Bool.false_ne_true

theorem not_nests_of_mem_flatMap {arms : List Arm} (harms : ∀ a ∈ arms, a.nests = false) :
    ∀ e ∈ arms.flatMap evidence, e.nests = false := by
  intro e he
  obtain ⟨a, ha, hea⟩ := List.mem_flatMap.mp he
  have hnone := any_nests_evidence a
  rw [harms a ha, List.any_eq_false] at hnone
  simpa using hnone e hea

section Lists

variable (arms : List Arm)

theorem count_flatMap_evidence :
    (arms.flatMap evidence).count (.elseBranch true) = arms.countP returnsInElse := by
  have hcount (a : Arm) : a.evidence.count (.elseBranch true) = a.returnsInElse.toNat := by
    have hreturns : Evidence.branchReturns (.elseBranch true) = true := rfl
    rw [← List.count_filter hreturns, filter_evidence]
    cases a with
    | thn b | els b => cases hb : b.returnsDirectly <;> simp [returnsInThen, returnsInElse, hb]
    | loop b => rfl
  induction arms with
  | nil => rfl
  | cons a arms ih =>
    rw [List.flatMap_cons, List.count_append, ih, hcount, List.countP_cons, Nat.add_comm]
    cases a.returnsInElse <;> rfl

theorem lastReturnsInThen_concat (a : Arm) :
    lastReturnsInThen (arms ++ [a]) =
      if a.returnsInThen then true
      else if a.returnsInElse then false else lastReturnsInThen arms := by
  unfold lastReturnsInThen
  cases hthen : a.returnsInThen <;> cases helse : a.returnsInElse <;>
    simp [List.filter_append, hthen, helse]

theorem lastReturnsInThen_flatMap :
    Evidence.lastReturnsInThen (arms.flatMap evidence) = lastReturnsInThen arms := by
  -- The last arm decides, so the arms are taken apart from their end.
  induction arms using List.reverseRecOn with
  | nil => rfl
  | append_singleton arms a ih =>
    rw [lastReturnsInThen_concat, ← ih]
    simp only [Evidence.lastReturnsInThen, List.flatMap_append, List.flatMap_singleton,
      List.filter_append, filter_evidence]
    cases a.returnsInThen <;> cases a.returnsInElse <;> simp

end Lists

theorem exists_evidence_of_nests {a : Arm} (ha : a.nests = true) :
    ∃ e, a.evidence = [e] ∧ e.nests = true := by
  rw [← any_nests_evidence] at ha
  cases a with
  | thn b | els b => exact ⟨_, rfl, by simpa [evidence] using ha⟩
  | loop b =>
    rw [any_nests_evidence] at ha
    cases ha

/-! ## The fold over the arms -/

theorem run_awaitsElse_of_split {early late : List Arm} {a : Arm}
    (hearly : ∀ b ∈ early, b.nests = false) (ha : a.nests = true) :
    (Flow.run {} ((early ++ a :: late).flatMap evidence)).awaitsElse = true ↔
      Odd ((lastReturnsInThen early).toNat + late.countP returnsInElse) := by
  obtain ⟨e, hevidence, he⟩ := exists_evidence_of_nests ha
  rw [List.flatMap_append, List.flatMap_cons, hevidence, List.singleton_append,
    Flow.run_awaitsElse_of_split (not_nests_of_mem_flatMap hearly) he, lastReturnsInThen_flatMap,
    count_flatMap_evidence]

theorem run_awaitsElse_iff {arms : List Arm} :
    (Flow.run {} (arms.flatMap evidence)).awaitsElse = true ↔ LeavesOpen arms := by
  have hrun (hflat : ∀ a ∈ arms, a.nests = false) :
      (Flow.run {} (arms.flatMap evidence)).awaitsElse = lastReturnsInThen arms := by
    rw [Flow.run_awaitsElse_of_flat (not_nests_of_mem_flatMap hflat), lastReturnsInThen_flatMap]
  constructor
  · intro hwaits
    cases hfirst : arms.find? nests with
    | none =>
      have hflat : ∀ a ∈ arms, a.nests = false := by simpa using hfirst
      exact .flat hflat ((hrun hflat).symm.trans hwaits)
    | some a =>
      obtain ⟨ha, early, late, rfl, hbefore⟩ := List.find?_eq_some_iff_append.mp hfirst
      have hearly : ∀ b ∈ early, b.nests = false := by simpa using hbefore
      exact .paired rfl hearly ha ((run_awaitsElse_of_split hearly ha).mp hwaits)
  · rintro (⟨hflat, hlast⟩ | ⟨rfl, hearly, ha, hodd⟩)
    · exact (hrun hflat).trans hlast
    · exact (run_awaitsElse_of_split hearly ha).mpr hodd

theorem run_loopEvidence_returned (f : Flow) (b : Stmt) :
    (f.run b.loopEvidence).returned = (f.returned && !b.returnsDirectly) := by
  rw [Stmt.loopEvidence, Stmt.returnsDirectly]
  induction b.direct generalizing f with
  | nil => simp
  | cons s ss ih =>
    cases hs : s.isReturn with
    | false =>
      rw [List.filter_cons_of_neg (by simp [hs]), ih, List.any_cons, hs, Bool.false_or]
    | true =>
      rw [List.filter_cons_of_pos hs, List.map_cons, Flow.run_cons, ih, List.any_cons, hs]
      simp [Flow.step]

/-- What one arm does to the verdict. -/
theorem run_evidence_returned (f : Flow) (a : Arm) :
    (f.run a.evidence).returned =
      ((a.returnsInElse && f.awaitsElse) || (f.returned && !a.revokes)) := by
  cases a with
  | thn b =>
    rw [evidence, Flow.run_cons, Flow.run_nil, Flow.step_returned, Stmt.thenEvidence_eq,
      returnsInElse, revokes]
    cases b.returnsDirectly <;> cases b.direct.any Stmt.isIf <;> rfl
  | els b =>
    rw [evidence, Flow.run_cons, Flow.run_nil, Flow.step_returned, Stmt.elseEvidence_eq,
      returnsInElse, revokes]
    cases b.returnsDirectly <;> cases b.direct.any Stmt.isIf <;> rfl
  | loop b =>
    rw [evidence, run_loopEvidence_returned, returnsInElse, revokes, Bool.false_and, Bool.false_or]

/-- The last arm is the else-branch in question, or it stands behind it. -/
theorem conclusive_concat_iff {arms : List Arm} {a : Arm} :
    Conclusive (arms ++ [a]) ↔
      (a.returnsInElse = true ∧ LeavesOpen arms) ∨ (Conclusive arms ∧ a.revokes = false) := by
  constructor
  · rintro @⟨early, late, b, hsplit, hb, hopen, hlate⟩
    rcases late.eq_nil_or_concat with rfl | ⟨late, last, rfl⟩
    · obtain ⟨rfl, ha⟩ := List.append_inj' hsplit rfl
      cases ha
      exact .inl ⟨hb, hopen⟩
    · rw [List.concat_eq_append] at hsplit hlate
      rw [← List.cons_append, ← List.append_assoc] at hsplit
      obtain ⟨rfl, ha⟩ := List.append_inj' hsplit rfl
      cases ha
      obtain ⟨hlate, ha⟩ := List.forall_mem_append.mp hlate
      exact .inr ⟨.intro rfl hb hopen hlate, ha a List.mem_cons_self⟩
  · rintro (⟨ha, hopen⟩ | ⟨⟨rfl, hb, hopen, hlate⟩, ha⟩)
    · cases a with
      | els b => exact .intro rfl ha hopen (by simp)
      | _ => cases ha
    · rw [List.append_assoc, List.cons_append]
      refine .intro rfl hb hopen (List.forall_mem_append.mpr ⟨hlate, ?_⟩)
      simpa using ha

theorem verdict_iff_conclusive (arms : List Arm) :
    verdict (arms.flatMap evidence) = true ↔ Conclusive arms := by
  induction arms using List.reverseRecOn with
  | nil =>
    constructor
    · intro hv
      cases hv
    · rintro ⟨hsplit, -, -, -⟩
      simp at hsplit
  | append_singleton arms a ih =>
    rw [conclusive_concat_iff, ← ih, ← run_awaitsElse_iff, verdict, verdict, List.flatMap_append,
      List.flatMap_singleton, Flow.run_append, run_evidence_returned]
    simp

end Arm
end ClassLang
