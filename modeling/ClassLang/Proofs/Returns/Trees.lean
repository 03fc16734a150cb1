import ClassLang.Proofs.Returns.Neutral
import ClassLang.Proofs.Stmt.Frame

/-! # Trees of ifs that return in every leaf

An `if` with an else-branch returns if both branches do, and so on down to the leaves. The fold
does not see the tree: it takes the returning else-branches in pairs once it has met a nested
branch. Such a tree has one of them in every `if` that has no other inside, so there are enough of
them for a pair, or the first `if` has returned before any branch was nested. -/

namespace ClassLang

/-! ## Evidence of trees -/

/-- The evidence that never takes a verdict back, and that comes from branches. -/
def Evidence.affirms : Evidence → Bool
  | .thenBranch true | .elseBranch true | .nestedThen | .nestedElse => true
  | _ => false

theorem Evidence.not_revokes_of_affirms {e : Evidence} (he : e.affirms = true) :
    e.revokes = false := by
  cases e with
  | thenBranch returns | elseBranch returns =>
    cases returns with
    | false => cases he
    | true => rfl
  | nestedThen | nestedElse => rfl
  | _ => cases he

/-- Evidence of branches that all return, and with an else-branch among them. -/
structure Affirming (es : List Evidence) : Prop where
  all : ∀ e ∈ es, e.affirms = true
  closes : 1 ≤ es.count (.elseBranch true)

namespace Flow

variable {f : Flow} {es : List Evidence}

theorem run_returned_of_affirms (hes : ∀ e ∈ es, e.affirms = true) (hf : f.returned = true) :
    (f.run es).returned = true := by
  rw [run_returned_iff]
  exact .inl ⟨hf, fun e he => Evidence.not_revokes_of_affirms (hes e he)⟩

/-- Past a nested branch every second else-branch that returns makes a verdict. -/
theorem run_returned_of_two_le (hf : f.nested = true) (hes : ∀ e ∈ es, e.affirms = true)
    (hle : 2 ≤ f.awaitsElse.toNat + es.count (.elseBranch true)) :
    (f.run es).returned = true := by
  obtain ⟨returned, waits, _⟩ := f
  subst hf
  induction es generalizing waits with
  | nil => cases waits <;> simp at hle
  | cons e es ih =>
    rw [List.forall_mem_cons] at hes
    cases e with
    | ret | loop => cases hes.1
    | nestedThen | nestedElse => exact ih hes.2 waits (by simpa using hle)
    | thenBranch returns =>
      cases returns with
      | false => cases hes.1
      | true => exact ih hes.2 waits (by simpa using hle)
    | elseBranch returns =>
      cases returns with
      | false => cases hes.1
      | true =>
        cases waits with
        | true =>
          rw [run_cons]
          exact run_returned_of_affirms hes.2 rfl
        | false => exact ih hes.2 true (by simpa [Nat.add_comm] using hle)

end Flow

namespace Stmt

/-- What a branch that always returns looks like to a fold. -/
def Affirms (b : Stmt) : Prop :=
  b.branchShape = .returns ∧ b.evidence = [] ∨ b.branchShape = .nested ∧ Affirming b.evidence

variable {b thn els : Stmt}

theorem Affirms.asThen (hb : b.Affirms) : ∀ e ∈ b.thenEvidence :: b.evidence, e.affirms = true := by
  rw [List.forall_mem_cons, thenEvidence]
  rcases hb with ⟨hshape, hev⟩ | ⟨hshape, hev⟩
  · simp [hshape, hev, Evidence.affirms]
  · rw [hshape]
    exact ⟨rfl, hev.all⟩

theorem Affirms.asElse (hb : b.Affirms) : Affirming (b.elseEvidence :: b.evidence) := by
  rw [elseEvidence]
  rcases hb with ⟨hshape, hev⟩ | ⟨hshape, hev⟩
  · rw [hshape, hev]
    exact ⟨by simp [Evidence.affirms], by simp⟩
  · rw [hshape]
    exact ⟨List.forall_mem_cons.mpr ⟨rfl, hev.all⟩, by simpa using hev.closes⟩

theorem affirming_ifElse (hthn : thn.Affirms) (hels : els.Affirms) {cond : Expr} :
    Affirming (ifElse cond thn els).evidence := by
  rw [evidence]
  constructor
  · intro e he
    exact (List.mem_append.mp he).elim (hthn.asThen e) (hels.asElse.all e)
  · rw [List.count_append]
    exact Nat.le_add_left_of_le hels.asElse.closes

/-- The first `if` of a body makes a verdict on its own. -/
theorem run_ifElse_of_affirms (hthn : thn.Affirms) (hels : els.Affirms) {cond : Expr} {f : Flow}
    (hf : f.nested = false) : (f.run (ifElse cond thn els).evidence).returned = true := by
  obtain ⟨returned, waits, _⟩ := f
  subst hf
  have hall := hels.asElse
  rw [evidence, List.cons_append, Flow.run_cons]
  rcases hthn with ⟨hshape, hev⟩ | ⟨hshape, hev⟩
  · rw [thenEvidence, hshape, hev, List.nil_append]
    rcases hels with ⟨hshape', hev'⟩ | ⟨hshape', hev'⟩
    · rw [elseEvidence, hshape', hev']
      rfl
    · -- The then-branch has returned, so one else-branch inside is enough.
      rw [elseEvidence, hshape', Flow.run_cons]
      exact Flow.run_returned_of_two_le rfl hev'.all (Nat.add_le_add_left hev'.closes 1)
  · rw [thenEvidence, hshape]
    apply Flow.run_returned_of_two_le rfl
    · intro e he
      exact (List.mem_append.mp he).elim (hev.all e) (hall.all e)
    · rw [List.count_append]
      have hinner := hev.closes
      have houter := hall.closes
      omega

/-! ## Trees -/

/-- Neutral statements, and at least one of a kind. -/
structure AmongNeutral (kind : Stmt → Bool) (body : List Stmt) : Prop where
  all : ∀ s ∈ body, s.neutral = true ∨ kind s = true
  nonempty : ∃ s ∈ body, kind s = true

/-- A return, an `if` whose branches both return, or a block of neutral statements and either of
returns or of such ifs. -/
inductive ReturningBranch : Stmt → Prop
  | ret {value : Option Expr} : ReturningBranch (.ret value)
  | returns {body : List Stmt} (hbody : AmongNeutral isReturn body) : ReturningBranch (.block body)
  | ifElse {cond : Expr} {thn els : Stmt} (hthn : ReturningBranch thn)
      (hels : ReturningBranch els) : ReturningBranch (.ifElse cond thn els)
  | ifs {body : List Stmt} (hbody : AmongNeutral isIf body)
      (hifs : ∀ s ∈ body, s.isIf = true → ReturningBranch s) : ReturningBranch (.block body)

/-- Neutral statements and at least one `if`, all of which return in both branches. -/
structure ReturningBody (body : List Stmt) : Prop where
  among : AmongNeutral isIf body
  ifs : ∀ s ∈ body, s.isIf = true → ReturningBranch s

theorem affirming_of_isIf (hif : b.isIf = true) (hb : b.Affirms) : Affirming b.evidence := by
  rcases hb with ⟨hshape, -⟩ | ⟨-, hev⟩
  · cases b with
    | ifThen | ifElse => cases hshape
    | _ => cases hif
  · exact hev

theorem affirms_of_mem_evidenceAll {body : List Stmt}
    (hbody : ∀ s ∈ body, s.neutral = true ∨ s.isIf = true)
    (hifs : ∀ s ∈ body, s.isIf = true → s.Affirms) : ∀ e ∈ evidenceAll body, e.affirms = true := by
  intro e he
  rw [evidenceAll_eq_flatMap] at he
  obtain ⟨s, hs, hes⟩ := List.mem_flatMap.mp he
  rcases hbody s hs with hneutral | hif
  · simp [evidence_of_neutral hneutral] at hes
  · exact (affirming_of_isIf hif (hifs s hs hif)).all e hes

theorem AmongNeutral.affirming {body : List Stmt} (hbody : AmongNeutral isIf body)
    (hifs : ∀ s ∈ body, s.isIf = true → s.Affirms) : Affirming (evidenceAll body) := by
  refine ⟨affirms_of_mem_evidenceAll hbody.all hifs, ?_⟩
  obtain ⟨s, hs, hif⟩ := hbody.nonempty
  have hcloses := (affirming_of_isIf hif (hifs s hs hif)).closes
  rw [List.one_le_count_iff] at hcloses ⊢
  rw [evidenceAll_eq_flatMap]
  exact List.mem_flatMap.mpr ⟨s, hs, hcloses⟩

theorem AmongNeutral.evidenceAll_eq_nil {body : List Stmt} (hbody : AmongNeutral isReturn body) :
    evidenceAll body = [] := by
  rw [evidenceAll_eq_flatMap, List.flatMap_eq_nil_iff]
  intro s hs
  rcases hbody.all s hs with hneutral | hret
  · exact evidence_of_neutral hneutral
  · cases s with
    | ret _ => rfl
    | _ => cases hret

theorem AmongNeutral.not_isReturn {body : List Stmt} (hbody : AmongNeutral isIf body) :
    ∀ s ∈ body, s.isReturn = false := by
  intro s hs
  rcases hbody.all s hs with hneutral | hif
  · exact not_isReturn_of_neutral hneutral
  · cases s with
    | ret _ => cases hif
    | _ => rfl

theorem branchShape_of_returnsDirectly (hb : b.returnsDirectly = true) :
    b.branchShape = .returns := by
  rw [branchShape, ← returnsDirectly, hb, if_pos rfl]

theorem ReturningBranch.affirms (hb : ReturningBranch b) : b.Affirms := by
  induction hb with
  | ret => exact .inl ⟨rfl, rfl⟩
  | @returns body hbody =>
    refine .inl ⟨branchShape_of_returnsDirectly ?_, hbody.evidenceAll_eq_nil⟩
    exact List.any_eq_true.mpr hbody.nonempty
  | ifElse _ _ ihthn ihels => exact .inr ⟨rfl, affirming_ifElse ihthn ihels⟩
  | @ifs body hbody _ ih =>
    refine .inr ⟨?_, hbody.affirming ih⟩
    have hret : body.any isReturn = false := by
      simpa using hbody.not_isReturn
    have hif : body.any isIf = true := List.any_eq_true.mpr hbody.nonempty
    simp [branchShape, direct, hret, hif]

theorem ReturningBranch.run_of_isIf (hb : ReturningBranch b) (hif : b.isIf = true) {f : Flow}
    (hf : f.nested = false) : (f.run b.evidence).returned = true := by
  cases hb with
  | ret | returns | ifs => cases hif
  | ifElse hthn hels => exact run_ifElse_of_affirms hthn.affirms hels.affirms hf

/-- The first `if` makes the verdict, and nothing behind it takes it back. -/
theorem run_evidenceAll_of_ifs {body : List Stmt}
    (hbody : ∀ s ∈ body, s.neutral = true ∨ s.isIf = true) (hif : ∃ s ∈ body, s.isIf = true)
    (hifs : ∀ s ∈ body, s.isIf = true → ReturningBranch s) {f : Flow} (hf : f.nested = false) :
    (f.run (evidenceAll body)).returned = true := by
  induction body with
  | nil => simp at hif
  | cons s ss ih =>
    rw [List.forall_mem_cons] at hbody hifs
    rw [evidenceAll, Flow.run_append]
    rcases hbody.1 with hneutral | hs
    · rw [evidence_of_neutral hneutral, Flow.run_nil]
      have hrest : ∃ s ∈ ss, s.isIf = true := by
        simpa [not_isIf_of_neutral hneutral] using hif
      exact ih hbody.2 hrest hifs.2
    · apply Flow.run_returned_of_affirms
      · exact affirms_of_mem_evidenceAll hbody.2 fun t ht hif => (hifs.2 t ht hif).affirms
      · exact (hifs.1 hs).run_of_isIf hs hf

/-- A body whose ifs return in every leaf makes a verdict, so that a method of this body is accepted
if it is well typed. -/
theorem verdict_of_returningBody {body : List Stmt} (hbody : ReturningBody body) :
    verdict (bodyEvidence body) = true ∧
      ∀ (h : Hierarchy) (m : MethodDecl) (s : Checker), m.body = body →
        m.PartsWellTyped h s.scope.self → (m.check h).outcome s = .ok () := by
  have hv : verdict (bodyEvidence body) = true := by
    rw [bodyEvidence_of_not_isReturn hbody.among.not_isReturn]
    exact run_evidenceAll_of_ifs hbody.among.all hbody.among.nonempty hbody.ifs rfl
  refine ⟨hv, ?_⟩
  rintro h m s rfl hm
  rw [MethodDecl.outcome_of_partsWellTyped hm, hv]
  simp

/-- A chain of ifs in one branch and an `if` in a block in the other, with neutral statements at
every level. -/
def grade : MethodDecl :=
  { name := "grade", params := [⟨.bool, "a"⟩, ⟨.bool, "b"⟩], ret := some .int
    body := [.while (.var "a") (.block [.print none]),
      .ifElse (.var "a")
        (.block [.print none, .ifElse (.var "b") (.ret (some (.int 1)))
          (.block [.ret (some (.int 2)), .print none])])
        (.ifElse (.var "b") (.ret (some (.int 3))) (.ifElse (.var "a") (.ret (some (.int 4)))
          (.ret (some (.int 5))))),
      .print none] }

theorem grade_returningBody : ReturningBody grade.body := by
  refine ⟨⟨by decide, by decide⟩, ?_⟩
  intro s hs hif
  simp only [grade, List.mem_cons, List.not_mem_nil, or_false] at hs
  rcases hs with rfl | rfl | rfl
  · cases hif
  · refine .ifElse (.ifs ⟨by decide, by decide⟩ ?_) (.ifElse .ret (.ifElse .ret .ret))
    intro t ht hif
    simp only [List.mem_cons, List.not_mem_nil, or_false] at ht
    rcases ht with rfl | rfl
    · cases hif
    · exact .ifElse .ret (.returns ⟨by decide, by decide⟩)
  · cases hif

theorem grade_verdict : ReturningBody grade.body ∧ verdict (bodyEvidence grade.body) = true ∧
    (grade.check {}).outcome {} = .ok () := by
  obtain ⟨hv, haccepted⟩ := verdict_of_returningBody grade_returningBody
  refine ⟨grade_returningBody, hv, haccepted {} grade {} rfl ?_⟩
  exact MethodDecl.partsWellTyped_of_runs (s := {}) rfl rfl rfl

end Stmt
end ClassLang
