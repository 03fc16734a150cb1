import ClassLang.Proofs.Returns.Fold
import ClassLang.Proofs.Returns.Soundness
import ClassLang.Proofs.Stmt.Frame

/-! # A returning if at the end

A body that ends in an `if` with a return in both branches always returns. The fold sees this
unless a nested branch stands before: from then on it takes the else-branches in pairs, and it
depends on their number whether the last one makes a verdict or is left to wait for another. -/

namespace ClassLang

namespace Flow

/-- The two branches of the last `if`, from any state. -/
theorem run_returning_if (f : Flow) :
    (f.run [.thenBranch true, .elseBranch true]).returned =
      (f.returned || f.awaitsElse || !f.nested) := by
  obtain ⟨returned, waits, nested⟩ := f
  cases returned <;> cases waits <;> cases nested <;> rfl

end Flow

namespace Stmt

mutual
/-- The branches of all ifs in the statement, however deep. -/
def branches : Stmt → List Stmt
  | block body => branchesAll body
  | ifThen _ thn => thn :: thn.branches
  | ifElse _ thn els => thn :: thn.branches ++ els :: els.branches
  | .while _ body => body.branches
  | assign .. | call .. | print _ | ret _ => []

def branchesAll : List Stmt → List Stmt
  | [] => []
  | s :: ss => s.branches ++ branchesAll ss
end

/-- An `if` stands directly in the branch, and no return does. -/
def isNested (b : Stmt) : Bool :=
  b.branchShape == .nested

theorem thenEvidence_nests (b : Stmt) : b.thenEvidence.nests = b.isNested := by
  unfold thenEvidence isNested
  cases b.branchShape <;> rfl

theorem elseEvidence_nests (b : Stmt) : b.elseEvidence.nests = b.isNested := by
  unfold elseEvidence isNested
  cases b.branchShape <;> rfl

theorem loopEvidence_nests (s : Stmt) : s.loopEvidence.any Evidence.nests = false := by
  rw [List.any_eq_false]
  intro e he
  rw [eq_loop_of_mem_loopEvidence he]
  exact Bool.false_ne_true

mutual
theorem any_nests_evidence : ∀ s : Stmt, s.evidence.any Evidence.nests = s.branches.any isNested
  | block body => any_nests_evidenceAll body
  | ifThen cond thn => by
    rw [evidence, branches, List.any_cons, List.any_cons, thenEvidence_nests,
      any_nests_evidence thn]
  | ifElse cond thn els => by
    simp only [evidence, branches, List.any_append, List.any_cons, thenEvidence_nests,
      elseEvidence_nests, any_nests_evidence thn, any_nests_evidence els]
  | .while cond body => by
    rw [evidence, branches, List.any_append, loopEvidence_nests, Bool.false_or,
      any_nests_evidence body]
  | assign .. | call .. | print _ | ret _ => rfl

theorem any_nests_evidenceAll : ∀ ss : List Stmt,
    (evidenceAll ss).any Evidence.nests = (branchesAll ss).any isNested
  | [] => rfl
  | s :: ss => by
    rw [evidenceAll, branchesAll, List.any_append, List.any_append, any_nests_evidence s,
      any_nests_evidenceAll ss]
end

theorem any_nests_bodyEvidence (body : List Stmt) :
    (bodyEvidence body).any Evidence.nests = (branchesAll body).any isNested := by
  induction body with
  | nil => rfl
  | cons s body ih =>
    have hret : (if s.isReturn then [Evidence.ret] else []).any Evidence.nests = false := by
      cases s.isReturn <;> rfl
    rw [bodyEvidence_cons, branchesAll, List.any_append, List.any_append, List.any_append, hret, ih,
      any_nests_evidence s, Bool.or_false]

/-- The statements leave a fold in a state from which a returning `if` makes a verdict. -/
inductive Receptive (body : List Stmt) : Prop
  /-- There is a verdict already. -/
  | returned (hv : verdict (bodyEvidence body) = true) : Receptive body
  /-- No branch of an `if` is nested. -/
  | flat (hflat : ∀ b ∈ branchesAll body, b.isNested = false) : Receptive body
  /-- The number of returning else-branches behind the first nested branch is odd, where one more is
  counted if the last branch to return before it was a then-branch. -/
  | waiting {before after : List Evidence} {e : Evidence}
      (hsplit : bodyEvidence body = before ++ e :: after)
      (hbefore : ∀ d ∈ before, d.nests = false) (he : e.nests = true)
      (hodd : Odd ((Evidence.lastReturnsInThen before).toNat + after.count (.elseBranch true))) :
      Receptive body

theorem receptive_of_awaitsElse {body : List Stmt}
    (hwaits : (Flow.run {} (bodyEvidence body)).awaitsElse = true) : Receptive body := by
  cases hfirst : (bodyEvidence body).find? Evidence.nests with
  | none =>
    apply Receptive.flat
    have hnone : (bodyEvidence body).any Evidence.nests = false := by
      simpa using hfirst
    rw [any_nests_bodyEvidence] at hnone
    simpa using hnone
  | some e =>
    obtain ⟨he, before, after, hsplit, hbefore⟩ := List.find?_eq_some_iff_append.mp hfirst
    have hflat : ∀ d ∈ before, d.nests = false := by simpa using hbefore
    rw [hsplit, Flow.run_awaitsElse_of_split hflat he] at hwaits
    exact .waiting hsplit hflat he hwaits

theorem receptive_iff {body : List Stmt} :
    Receptive body ↔ ((Flow.run {} (bodyEvidence body)).returned ||
      (Flow.run {} (bodyEvidence body)).awaitsElse ||
        !(Flow.run {} (bodyEvidence body)).nested) = true := by
  rw [Bool.or_eq_true, Bool.or_eq_true, Flow.run_nested, any_nests_bodyEvidence]
  constructor
  · rintro (hv | hflat | ⟨hsplit, hbefore, he, hodd⟩)
    · exact .inl (.inl hv)
    · exact .inr (by simpa using hflat)
    · rw [hsplit]
      exact .inl (.inr ((Flow.run_awaitsElse_of_split hbefore he).mpr hodd))
  · rintro ((hv | hwaits) | hflat)
    · exact .returned hv
    · exact receptive_of_awaitsElse hwaits
    · exact .flat (by simpa using hflat)

/-- A final `if` with a return in both branches makes a verdict if and only if the statements before
it are receptive. A well-typed method with a result that ends like this is accepted then, and is
refused for want of a return otherwise. -/
theorem verdict_append_ifElse_iff (pre : List Stmt) (cond : Expr) (v w : Option Expr) :
    (verdict (bodyEvidence (pre ++ [ifElse cond (ret v) (ret w)])) = true ↔ Receptive pre) ∧
    ∀ (h : Hierarchy) (m : MethodDecl) (s : Checker),
      m.body = pre ++ [ifElse cond (ret v) (ret w)] → m.ret.isSome = true →
      m.PartsWellTyped h s.scope.self →
      ((m.check h).outcome s = .ok () ↔ Receptive pre) ∧
      ((m.check h).outcome s = .error ⟨.missingReturn m.name, .methodDecl⟩ ↔ ¬ Receptive pre) := by
  have hv : verdict (bodyEvidence (pre ++ [ifElse cond (ret v) (ret w)])) = true ↔
      Receptive pre := by
    rw [bodyEvidence_append, verdict, Flow.run_append, receptive_iff, ← Flow.run_returning_if]
    rfl
  refine ⟨hv, ?_⟩
  intro h m s hbody hret hm
  rw [MethodDecl.outcome_of_partsWellTyped hm, hret, hbody, ← hv]
  cases verdict (bodyEvidence (pre ++ [ifElse cond (ret v) (ret w)])) <;> simp

/-- An early return, and an `if` in a branch without one. -/
def earlyReturn : List Stmt :=
  [.ifThen (.var "a") (.ret (some (.int 0))),
    .ifThen (.var "b") (.block [.ifThen (.var "a") (.print none)])]

def lookUp : MethodDecl :=
  { name := "lookUp", params := [⟨.bool, "a"⟩, ⟨.bool, "b"⟩], ret := some .int
    body := earlyReturn ++ [.ifElse (.var "b") (.ret (some (.int 1))) (.ret (some (.int 2)))] }

/-- The nested branch comes when the early return has left an else-branch to wait for. -/
theorem earlyReturn_receptive : Receptive earlyReturn := by
  have hsplit : bodyEvidence earlyReturn =
      [.thenBranch true] ++ .nestedThen :: [.thenBranch false] := rfl
  exact .waiting hsplit (by decide) rfl (by decide)

theorem lookUp_accepted : Receptive earlyReturn ∧ (lookUp.check {}).outcome {} = .ok () := by
  obtain ⟨-, haccepted⟩ := verdict_append_ifElse_iff earlyReturn (.var "b") (some (.int 1))
    (some (.int 2))
  have hparts : lookUp.PartsWellTyped {} none :=
    MethodDecl.partsWellTyped_of_runs (s := {}) rfl rfl rfl
  exact ⟨earlyReturn_receptive, (haccepted {} lookUp {} rfl rfl hparts).1.mpr earlyReturn_receptive⟩

end Stmt

namespace Program

/-- An `if` in a branch of the first statement, and a returning `if` at the end. -/
def nestedFirstBody : List Stmt :=
  [.ifThen (.var "a") (.ifThen (.var "b") (.print none))] ++
    [.ifElse (.var "b") (.ret (some (.int 1))) (.ret (some (.int 2)))]

/-- Though every path returns, the method is refused for want of a return. -/
theorem nestedFirstBody_missingReturn :
    Stmt.anyDefinitelyReturns nestedFirstBody = true ∧
      verdict (bodyEvidence nestedFirstBody) = false ∧
      (ofBody nestedFirstBody).check = .error ⟨.missingReturn "m", .methodDecl⟩ :=
  ⟨rfl, rfl, by decide +kernel⟩

end Program
end ClassLang
