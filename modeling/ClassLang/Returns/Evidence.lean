import ClassLang.Stmt.Basic

/-! # Evidence of returning

What the statements of a method say, one after another, about whether it returns. A branch is
judged by its own statements only: a return or an `if` that stands directly in it. -/

namespace ClassLang

inductive Evidence where
  /-- A return outside every branch. -/
  | ret
  | loop (returns : Bool)
  | thenBranch (returns : Bool)
  | elseBranch (returns : Bool)
  /-- A then-branch that leaves it to an `if` inside. -/
  | nestedThen
  /-- An else-branch that leaves it to an `if` inside. -/
  | nestedElse
  deriving DecidableEq, Repr

inductive BranchShape where
  | returns | nested | fallsThrough
  deriving DecidableEq, Repr

namespace Stmt

/-- The statements that stand directly in a branch. -/
def direct : Stmt → List Stmt
  | block body => body
  | s => [s]

/-- A direct return counts before a direct `if`, wherever the two stand. -/
def branchShape (s : Stmt) : BranchShape :=
  if s.direct.any isReturn then .returns
  else if s.direct.any isIf then .nested
  else .fallsThrough

def thenEvidence (s : Stmt) : Evidence :=
  match s.branchShape with
  | .returns => .thenBranch true
  | .nested => .nestedThen
  | .fallsThrough => .thenBranch false

def elseEvidence (s : Stmt) : Evidence :=
  match s.branchShape with
  | .returns => .elseBranch true
  | .nested => .nestedElse
  | .fallsThrough => .elseBranch false

/-- One piece of evidence for each direct return of the body, so none for a body without one. -/
def loopEvidence (s : Stmt) : List Evidence :=
  (s.direct.filter isReturn).map fun _ => .loop true

section Exchange

variable {before after : List Stmt} {st st' : Stmt}

theorem branchShape_block_congr (hret : st'.isReturn = st.isReturn) (hif : st'.isIf = st.isIf) :
    (block (before ++ st' :: after)).branchShape = (block (before ++ st :: after)).branchShape := by
  simp [branchShape, direct, hret, hif]

theorem loopEvidence_block_congr (hret : st'.isReturn = st.isReturn) :
    (block (before ++ st' :: after)).loopEvidence =
      (block (before ++ st :: after)).loopEvidence := by
  simp only [loopEvidence, direct, List.filter_append, List.filter_cons, List.map_append, hret]
  cases st.isReturn <;> rfl

end Exchange

end Stmt
end ClassLang
