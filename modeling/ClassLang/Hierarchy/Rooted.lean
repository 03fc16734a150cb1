import ClassLang.Hierarchy.Build

/-! # Roots and order of class declarations

Which declarations have a root above them, and when a list has every parent behind its children. -/

namespace ClassLang

/-- The parent links that start at the class end at a class without a parent. -/
inductive Rooted (classes : List ClassDecl) : ClassDecl → Prop
  | root {c : ClassDecl} (hc : c ∈ classes) (hp : c.parent = none) : Rooted classes c
  | child {c d : ClassDecl} (hc : c ∈ classes) (hp : c.parent = some d.name)
      (hd : Rooted classes d) : Rooted classes c

theorem Rooted.mem {classes : List ClassDecl} {c : ClassDecl} (h : Rooted classes c) :
    c ∈ classes := by
  cases h with
  | root hc _ => exact hc
  | child hc _ _ => exact hc

/-- Of classes listed latest first: every parent was placed before its children. -/
def ParentsFirst : List ClassDecl → Prop
  | [] => True
  | c :: earlier => c.isReady earlier = true ∧ ParentsFirst earlier

theorem ClassDecl.isReady_iff {c : ClassDecl} {placed : List ClassDecl} :
    c.isReady placed = true ↔ ∀ p, c.parent = some p → ∃ d ∈ placed, d.name = p := by
  unfold isReady
  cases c.parent with
  | none => simp
  | some p => simp

end ClassLang
