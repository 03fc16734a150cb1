import ClassLang.Stmt.Basic

/-! # Definite return

A statement that returns whatever its conditions turn out to be. -/

namespace ClassLang.Stmt

mutual
def definitelyReturns : Stmt → Bool
  | ret _ => true
  | block body => anyDefinitelyReturns body
  | ifElse _ thn els => thn.definitelyReturns && els.definitelyReturns
  | ifThen .. | .while .. | assign .. | call .. | print _ => false

def anyDefinitelyReturns : List Stmt → Bool
  | [] => false
  | s :: ss => s.definitelyReturns || anyDefinitelyReturns ss
end

theorem anyDefinitelyReturns_eq_any (ss : List Stmt) :
    anyDefinitelyReturns ss = ss.any definitelyReturns := by
  induction ss with
  | nil => rfl
  | cons s ss ih => simp [anyDefinitelyReturns, ih]

end ClassLang.Stmt
