import ClassLang.Expr.Basic

/-! # Statements -/

namespace ClassLang

inductive Stmt where
  | block (body : List Stmt)
  | assign (target value : Expr)
  | call (receiver : Expr) (method : String) (args : List Expr)
  | ifThen (cond : Expr) (thn : Stmt)
  | ifElse (cond : Expr) (thn els : Stmt)
  | while (cond : Expr) (body : Stmt)
  | print (arg : Option Expr)
  | ret (value : Option Expr)
  deriving Repr, Inhabited

namespace Stmt

def isReturn : Stmt → Bool
  | ret _ => true
  | _ => false

/-- With or without an `else`. -/
def isIf : Stmt → Bool
  | ifThen .. | ifElse .. => true
  | _ => false

end Stmt
end ClassLang
