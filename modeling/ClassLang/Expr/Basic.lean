import ClassLang.Ty

/-! # Expressions

Operators, and the expression tree over them. -/

namespace ClassLang

inductive BinaryOp where
  | add | sub | mul | div
  | and | or
  | eq | ne | lt | le | gt | ge
  deriving DecidableEq, Repr

namespace BinaryOp

def render : BinaryOp → String
  | add => "+"
  | sub => "-"
  | mul => "*"
  | div => "/"
  | and => "&&"
  | or => "||"
  | eq => "=="
  | ne => "!="
  | lt => "<"
  | le => "<="
  | gt => ">"
  | ge => ">="

def isArithmetic : BinaryOp → Bool
  | add | sub | mul | div => true
  | _ => false

def isLogical : BinaryOp → Bool
  | and | or => true
  | _ => false

end BinaryOp

inductive UnaryOp where
  | neg | not
  deriving DecidableEq, Repr

namespace UnaryOp

def render : UnaryOp → String
  | neg => "-"
  | not => "!"

/-- The type of the operand, and of the result. -/
def ty : UnaryOp → Ty
  | neg => .int
  | not => .bool

end UnaryOp

inductive Expr where
  | binop (op : BinaryOp) (left right : Expr)
  | unop (op : UnaryOp) (operand : Expr)
  | call (receiver : Expr) (method : String) (args : List Expr)
  | newArray (element : Ty) (length : Int)
  | index (array position : Expr)
  | newObject (className : String)
  | field (receiver : Expr) (name : String)
  | var (name : String)
  | this
  | int (value : Int)
  | bool (value : Bool)
  | str (value : String)
  deriving Repr, Inhabited

namespace Expr

/-- The word that diagnostics use for this kind of expression. -/
def kind : Expr → String
  | binop .. => "Binop"
  | unop .. => "Unop"
  | call .. => "Call"
  | newArray .. => "NewArray"
  | index .. => "ArrayElm"
  | newObject .. => "NewObj"
  | field .. => "Field"
  | var .. => "Id"
  | this => "This"
  | int .. => "IntLit"
  | bool .. => "BoolLit"
  | str .. => "StrLit"

/-- String literals have no type: they can only be printed. -/
def isText : Expr → Bool
  | str _ => true
  | _ => false

/-- The expressions whose fields can be selected. -/
def isReference : Expr → Bool
  | var _ | this | field .. => true
  | _ => false

end Expr
end ClassLang
