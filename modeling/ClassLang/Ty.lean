/-! # Types

Integers, booleans, arrays of any type, and objects of a named class. -/

namespace ClassLang

inductive Ty where
  | int
  | bool
  | array (element : Ty)
  | object (className : String)
  deriving DecidableEq, Repr, Inhabited

namespace Ty

/-- The written form. An object type is written as its class name alone, so a class named
`int` is written like the integers and yet is another type. -/
def render : Ty → String
  | int => "int"
  | bool => "boolean"
  | array t => t.render ++ "[]"
  | object c => c

def isPrimitive : Ty → Bool
  | int | bool => true
  | array _ | object _ => false

/-- Same outermost former, whatever the element type or the class. -/
def sameShape : Ty → Ty → Bool
  | int, int => true
  | bool, bool => true
  | array _, array _ => true
  | object _, object _ => true
  | _, _ => false

theorem sameShape_self (t : Ty) : t.sameShape t = true := by
  cases t <;> rfl

theorem sameShape_comm (s t : Ty) : s.sameShape t = t.sameShape s := by
  cases s <;> cases t <;> rfl

end Ty
end ClassLang
