import ClassLang.Diagnostic
import ClassLang.Hierarchy.Basic

/-! # Assignability

Which values may stand where a type is expected: the type's own, arrays whose elements may, and
objects of a subclass. -/

namespace ClassLang.Hierarchy

/-- A value of type `source` may stand where `target` is expected. -/
def assignable (h : Hierarchy) : (target source : Ty) → Bool
  | .int, .int => true
  | .bool, .bool => true
  | .array t, .array s => h.assignable t s
  | .object c, .object d => c == d || h.isAncestorOrSelf c d
  | _, _ => false

def comparable (h : Hierarchy) (s t : Ty) : Bool :=
  h.assignable s t || h.assignable t s

theorem assignable_self (h : Hierarchy) (t : Ty) : h.assignable t t = true := by
  induction t with
  | int => rfl
  | bool => rfl
  | array t ih => exact ih
  | object c => simp [assignable]

theorem sameShape_of_assignable {h : Hierarchy} {t s : Ty} (hs : h.assignable t s = true) :
    t.sameShape s = true := by
  cases t <;> cases s <;> simp_all [assignable, Ty.sameShape]

theorem comparable_comm (h : Hierarchy) (s t : Ty) : h.comparable s t = h.comparable t s :=
  Bool.or_comm ..

/-- An object type has to name a declared class. Of an array type nothing is asked, whatever its
elements. -/
def requireClass (h : Hierarchy) (site : Construct) : Ty → Except Diagnostic Unit
  | .object c => if h.contains c then .ok () else .error ⟨.unknownClass c, site⟩
  | _ => .ok ()

end ClassLang.Hierarchy
