import ClassLang.Returns.Flow
import ClassLang.Scope

/-! # The checker

A checker knows the scope, the method it is in, and the evidence on returning recorded there. A
check is an action on it that may fail; what it has changed by then stays. -/

namespace ClassLang

structure Checker where
  scope : Scope := {}
  method : Option Signature := none
  evidence : List Evidence := []

namespace Checker

/-- A class starts with an empty scope and outside every method. The evidence of the last method
stays until the next one is entered. -/
def enterClass (s : Checker) (className : String) : Checker :=
  { s with scope := .ofClass className, method := none }

def enterMethod (s : Checker) (m : Signature) : Checker :=
  { scope := s.scope.clear, method := m, evidence := [] }

def declare (s : Checker) (x : String) (t : Ty) : Checker :=
  { s with scope := s.scope.declare x t }

def bind (s : Checker) (x className : String) : Checker :=
  { s with scope := s.scope.bind x className }

def bindObject (s : Checker) (x : String) (t : Ty) : Checker :=
  { s with scope := s.scope.bindObject x t }

def record (s : Checker) (es : List Evidence) : Checker :=
  { s with evidence := s.evidence ++ es }

/-- The type of value that a return needs, if it needs one. -/
def returnType? (s : Checker) : Option Ty :=
  s.method.bind (·.ret)

@[simp] theorem record_nil (s : Checker) : s.record [] = s := by
  simp [record]

theorem record_record (s : Checker) (es fs : List Evidence) :
    (s.record es).record fs = s.record (es ++ fs) := by
  simp [record]

end Checker

abbrev CheckM := EStateM Diagnostic Checker

namespace CheckM

/-- A question about the checker, which leaves it as it is. -/
def ask {α : Type} (f : Checker → Except Diagnostic α) : CheckM α := fun s =>
  match f s with
  | .ok a => .ok a s
  | .error d => .error d s

def askScope {α : Type} (f : Scope → Except Diagnostic α) : CheckM α :=
  ask fun s => f s.scope

def record (es : List Evidence) : CheckM Unit :=
  modify (·.record es)

/-- What the action says of a checker, without the checker it leaves. -/
def outcome {α : Type} (act : CheckM α) (s : Checker) : Except Diagnostic α :=
  match act s with
  | .ok a _ => .ok a
  | .error d _ => .error d

@[simp] theorem record_apply (es : List Evidence) (s : Checker) :
    record es s = .ok () (s.record es) := rfl

/-- The second action starts where the first has ended, and a failure ends both. -/
theorem bind_apply {α β : Type} (act : CheckM α) (next : α → CheckM β) (s : Checker) :
    (act >>= next) s = match act s with
      | .ok a s' => next a s'
      | .error d s' => .error d s' := by
  change EStateM.bind act next s = _
  unfold EStateM.bind
  cases act s <;> rfl

theorem outcome_ask {α : Type} (f : Checker → Except Diagnostic α) (s : Checker) :
    (ask f).outcome s = f s := by
  unfold outcome ask
  cases f s <;> rfl

end CheckM
end ClassLang
