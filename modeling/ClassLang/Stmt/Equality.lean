import ClassLang.Expr.Equality
import ClassLang.Stmt.Basic

/-! # Equality of statements

A Boolean comparison of statements, part by part, and the decision of equality it gives. -/

namespace ClassLang.Stmt

mutual
def same : Stmt → Stmt → Bool
  | block b, block b' => sameAll b b'
  | assign t v, assign t' v' => t == t' && v == v'
  | call e m as, call e' m' as' => e == e' && m == m' && as == as'
  | ifThen c s, ifThen c' s' => c == c' && same s s'
  | ifElse c s t, ifElse c' s' t' => c == c' && same s s' && same t t'
  | .while c s, .while c' s' => c == c' && same s s'
  | print a, print a' => a == a'
  | ret v, ret v' => v == v'
  | _, _ => false

def sameAll : List Stmt → List Stmt → Bool
  | [], [] => true
  | s :: ss, s' :: ss' => same s s' && sameAll ss ss'
  | _, _ => false
end

mutual
theorem same_self : ∀ s : Stmt, same s s = true
  | block b => by simp [same, sameAll_self b]
  | assign .. => by simp [same]
  | call .. => by simp [same]
  | ifThen _ s => by simp [same, same_self s]
  | ifElse _ s t => by simp [same, same_self s, same_self t]
  | .while _ s => by simp [same, same_self s]
  | print _ => by simp [same]
  | ret _ => by simp [same]

theorem sameAll_self : ∀ ss : List Stmt, sameAll ss ss = true
  | [] => rfl
  | s :: ss => by simp [sameAll, same_self s, sameAll_self ss]
end

mutual
theorem eq_of_same : ∀ {s s' : Stmt}, same s s' = true → s = s'
  | block _, s', h => by
    cases s' <;> simp only [same, Bool.false_eq_true] at h
    rw [eq_of_sameAll h]
  | assign .., s', h => by
    cases s' <;> simp only [same, Bool.and_eq_true, beq_iff_eq, Bool.false_eq_true] at h
    rw [h.1, h.2]
  | call .., s', h => by
    cases s' <;> simp only [same, Bool.and_eq_true, beq_iff_eq, Bool.false_eq_true] at h
    rw [h.1.1, h.1.2, h.2]
  | ifThen .., s', h => by
    cases s' <;> simp only [same, Bool.and_eq_true, beq_iff_eq, Bool.false_eq_true] at h
    rw [h.1, eq_of_same h.2]
  | ifElse .., s', h => by
    cases s' <;> simp only [same, Bool.and_eq_true, beq_iff_eq, Bool.false_eq_true] at h
    rw [h.1.1, eq_of_same h.1.2, eq_of_same h.2]
  | .while .., s', h => by
    cases s' <;> simp only [same, Bool.and_eq_true, beq_iff_eq, Bool.false_eq_true] at h
    rw [h.1, eq_of_same h.2]
  | print _, s', h => by
    cases s' <;> simp only [same, beq_iff_eq, Bool.false_eq_true] at h
    rw [h]
  | ret _, s', h => by
    cases s' <;> simp only [same, beq_iff_eq, Bool.false_eq_true] at h
    rw [h]

theorem eq_of_sameAll : ∀ {ss ss' : List Stmt}, sameAll ss ss' = true → ss = ss'
  | [], [], _ => rfl
  | [], _ :: _, h => by simp [sameAll] at h
  | _ :: _, [], h => by simp [sameAll] at h
  | _ :: _, _ :: _, h => by
    simp only [sameAll, Bool.and_eq_true] at h
    rw [eq_of_same h.1, eq_of_sameAll h.2]
end

theorem same_iff {s s' : Stmt} : same s s' = true ↔ s = s' :=
  ⟨eq_of_same, fun h => h ▸ same_self s⟩

instance : DecidableEq Stmt := fun _ _ => decidable_of_iff _ same_iff

end ClassLang.Stmt
