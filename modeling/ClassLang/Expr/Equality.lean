import ClassLang.Expr.Basic

/-! # Equality of expressions

A Boolean comparison of expressions, part by part, and the decision of equality it gives. -/

namespace ClassLang.Expr

mutual
def same : Expr → Expr → Bool
  | binop o l r, binop o' l' r' => o == o' && same l l' && same r r'
  | unop o e, unop o' e' => o == o' && same e e'
  | call e m as, call e' m' as' => same e e' && m == m' && sameAll as as'
  | newArray t k, newArray t' k' => t == t' && k == k'
  | index a i, index a' i' => same a a' && same i i'
  | newObject c, newObject c' => c == c'
  | field e x, field e' x' => same e e' && x == x'
  | var x, var x' => x == x'
  | this, this => true
  | int k, int k' => k == k'
  | bool b, bool b' => b == b'
  | str s, str s' => s == s'
  | _, _ => false

def sameAll : List Expr → List Expr → Bool
  | [], [] => true
  | e :: es, e' :: es' => same e e' && sameAll es es'
  | _, _ => false
end

mutual
theorem same_self : ∀ e : Expr, same e e = true
  | binop _ l r => by simp [same, same_self l, same_self r]
  | unop _ e => by simp [same, same_self e]
  | call e _ as => by simp [same, same_self e, sameAll_self as]
  | newArray .. => by simp [same]
  | index a i => by simp [same, same_self a, same_self i]
  | newObject _ => by simp [same]
  | field e _ => by simp [same, same_self e]
  | var _ => by simp [same]
  | this => rfl
  | int _ => by simp [same]
  | bool _ => by simp [same]
  | str _ => by simp [same]

theorem sameAll_self : ∀ es : List Expr, sameAll es es = true
  | [] => rfl
  | e :: es => by simp [sameAll, same_self e, sameAll_self es]
end

mutual
theorem eq_of_same : ∀ {e e' : Expr}, same e e' = true → e = e'
  | binop _ l r, e', h => by
    cases e' <;> simp only [same, Bool.and_eq_true, beq_iff_eq, Bool.false_eq_true] at h
    rw [h.1.1, eq_of_same h.1.2, eq_of_same h.2]
  | unop _ e, e', h => by
    cases e' <;> simp only [same, Bool.and_eq_true, beq_iff_eq, Bool.false_eq_true] at h
    rw [h.1, eq_of_same h.2]
  | call e _ as, e', h => by
    cases e' <;> simp only [same, Bool.and_eq_true, beq_iff_eq, Bool.false_eq_true] at h
    rw [eq_of_same h.1.1, h.1.2, eq_of_sameAll h.2]
  | newArray .., e', h => by
    cases e' <;> simp only [same, Bool.and_eq_true, beq_iff_eq, Bool.false_eq_true] at h
    rw [h.1, h.2]
  | index a i, e', h => by
    cases e' <;> simp only [same, Bool.and_eq_true, Bool.false_eq_true] at h
    rw [eq_of_same h.1, eq_of_same h.2]
  | newObject _, e', h => by
    cases e' <;> simp only [same, beq_iff_eq, Bool.false_eq_true] at h
    rw [h]
  | field e _, e', h => by
    cases e' <;> simp only [same, Bool.and_eq_true, beq_iff_eq, Bool.false_eq_true] at h
    rw [eq_of_same h.1, h.2]
  | var _, e', h => by
    cases e' <;> simp only [same, beq_iff_eq, Bool.false_eq_true] at h
    rw [h]
  | this, e', h => by
    cases e' <;> simp only [same, Bool.false_eq_true] at h
    rfl
  | int _, e', h => by
    cases e' <;> simp only [same, beq_iff_eq, Bool.false_eq_true] at h
    rw [h]
  | bool _, e', h => by
    cases e' <;> simp only [same, beq_iff_eq, Bool.false_eq_true] at h
    rw [h]
  | str _, e', h => by
    cases e' <;> simp only [same, beq_iff_eq, Bool.false_eq_true] at h
    rw [h]

theorem eq_of_sameAll : ∀ {es es' : List Expr}, sameAll es es' = true → es = es'
  | [], [], _ => rfl
  | [], _ :: _, h => by simp [sameAll] at h
  | _ :: _, [], h => by simp [sameAll] at h
  | e :: es, e' :: es', h => by
    simp only [sameAll, Bool.and_eq_true] at h
    rw [eq_of_same h.1, eq_of_sameAll h.2]
end

theorem same_iff {e e' : Expr} : same e e' = true ↔ e = e' :=
  ⟨eq_of_same, fun h => h ▸ same_self e⟩

instance : DecidableEq Expr := fun _ _ => decidable_of_iff _ same_iff

end ClassLang.Expr
