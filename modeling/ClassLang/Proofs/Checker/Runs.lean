import ClassLang.Checker.Basic

/-! # Successful runs

When an action of the checker succeeds, and in which state it leaves the checker. -/

namespace ClassLang.CheckM

variable {α β : Type} {s s' : Checker}

theorem bind_eq_ok {act : CheckM Unit} {next : Unit → CheckM β} {b : β} :
    (act >>= next) s = .ok b s' ↔ ∃ t, act s = .ok () t ∧ next () t = .ok b s' := by
  rw [bind_apply]
  cases act s with
  | ok a t =>
    constructor
    · intro hnext
      exact ⟨t, rfl, hnext⟩
    · rintro ⟨_, ⟨⟩, hnext⟩
      exact hnext
  | error d t =>
    constructor
    · rintro ⟨⟩
    · rintro ⟨_, ⟨⟩, _⟩

theorem ask_eq_ok {f : Checker → Except Diagnostic α} {a : α} :
    ask f s = .ok a s' ↔ f s = .ok a ∧ s' = s := by
  unfold ask
  cases f s <;> simp [eq_comm]

theorem askScope_eq_ok {f : Scope → Except Diagnostic α} {a : α} :
    askScope f s = .ok a s' ↔ f s.scope = .ok a ∧ s' = s :=
  ask_eq_ok

theorem modify_eq_ok {f : Checker → Checker} :
    (modify f : CheckM Unit) s = .ok () s' ↔ s' = f s := by
  change EStateM.Result.ok () (f s) = .ok () s' ↔ _
  simp [eq_comm]

theorem record_eq_ok {es : List Evidence} : record es s = .ok () s' ↔ s' = s.record es :=
  modify_eq_ok

theorem outcome_eq_ok {act : CheckM α} {a : α} : act.outcome s = .ok a ↔ ∃ t, act s = .ok a t := by
  unfold outcome
  cases act s <;> simp

theorem outcome_eq_error {act : CheckM α} {d : Diagnostic} :
    act.outcome s = .error d ↔ ∃ t, act s = .error d t := by
  unfold outcome
  cases act s <;> simp

/-- Each element passes in the state that those before it have left. -/
def EachPasses (passes : α → Checker → Prop) (after : α → Checker → Checker) :
    List α → Checker → Prop
  | [], _ => True
  | a :: as, s => passes a s ∧ EachPasses passes after as (after a s)

theorem forM_eq_ok {f : α → CheckM Unit} {passes : α → Checker → Prop}
    {after : α → Checker → Checker}
    (hf : ∀ a s s', f a s = .ok () s' ↔ passes a s ∧ s' = after a s) (as : List α)
    (s s' : Checker) :
    as.forM f s = .ok () s' ↔
      EachPasses passes after as s ∧ s' = as.foldl (fun t a => after a t) s := by
  induction as generalizing s with
  | nil =>
    change EStateM.Result.ok () s = .ok () s' ↔ _
    simp [EachPasses, eq_comm]
  | cons a as ih =>
    change (f a >>= fun _ => as.forM f) s = _ ↔ _
    rw [bind_eq_ok]
    constructor
    · rintro ⟨t, ha, has⟩
      obtain ⟨hpass, rfl⟩ := (hf a s t).mp ha
      obtain ⟨heach, rfl⟩ := (ih _).mp has
      exact ⟨⟨hpass, heach⟩, rfl⟩
    · rintro ⟨⟨hpass, heach⟩, rfl⟩
      exact ⟨after a s, (hf a s _).mpr ⟨hpass, rfl⟩, (ih _).mpr ⟨heach, rfl⟩⟩

/-- If passing does not depend on what the elements leave behind, the order is of no account. -/
theorem eachPasses_iff_forall {passes : α → Checker → Prop} {after : α → Checker → Checker}
    (hframe : ∀ a b s, passes a (after b s) ↔ passes a s) {as : List α} :
    EachPasses passes after as s ↔ ∀ a ∈ as, passes a s := by
  induction as generalizing s with
  | nil => simp [EachPasses]
  | cons a as ih => simp [EachPasses, ih, hframe]

end ClassLang.CheckM
