import ClassLang.Returns.Flow
import Mathlib.Algebra.Ring.Parity
import Mathlib.Data.List.Induction

/-! # The state of a fold, told by its evidence

Whether there is a verdict, whether a nested branch has been met, and whether an else-branch is
awaited. A verdict lasts from the evidence that raises it to the first behind that takes it back. Up
to the first nested branch the last branch that returned decides on what is awaited. From then on
then-branches are of no account, and every else-branch that returns turns it over. -/

namespace ClassLang

namespace Evidence

/-- A branch that leaves it to an `if` inside. -/
def nests : Evidence → Bool
  | nestedThen | nestedElse => true
  | _ => false

/-- A branch that falls through takes the verdict back, and so does a loop that returns. -/
def revokes : Evidence → Bool
  | thenBranch false | elseBranch false | loop true => true
  | _ => false

/-- A branch that returns directly. -/
def branchReturns : Evidence → Bool
  | thenBranch true | elseBranch true => true
  | _ => false

/-- Of the branches that return, the last one is a then-branch. -/
def lastReturnsInThen (es : List Evidence) : Bool :=
  (es.filter branchReturns).getLast? == some (.thenBranch true)

theorem lastReturnsInThen_concat (es : List Evidence) (e : Evidence) :
    lastReturnsInThen (es ++ [e]) =
      if e.branchReturns then e == .thenBranch true else lastReturnsInThen es := by
  unfold lastReturnsInThen
  cases he : e.branchReturns with
  | true => simp [List.filter_append, he]
  | false => simp [List.filter_append, he]

end Evidence

namespace Flow

variable {f : Flow} {es : List Evidence}

/-! ## The verdict -/

/-- The evidence raises the verdict in this state. -/
def raises (f : Flow) : Evidence → Bool
  | .ret | .loop false => true
  | .elseBranch true => f.awaitsElse
  | _ => false

theorem step_returned (f : Flow) (e : Evidence) :
    (f.step e).returned = (f.raises e || (f.returned && !e.revokes)) := by
  obtain ⟨returned, waits, nested⟩ := f
  cases e with
  | ret | nestedThen | nestedElse => simp [step, raises, Evidence.revokes]
  | loop returns | thenBranch returns | elseBranch returns =>
    cases returns <;> cases returned <;> cases waits <;> cases nested <;> rfl

/-- A verdict that there is at the end was there from the start, or has been raised on the way, and
has not been taken back since. -/
theorem run_returned_iff (f : Flow) (es : List Evidence) :
    (f.run es).returned = true ↔
      (f.returned = true ∧ ∀ e ∈ es, e.revokes = false) ∨
      ∃ i e, es[i]? = some e ∧ (f.run (es.take i)).raises e = true ∧
        ∀ d ∈ es.drop (i + 1), d.revokes = false := by
  induction es generalizing f with
  | nil => simp
  | cons e es ih =>
    have hindex : (∃ i d, (e :: es)[i]? = some d ∧ (f.run ((e :: es).take i)).raises d = true ∧
        ∀ c ∈ (e :: es).drop (i + 1), c.revokes = false) ↔
          (f.raises e = true ∧ ∀ d ∈ es, d.revokes = false) ∨
          ∃ i d, es[i]? = some d ∧ ((f.step e).run (es.take i)).raises d = true ∧
            ∀ c ∈ es.drop (i + 1), c.revokes = false := by
      rw [← Nat.or_exists_add_one]
      simp
    rw [run_cons, ih, step_returned, hindex, List.forall_mem_cons, Bool.or_eq_true,
      Bool.and_eq_true, Bool.not_eq_true', or_and_right, and_assoc, or_assoc, or_left_comm]

/-! ## Nested branches -/

theorem step_nested (f : Flow) (e : Evidence) : (f.step e).nested = (f.nested || e.nests) := by
  obtain ⟨returned, waits, nested⟩ := f
  cases e with
  | ret => simp [step, Evidence.nests]
  | loop => simp [step, Evidence.nests]
  | nestedThen | nestedElse => simp [step, Evidence.nests]
  | thenBranch returns | elseBranch returns =>
    cases returns <;> cases waits <;> cases nested <;> rfl

theorem run_nested (f : Flow) (es : List Evidence) :
    (f.run es).nested = (f.nested || es.any Evidence.nests) := by
  induction es generalizing f with
  | nil => simp
  | cons e es ih => rw [run_cons, ih, step_nested, List.any_cons, Bool.or_assoc]

/-! ## The else-branch to come -/

theorem step_awaitsElse_of_flat (hf : f.nested = false) (e : Evidence) :
    (f.step e).awaitsElse = if e.branchReturns then e == .thenBranch true else f.awaitsElse := by
  obtain ⟨returned, waits, nested⟩ := f
  subst hf
  cases e with
  | ret | loop | nestedThen | nestedElse => rfl
  | thenBranch returns | elseBranch returns => cases returns <;> cases waits <;> rfl

theorem run_awaitsElse_of_flat (hes : ∀ e ∈ es, e.nests = false) :
    (run {} es).awaitsElse = Evidence.lastReturnsInThen es := by
  -- The last piece decides, so the evidence is taken apart from its end.
  induction es using List.reverseRecOn with
  | nil => rfl
  | append_singleton es e ih =>
    rw [List.forall_mem_append] at hes
    have hflat : (run {} es).nested = false := by
      rw [run_nested]
      simpa using hes.1
    rw [run_append, run_cons, run_nil, step_awaitsElse_of_flat hflat, ih hes.1,
      Evidence.lastReturnsInThen_concat]

theorem step_awaitsElse_of_nested (hf : f.nested = true) (e : Evidence) :
    (f.step e).awaitsElse = (f.awaitsElse ^^ (e == .elseBranch true)) := by
  obtain ⟨returned, waits, nested⟩ := f
  subst hf
  cases e with
  | ret | nestedThen | nestedElse => cases waits <;> rfl
  | loop returns | thenBranch returns | elseBranch returns =>
    cases returns <;> cases waits <;> rfl

theorem run_awaitsElse_of_nested (hf : f.nested = true) :
    (f.run es).awaitsElse = true ↔ Odd (f.awaitsElse.toNat + es.count (.elseBranch true)) := by
  induction es generalizing f with
  | nil => cases hw : f.awaitsElse <;> simp [hw]
  | cons e es ih =>
    have hstep : (f.step e).nested = true := by rw [step_nested, hf, Bool.true_or]
    rw [run_cons, ih hstep, step_awaitsElse_of_nested hf, List.count_cons]
    cases f.awaitsElse <;> cases e == .elseBranch true <;> simp [Nat.odd_iff] <;> omega

theorem step_awaitsElse_of_nests {e : Evidence} (he : e.nests = true) :
    (f.step e).awaitsElse = f.awaitsElse := by
  cases e with
  | nestedThen | nestedElse => rfl
  | _ => cases he

/-- What is awaited, with the evidence split at the first nested branch. -/
theorem run_awaitsElse_of_split {before after : List Evidence} {e : Evidence}
    (hbefore : ∀ d ∈ before, d.nests = false) (he : e.nests = true) :
    (run {} (before ++ e :: after)).awaitsElse = true ↔
      Odd ((Evidence.lastReturnsInThen before).toNat + after.count (.elseBranch true)) := by
  have hnested : ((run {} before).step e).nested = true := by rw [step_nested, he, Bool.or_true]
  rw [run_append, run_cons, run_awaitsElse_of_nested hnested, step_awaitsElse_of_nests he,
    run_awaitsElse_of_flat hbefore]

end Flow
end ClassLang
