import ClassLang.Proofs.Returns.Fold

/-! # The verdict without the fold

A verdict stands if and only if some piece of evidence has raised it and none behind that piece
takes it back. A return raises it, and so does a loop without one; an else-branch that returns does
only if it closes an `if`, which is told by the evidence before it. -/

namespace ClassLang

namespace Evidence

/-- By the evidence before index `i`, an else-branch that returns there closes an `if`. -/
inductive ClosesAt (es : List Evidence) (i : Nat) : Prop
  /-- No branch before it is nested, and the last one to return is a then-branch. -/
  | flat (hflat : ∀ e ∈ es.take i, e.nests = false)
      (hlast : lastReturnsInThen (es.take i) = true) : ClosesAt es i
  /-- The first nested branch stands at `k`, and the number of else-branches that return between the
  two is odd, where one more is counted if the last branch to return before `k` is a then-branch. -/
  | paired {k : Nat} (hfirst : es.findIdx? nests = some k) (hk : k < i)
      (hodd : Odd ((lastReturnsInThen (es.take k)).toNat +
        ((es.take i).drop (k + 1)).count (.elseBranch true))) : ClosesAt es i

/-- The evidence at index `i` raises the verdict. -/
inductive RaisesAt (es : List Evidence) (i : Nat) : Prop
  | ret (hi : es[i]? = some .ret) : RaisesAt es i
  | loop (hi : es[i]? = some (.loop false)) : RaisesAt es i
  | closing (hi : es[i]? = some (.elseBranch true)) (hcloses : ClosesAt es i) : RaisesAt es i

variable {es : List Evidence} {i k : Nat}

theorem not_nests_of_mem_take (hfirst : es.findIdx? nests = some k) (hi : i ≤ k) :
    ∀ d ∈ es.take i, d.nests = false := by
  obtain ⟨_, _, hbefore⟩ := List.findIdx?_eq_some_iff_getElem.mp hfirst
  intro d hd
  obtain ⟨j, hj, rfl⟩ := List.mem_take_iff_getElem.mp hd
  simpa using hbefore j (by omega)

/-- The evidence before index `i`, split at the first nested branch. -/
theorem exists_take_eq (hfirst : es.findIdx? nests = some k) (hk : k < i) :
    ∃ e, e.nests = true ∧ es.take i = es.take k ++ e :: (es.take i).drop (k + 1) := by
  obtain ⟨hlt, hnests, -⟩ := List.findIdx?_eq_some_iff_getElem.mp hfirst
  have hlen : k < (es.take i).length := by
    rw [List.length_take]
    omega
  refine ⟨es[k], hnests, ?_⟩
  calc es.take i
    _ = (es.take i).take k ++ (es.take i).drop k := (List.take_append_drop k _).symm
    _ = es.take k ++ es[k] :: (es.take i).drop (k + 1) := by
      rw [List.take_take, Nat.min_eq_left (Nat.le_of_lt hk), List.drop_eq_getElem_cons hlen,
        List.getElem_take]

end Evidence

namespace Flow

variable {es : List Evidence} {i k : Nat}

theorem run_take_awaitsElse_of_first (hfirst : es.findIdx? Evidence.nests = some k) (hk : k < i) :
    (run {} (es.take i)).awaitsElse = true ↔
      Odd ((Evidence.lastReturnsInThen (es.take k)).toNat +
        ((es.take i).drop (k + 1)).count (.elseBranch true)) := by
  obtain ⟨e, he, htake⟩ := Evidence.exists_take_eq hfirst hk
  have hbefore := Evidence.not_nests_of_mem_take hfirst (Nat.le_refl k)
  rw [← run_awaitsElse_of_split hbefore he, ← htake]

theorem run_take_awaitsElse_iff :
    (run {} (es.take i)).awaitsElse = true ↔ Evidence.ClosesAt es i := by
  constructor
  · intro hwaits
    have hflat (hes : ∀ e ∈ es.take i, e.nests = false) : Evidence.ClosesAt es i := by
      rw [run_awaitsElse_of_flat hes] at hwaits
      exact .flat hes hwaits
    cases hfirst : es.findIdx? Evidence.nests with
    | none =>
      apply hflat
      intro e he
      exact List.findIdx?_eq_none_iff.mp hfirst e (List.mem_of_mem_take he)
    | some k =>
      rcases Nat.lt_or_ge k i with hk | hk
      · exact .paired hfirst hk ((run_take_awaitsElse_of_first hfirst hk).mp hwaits)
      · exact hflat (Evidence.not_nests_of_mem_take hfirst hk)
  · rintro (⟨hflat, hlast⟩ | ⟨hfirst, hk, hodd⟩)
    · rwa [run_awaitsElse_of_flat hflat]
    · exact (run_take_awaitsElse_of_first hfirst hk).mpr hodd

end Flow

theorem Evidence.raisesAt_iff {es : List Evidence} {i : Nat} :
    RaisesAt es i ↔ ∃ e, es[i]? = some e ∧ (Flow.run {} (es.take i)).raises e = true := by
  constructor
  · rintro (hi | hi | ⟨hi, hcloses⟩)
    · exact ⟨_, hi, rfl⟩
    · exact ⟨_, hi, rfl⟩
    · exact ⟨_, hi, Flow.run_take_awaitsElse_iff.mpr hcloses⟩
  · rintro ⟨e, hi, hraises⟩
    cases e with
    | ret => exact .ret hi
    | loop returns =>
      cases returns with
      | false => exact .loop hi
      | true => cases hraises
    | elseBranch returns =>
      cases returns with
      | false => cases hraises
      | true => exact .closing hi (Flow.run_take_awaitsElse_iff.mp hraises)
    | _ => cases hraises

/-- There is a verdict if and only if the evidence at some index raises it and none behind that
index takes it back. -/
theorem verdict_iff_exists_raisesAt (es : List Evidence) :
    verdict es = true ↔
      ∃ i, Evidence.RaisesAt es i ∧ ∀ e ∈ es.drop (i + 1), e.revokes = false := by
  rw [verdict, Flow.run_returned_iff]
  constructor
  · rintro (⟨hstart, -⟩ | ⟨i, e, hi, hraises, hafter⟩)
    · cases hstart
    · exact ⟨i, Evidence.raisesAt_iff.mpr ⟨e, hi, hraises⟩, hafter⟩
  · rintro ⟨i, hi, hafter⟩
    obtain ⟨e, he, hraises⟩ := Evidence.raisesAt_iff.mp hi
    exact .inr ⟨i, e, he, hraises, hafter⟩

-- One nested branch is enough for the else-branches behind it to count in pairs.
example : verdict [.nestedThen, .elseBranch true] = false ∧
    verdict [.nestedThen, .elseBranch true, .elseBranch true] = true := by
  decide

end ClassLang
