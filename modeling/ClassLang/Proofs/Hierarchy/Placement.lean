import ClassLang.Hierarchy.Rooted

/-! # Placing classes in sweeps

A sweep neither loses nor repeats a class, and it keeps the placed classes parents first. Sweeping
therefore ends with the classes split in two: those placed, each of which has a root above it, and
those stuck, none of which has one. -/

namespace ClassLang

theorem sweep_perm (placed waiting : List ClassDecl) :
    ((sweep placed waiting).1 ++ (sweep placed waiting).2).Perm (placed ++ waiting) := by
  induction waiting generalizing placed with
  | nil => simp [sweep]
  | cons c waiting ih =>
    by_cases hc : c.isReady placed = true
    · rw [sweep_of_ready hc]
      exact (ih (c :: placed)).trans List.perm_middle.symm
    · rw [sweep_of_not_ready (by simpa using hc)]
      exact List.perm_middle.trans (((ih placed).cons c).trans List.perm_middle.symm)

theorem sweep_sublist (placed waiting : List ClassDecl) :
    (sweep placed waiting).2.Sublist waiting := by
  induction waiting generalizing placed with
  | nil => simp [sweep]
  | cons c waiting ih =>
    by_cases hc : c.isReady placed = true
    · rw [sweep_of_ready hc]
      exact (ih (c :: placed)).cons c
    · rw [sweep_of_not_ready (by simpa using hc)]
      exact (ih placed).cons_cons c

theorem sweep_parentsFirst {placed : List ClassDecl} (h : ParentsFirst placed)
    (waiting : List ClassDecl) : ParentsFirst (sweep placed waiting).1 := by
  induction waiting generalizing placed with
  | nil => exact h
  | cons c waiting ih =>
    by_cases hc : c.isReady placed = true
    · rw [sweep_of_ready hc]
      exact ih ⟨hc, h⟩
    · rw [sweep_of_not_ready (by simpa using hc)]
      exact ih h

/-- A sweep after which as many classes wait as before has found none of them ready. -/
theorem not_ready_of_sweep {placed waiting : List ClassDecl}
    (h : waiting.length ≤ (sweep placed waiting).2.length) :
    (sweep placed waiting).1 = placed ∧ ∀ c ∈ waiting, c.isReady placed = false := by
  induction waiting generalizing placed with
  | nil => simp [sweep]
  | cons c waiting ih =>
    by_cases hc : c.isReady placed = true
    · rw [sweep_of_ready hc, List.length_cons] at h
      have hle := (sweep_sublist (c :: placed) waiting).length_le
      omega
    · have hc' : c.isReady placed = false := by simpa using hc
      rw [sweep_of_not_ready hc'] at h ⊢
      obtain ⟨hplaced, hwaiting⟩ := ih (by simpa using h)
      refine ⟨hplaced, ?_⟩
      intro d hd
      rcases List.mem_cons.mp hd with rfl | hd
      · exact hc'
      · exact hwaiting d hd

/-- The declarations split into placed classes, latest first, and classes that wait in source
order. -/
structure Placement (classes placed waiting : List ClassDecl) : Prop where
  perm : (placed ++ waiting).Perm classes
  sublist : waiting.Sublist classes
  parentsFirst : ParentsFirst placed

namespace Placement

variable {classes placed waiting : List ClassDecl}

theorem start (classes : List ClassDecl) : Placement classes [] classes :=
  ⟨List.Perm.refl _, List.Sublist.refl _, trivial⟩

protected theorem sweep (h : Placement classes placed waiting) :
    Placement classes (sweep placed waiting).1 (sweep placed waiting).2 where
  perm := (sweep_perm placed waiting).trans h.perm
  sublist := (sweep_sublist placed waiting).trans h.sublist
  parentsFirst := sweep_parentsFirst h.parentsFirst waiting

theorem mem_iff (h : Placement classes placed waiting) (c : ClassDecl) :
    c ∈ classes ↔ c ∈ placed ∨ c ∈ waiting := by
  rw [← h.perm.mem_iff, List.mem_append]

end Placement

/-- Sweeping ends in a placement in which no waiting class is ready. It has succeeded if none
waits, and has found a cycle otherwise. -/
theorem exists_settled {classes placed waiting : List ClassDecl}
    (h : Placement classes placed waiting) :
    ∃ placed' stuck, Placement classes placed' stuck ∧
      (∀ c ∈ stuck, c.isReady placed' = false) ∧
      settle placed waiting = if stuck = [] then .ok placed'
        else .error ⟨.cyclicHierarchy (stuck.map (·.name)), .program⟩ := by
  -- Every sweep that goes on leaves fewer classes waiting.
  induction placed, waiting using settle.induct with
  | case1 placed waiting hempty =>
    have hnil : waiting = [] := by simpa using hempty
    subst hnil
    exact ⟨placed, [], h, by simp, by simp [settle]⟩
  | case2 placed waiting hempty next hlt ih =>
    obtain ⟨placed', stuck, hplace, hready, hsettle⟩ := ih h.sweep
    refine ⟨placed', stuck, hplace, hready, ?_⟩
    rw [settle, if_neg hempty]
    exact (if_pos hlt).trans hsettle
  | case3 placed waiting hempty next hlt =>
    have hle : waiting.length ≤ (sweep placed waiting).2.length := Nat.le_of_not_lt hlt
    have hwaiting : (sweep placed waiting).2 = waiting :=
      (sweep_sublist placed waiting).eq_of_length_le hle
    have hnil : waiting ≠ [] := by simpa using hempty
    refine ⟨placed, waiting, h, (not_ready_of_sweep hle).2, ?_⟩
    rw [settle, if_neg hempty, if_neg hnil]
    apply (if_neg hlt).trans
    rw [hwaiting]

theorem rooted_of_mem_placed {classes placed : List ClassDecl} (horder : ParentsFirst placed)
    (hsub : placed ⊆ classes) {c : ClassDecl} (hc : c ∈ placed) : Rooted classes c := by
  induction placed generalizing c with
  | nil => simp at hc
  | cons d earlier ih =>
    obtain ⟨hready, horder⟩ := horder
    have hearlier : earlier ⊆ classes := fun _ he => hsub (List.mem_cons_of_mem _ he)
    rcases List.mem_cons.mp hc with rfl | hc
    · cases hp : c.parent with
      | none => exact .root (hsub List.mem_cons_self) hp
      | some p =>
        obtain ⟨d, hd, rfl⟩ := ClassDecl.isReady_iff.mp hready p hp
        exact .child (hsub List.mem_cons_self) hp (ih horder hearlier hd)
    · exact ih horder hearlier hc

theorem Placement.not_rooted_of_stuck {classes placed stuck : List ClassDecl}
    (h : Placement classes placed stuck) (hready : ∀ c ∈ stuck, c.isReady placed = false)
    {c : ClassDecl} (hc : c ∈ stuck) : ¬ Rooted classes c := by
  intro hroot
  induction hroot with
  | root _ hp =>
    have hr := hready _ hc
    simp [ClassDecl.isReady, hp] at hr
  | @child c d _ hp hd ih =>
    -- The parent has a root, so it is not stuck; it is placed, and the class is ready.
    have hplaced : d ∈ placed := ((h.mem_iff d).mp hd.mem).resolve_right ih
    have hr : c.isReady placed = true := ClassDecl.isReady_iff.mpr fun p hp' => by
      rw [hp] at hp'
      exact ⟨d, hplaced, Option.some.inj hp'⟩
    rw [hready c hc] at hr
    exact Bool.false_ne_true hr

end ClassLang
