import ClassLang.Hierarchy.Assignable
import ClassLang.Proofs.Hierarchy.Ancestry

/-! # Assignability as an order

A type is made of a number of arrays and of what they hold at last. Assignability compares the
numbers for equality, and what is held at last by the walks of the hierarchy, so it is as good an
order of the types as the hierarchy is of the classes. -/

namespace ClassLang

namespace Ty

/-- The number of arrays around the innermost type. -/
def depth : Ty → Nat
  | array t => t.depth + 1
  | int | bool | object _ => 0

/-- The type without the arrays around it. -/
def innermost : Ty → Ty
  | array t => t.innermost
  | t => t

theorem eq_of_depth_innermost {t s : Ty} (hdepth : t.depth = s.depth)
    (hinner : t.innermost = s.innermost) : t = s := by
  induction t generalizing s with
  | int | bool | object c => cases s <;> simp_all [depth, innermost]
  | array t ih =>
    cases s with
    | array s =>
      have hdepth' : t.depth = s.depth := by simpa [depth] using hdepth
      rw [ih hdepth' hinner]
    | int | bool | object d => simp [depth] at hdepth

end Ty

namespace Hierarchy

/-- The same type, or object types with the class of the first on the walk from that of the
second. -/
def Covers (h : Hierarchy) (t s : Ty) : Prop :=
  t = s ∨ ∃ c d, t = .object c ∧ s = .object d ∧ ∃ k ∈ h.ancestors d, k.name = c

theorem covers_object_iff {h : Hierarchy} {c d : String} :
    h.Covers (.object c) (.object d) ↔ c = d ∨ h.isAncestorOrSelf c d = true := by
  rw [isAncestorOrSelf_iff]
  constructor
  · rintro (heq | ⟨_, _, ⟨⟩, ⟨⟩, hk⟩)
    · exact .inl (Ty.object.inj heq)
    · exact .inr hk
  · rintro (rfl | hk)
    · exact .inl rfl
    · exact .inr ⟨c, d, rfl, rfl, hk⟩

/-- The arrays have to be the same, and the innermost types decide. -/
theorem assignable_iff {h : Hierarchy} {t s : Ty} :
    h.assignable t s = true ↔ t.depth = s.depth ∧ h.Covers t.innermost s.innermost := by
  induction t generalizing s with
  | int | bool => cases s <;> simp [assignable, Ty.depth, Ty.innermost, Covers]
  | object c =>
    cases s with
    | object d => simp [assignable, Ty.depth, Ty.innermost, covers_object_iff]
    | int | bool | array s => simp [assignable, Ty.depth, Ty.innermost, Covers]
  | array t ih =>
    cases s with
    | array s => simp [assignable, Ty.depth, Ty.innermost, ih]
    | int | bool | object d => simp [assignable, Ty.depth]

namespace Arranges

variable {h : Hierarchy} {classes : List ClassDecl} (harr : h.Arranges classes)

include harr

theorem covers_trans {t u v : Ty} (htu : h.Covers t u) (huv : h.Covers u v) : h.Covers t v := by
  rcases htu with rfl | ⟨b, c, rfl, rfl, hbc⟩
  · exact huv
  · rcases huv with rfl | ⟨_, d, ⟨⟩, rfl, hcd⟩
    · exact .inr ⟨b, c, rfl, rfl, hbc⟩
    · rw [← isAncestorOrSelf_iff] at hbc hcd
      rw [covers_object_iff]
      exact .inr (harr.isAncestorOrSelf_trans hbc hcd)

theorem covers_antisymm {t s : Ty} (hts : h.Covers t s) (hst : h.Covers s t) : t = s := by
  rcases hts with rfl | ⟨c, d, rfl, rfl, hcd⟩
  · rfl
  · rw [← isAncestorOrSelf_iff] at hcd
    rcases covers_object_iff.mp hst with rfl | hdc
    · rfl
    · rw [harr.isAncestorOrSelf_antisymm hcd hdc]

theorem assignable_trans {t u v : Ty} (htu : h.assignable t u = true)
    (huv : h.assignable u v = true) : h.assignable t v = true := by
  rw [assignable_iff] at htu huv ⊢
  exact ⟨htu.1.trans huv.1, harr.covers_trans htu.2 huv.2⟩

theorem assignable_antisymm {t s : Ty} (hts : h.assignable t s = true)
    (hst : h.assignable s t = true) : t = s := by
  rw [assignable_iff] at hts hst
  exact Ty.eq_of_depth_innermost hts.1 (harr.covers_antisymm hts.2 hst.2)

/-- The walks from two children go the same way from the parent on. A child on the walk from the
other would stand on its own walk a second time. -/
theorem not_isAncestorOrSelf_of_sibling {c d : ClassDecl} (hc : c ∈ classes) (hd : d ∈ classes)
    (hne : c ≠ d) (hparent : c.parent = d.parent) : h.isAncestorOrSelf c.name d.name = false := by
  apply Bool.eq_false_iff.mpr
  intro hcd
  obtain ⟨k, hk, hname⟩ := isAncestorOrSelf_iff.mp hcd
  rw [harr.ancestors_eq hd, ← hparent] at hk
  rcases List.mem_cons.mp hk with rfl | hk
  · exact hne (List.inj_on_of_nodup_map harr.nodup hc hd hname.symm)
  · have hnodup := harr.nodup_ancestors c.name
    rw [harr.ancestors_eq hc, List.map_cons, List.nodup_cons] at hnodup
    exact hnodup.1 (hname ▸ List.mem_map_of_mem hk)

theorem comparable_of_sibling {c d : ClassDecl} (hc : c ∈ classes) (hd : d ∈ classes)
    (hne : c ≠ d) (hparent : c.parent = d.parent) :
    h.comparable (.object c.name) (.object d.name) = false := by
  have hname : c.name ≠ d.name := fun heq => hne (List.inj_on_of_nodup_map harr.nodup hc hd heq)
  have hcd := harr.not_isAncestorOrSelf_of_sibling hc hd hne hparent
  have hdc := harr.not_isAncestorOrSelf_of_sibling hd hc hne.symm hparent.symm
  simp [comparable, assignable, hname, hname.symm, hcd, hdc]

end Arranges

/-- In a built hierarchy assignability is a partial order of all types, also of those that name
undeclared classes. It compares the arrays and then the innermost types, by the walks of the
hierarchy, so of two classes at most one is below the other, and of two siblings none. -/
theorem assignable_partialOrder {classes : List ClassDecl} {h : Hierarchy}
    (hbuild : build classes = .ok h) :
    (∀ t, h.assignable t t = true) ∧
    (∀ t u v, h.assignable t u = true → h.assignable u v = true → h.assignable t v = true) ∧
    (∀ t s, h.assignable t s = true → h.assignable s t = true → t = s) ∧
    (∀ t s, h.assignable t s = true ↔ t.depth = s.depth ∧ h.Covers t.innermost s.innermost) ∧
    (∀ c ∈ classes, ∀ d ∈ classes, c ≠ d →
      ¬ (h.assignable (.object c.name) (.object d.name) = true ∧
        h.assignable (.object d.name) (.object c.name) = true)) ∧
    (∀ c ∈ classes, ∀ d ∈ classes, c ≠ d → c.parent = d.parent →
      h.comparable (.object c.name) (.object d.name) = false) := by
  have harr := arranges_of_build hbuild
  refine ⟨h.assignable_self, ?_, ?_, fun _ _ => assignable_iff, ?_, ?_⟩
  · exact fun _ _ _ htu huv => harr.assignable_trans htu huv
  · exact fun _ _ hts hst => harr.assignable_antisymm hts hst
  · rintro c hc d hd hne ⟨hcd, hdc⟩
    have hname : c.name = d.name := Ty.object.inj (harr.assignable_antisymm hcd hdc)
    exact hne (List.inj_on_of_nodup_map harr.nodup hc hd hname)
  · exact fun _ hc _ hd hne hparent => harr.comparable_of_sibling hc hd hne hparent

theorem tree_not_comparable :
    build [leaf, trunk, twig, branch] = .ok ⟨[twig, leaf, branch, trunk]⟩ ∧
      leaf ≠ twig ∧ leaf.parent = twig.parent ∧
      comparable ⟨[twig, leaf, branch, trunk]⟩ (.object leaf.name) (.object twig.name) = false := by
  have hne : leaf ≠ twig := fun heq => absurd (congrArg ClassDecl.name heq) (by decide)
  obtain ⟨-, -, -, -, -, hsiblings⟩ := assignable_partialOrder build_tree
  exact ⟨build_tree, hne, rfl, hsiblings leaf (by simp) twig (by simp) hne rfl⟩

end Hierarchy
end ClassLang
