import ClassLang.Proofs.Hierarchy.Subtyping

/-! # Arrays of subclasses

Arrays are compared by their elements, and the elements by assignability. So an array type takes
the arrays of every subclass of what it holds at last, and of nothing else besides its own. -/

namespace ClassLang

/-- Object types, the parent links leading from the class of the second to that of the first in one
step or more. -/
def Ty.ProperlyAbove (classes : List ClassDecl) (t s : Ty) : Prop :=
  ∃ c d : ClassDecl, t = .object c.name ∧ s = .object d.name ∧
    Relation.TransGen (ParentLink classes) d c

theorem Ty.ProperlyAbove.not_isPrimitive {classes : List ClassDecl} {t s : Ty}
    (hts : t.ProperlyAbove classes s) : t.isPrimitive = false ∧ s.isPrimitive = false := by
  obtain ⟨c, d, rfl, rfl, -⟩ := hts
  exact ⟨rfl, rfl⟩

namespace Hierarchy

namespace Arranges

variable {h : Hierarchy} {classes : List ClassDecl} (harr : h.Arranges classes)

include harr

theorem covers_iff {t s : Ty} : h.Covers t s ↔ t = s ∨ t.ProperlyAbove classes s := by
  constructor
  · rintro (rfl | ⟨_, e, rfl, rfl, c, hc, rfl⟩)
    · exact .inl rfl
    · obtain ⟨d, hd, rfl⟩ := List.mem_map.mp (harr.contains_iff.mp (contains_of_mem_ancestors hc))
      rcases Relation.reflTransGen_iff_eq_or_transGen.mp (harr.path_of_mem_ancestors hd hc) with
        rfl | hpath
      · exact .inl rfl
      · exact .inr ⟨c, d, rfl, rfl, hpath⟩
  · rintro (rfl | ⟨c, d, rfl, rfl, hpath⟩)
    · exact .inl rfl
    · obtain ⟨_, ⟨hd, -, -⟩, -⟩ := Relation.TransGen.head'_iff.mp hpath
      exact .inr ⟨c.name, d.name, rfl, rfl, c, harr.mem_ancestors_of_path hd hpath.to_reflTransGen,
        rfl⟩

theorem assignable_array_iff_or {t s : Ty} : h.assignable (.array t) (.array s) = true ↔
    t = s ∨ t.depth = s.depth ∧ t.innermost.ProperlyAbove classes s.innermost := by
  rw [assignable, assignable_iff, harr.covers_iff]
  constructor
  · rintro ⟨hdepth, hinner | habove⟩
    · exact .inl (Ty.eq_of_depth_innermost hdepth hinner)
    · exact .inr ⟨hdepth, habove⟩
  · rintro (rfl | ⟨hdepth, habove⟩)
    · exact ⟨rfl, .inl rfl⟩
    · exact ⟨hdepth, .inr habove⟩

theorem name_ne_of_parentLink {c d : ClassDecl} (hlink : ParentLink classes c d) :
    c.name ≠ d.name := by
  intro hname
  obtain rfl := List.inj_on_of_nodup_map harr.nodup hlink.1 hlink.2.1 hname
  exact (harr.rooted hlink.1).not_on_cycle harr.nodup (.single hlink)

/-- Strictness fails with the first class that has a parent. -/
theorem strict_arrays_iff :
    (∀ t s, h.assignable (.array t) (.array s) = true ↔ t = s) ↔
      ∀ c ∈ classes, c.parent = none := by
  simp only [harr.assignable_array_iff_or]
  constructor
  · intro hstrict c hc
    cases hp : c.parent with
    | none => rfl
    | some p =>
      obtain ⟨d, hd, rfl⟩ := (harr.rooted hc).exists_parent hp
      have hlink : ParentLink classes c d := ⟨hc, hd.mem, hp⟩
      have heq : Ty.object d.name = .object c.name :=
        (hstrict _ _).mp (.inr ⟨rfl, d, c, rfl, rfl, .single hlink⟩)
      exact absurd (Ty.object.inj heq).symm (harr.name_ne_of_parentLink hlink)
  · intro hroots t s
    constructor
    · rintro (heq | ⟨-, c, d, -, -, hpath⟩)
      · exact heq
      · obtain ⟨_, ⟨hd, -, hp⟩, -⟩ := Relation.TransGen.head'_iff.mp hpath
        rw [hroots d hd] at hp
        cases hp
    · exact .inl

end Arranges

/-- In a built hierarchy an array type takes the arrays of its own element type, and the arrays of
as many dimensions that hold a proper subclass at last. So different array types are compatible in
one direction at most, those of primitive types in none, and arrays are compared strictly by the
hierarchies without inheritance and by no others. -/
theorem assignable_array_iff {classes : List ClassDecl} {h : Hierarchy}
    (hbuild : build classes = .ok h) :
    (∀ t s, h.assignable (.array t) (.array s) = true ↔
      t = s ∨ t.depth = s.depth ∧ t.innermost.ProperlyAbove classes s.innermost) ∧
    (∀ t s, t ≠ s → ¬ (h.assignable (.array t) (.array s) = true ∧
      h.assignable (.array s) (.array t) = true)) ∧
    (∀ t s, (t.innermost.isPrimitive = true ∨ s.innermost.isPrimitive = true) →
      (h.assignable (.array t) (.array s) = true ↔ t = s)) ∧
    ((∀ t s, h.assignable (.array t) (.array s) = true ↔ t = s) ↔
      ∀ c ∈ classes, c.parent = none) := by
  have harr := arranges_of_build hbuild
  refine ⟨fun _ _ => harr.assignable_array_iff_or, ?_, ?_, harr.strict_arrays_iff⟩
  · rintro t s hne ⟨hts, hst⟩
    exact hne (Ty.array.inj (harr.assignable_antisymm hts hst))
  · intro t s hprimitive
    rw [harr.assignable_array_iff_or]
    refine ⟨?_, .inl⟩
    rintro (heq | ⟨-, habove⟩)
    · exact heq
    · obtain ⟨ht, hs⟩ := habove.not_isPrimitive
      simp [ht, hs] at hprimitive

/-- A matrix of integers takes no matrix of flags. -/
theorem tree_array_iff :
    build [leaf, trunk, twig, branch] = .ok ⟨[twig, leaf, branch, trunk]⟩ ∧
      assignable ⟨[twig, leaf, branch, trunk]⟩ (.array (.array .int)) (.array (.array .bool)) =
        false := by
  obtain ⟨-, -, hprimitive, -⟩ := assignable_array_iff build_tree
  refine ⟨build_tree, ?_⟩
  rw [Bool.eq_false_iff, ne_eq, hprimitive _ _ (.inl rfl)]
  decide

/-- An array of trunks takes an array of leaves, though these are different element types, and not
the other way round. -/
theorem tree_arrays_not_strict :
    build [leaf, trunk, twig, branch] = .ok ⟨[twig, leaf, branch, trunk]⟩ ∧
      Ty.object trunk.name ≠ .object leaf.name ∧
      assignable ⟨[twig, leaf, branch, trunk]⟩ (.array (.object trunk.name))
        (.array (.object leaf.name)) = true ∧
      assignable ⟨[twig, leaf, branch, trunk]⟩ (.array (.object leaf.name))
        (.array (.object trunk.name)) = false :=
  ⟨build_tree, by decide, by decide, by decide⟩

end Hierarchy
end ClassLang
