import ClassLang.Proofs.Hierarchy.Outcome

/-! # Chains of ancestors

In a built hierarchy a class is followed by the chain of its parent. The chain is thus told by the
parent links alone, whatever the order in which the classes were placed. -/

namespace ClassLang

theorem exists_of_mem_chain {name : String} {placed : List ClassDecl} {d : ClassDecl}
    (hd : d ∈ chain name placed) : ∃ c ∈ placed, c.name = name := by
  induction placed with
  | nil => simp at hd
  | cons c earlier ih =>
    by_cases hc : c.name = name
    · exact ⟨c, List.mem_cons_self, hc⟩
    · rw [chain_of_name_ne hc] at hd
      obtain ⟨e, he, hname⟩ := ih hd
      exact ⟨e, List.mem_cons_of_mem c he, hname⟩

theorem chain_append_of_forall_ne {name : String} {later : List ClassDecl}
    (hlater : ∀ c ∈ later, c.name ≠ name) (earlier : List ClassDecl) :
    chain name (later ++ earlier) = chain name earlier := by
  induction later with
  | nil => rfl
  | cons c later ih =>
    rw [List.cons_append, chain_of_name_ne (hlater c List.mem_cons_self)]
    exact ih fun d hd => hlater d (List.mem_cons_of_mem c hd)

theorem Rooted.exists_parent {classes : List ClassDecl} {c : ClassDecl} {p : String}
    (hc : Rooted classes c) (hp : c.parent = some p) : ∃ d, Rooted classes d ∧ d.name = p := by
  cases hc with
  | root _ hroot =>
    rw [hroot] at hp
    cases hp
  | child _ hlink hd => exact ⟨_, hd, Option.some.inj (hlink.symm.trans hp)⟩

/-- Parents are placed first, so the classes placed after a class do not stand in its chain. -/
theorem chain_of_mem {placed : List ClassDecl} (horder : ParentsFirst placed)
    (hnodup : (placed.map (·.name)).Nodup) {c : ClassDecl} (hc : c ∈ placed) :
    chain c.name placed = c :: c.parent.elim [] fun p => chain p placed := by
  induction placed with
  | nil => simp at hc
  | cons d earlier ih =>
    obtain ⟨hready, horder⟩ := horder
    rw [List.map_cons, List.nodup_cons] at hnodup
    obtain ⟨hfresh, hnodup⟩ := hnodup
    have hskip {e : ClassDecl} (he : e ∈ earlier) :
        chain e.name (d :: earlier) = chain e.name earlier :=
      chain_of_name_ne (fun hname => hfresh (hname ▸ List.mem_map_of_mem he)) earlier
    rcases List.mem_cons.mp hc with rfl | hc
    · cases hp : c.parent with
      | none => exact chain_of_root hp earlier
      | some p =>
        obtain ⟨e, he, rfl⟩ := ClassDecl.isReady_iff.mp hready p hp
        rw [chain_of_parent hp, Option.elim_some, hskip he]
    · rw [hskip hc, ih horder hnodup hc]
      cases hp : c.parent with
      | none => rfl
      | some p =>
        have hroot := rooted_of_mem_placed horder (List.Subset.refl earlier) hc
        obtain ⟨e, he, rfl⟩ := hroot.exists_parent hp
        rw [Option.elim_some, Option.elim_some, hskip he.mem]

namespace Hierarchy

theorem contains_of_mem_ancestors {h : Hierarchy} {c : String} {d : ClassDecl}
    (hd : d ∈ h.ancestors c) : h.contains c = true :=
  contains_iff.mpr (exists_of_mem_chain hd)

namespace Arranges

variable {h : Hierarchy} {classes : List ClassDecl} {c : ClassDecl}

theorem contains_iff (harr : h.Arranges classes) {name : String} :
    h.contains name = true ↔ name ∈ classes.map (·.name) := by
  rw [Hierarchy.contains_iff, List.mem_map]
  simp only [harr.perm.mem_iff]

theorem rooted (harr : h.Arranges classes) (hc : c ∈ classes) : Rooted classes c :=
  rooted_of_mem_placed harr.parentsFirst harr.perm.subset (harr.perm.mem_iff.mpr hc)

theorem ancestors_eq (harr : h.Arranges classes) (hc : c ∈ classes) :
    h.ancestors c.name = c :: c.parent.elim [] h.ancestors := by
  have hnodup : (h.placed.map (·.name)).Nodup := (harr.perm.map _).nodup_iff.mpr harr.nodup
  exact chain_of_mem harr.parentsFirst hnodup (harr.perm.mem_iff.mpr hc)

theorem ancestors_of_root (harr : h.Arranges classes) (hc : c ∈ classes) (hp : c.parent = none) :
    h.ancestors c.name = [c] := by
  rw [harr.ancestors_eq hc, hp, Option.elim_none]

theorem ancestors_of_parent (harr : h.Arranges classes) (hc : c ∈ classes) {p : String}
    (hp : c.parent = some p) : h.ancestors c.name = c :: h.ancestors p := by
  rw [harr.ancestors_eq hc, hp, Option.elim_some]

/-- The chain of a class holds whatever its parent links lead to. -/
theorem mem_ancestors_of_path (harr : h.Arranges classes) (hc : c ∈ classes) {d : ClassDecl}
    (hpath : Relation.ReflTransGen (ParentLink classes) c d) : d ∈ h.ancestors c.name := by
  induction hpath using Relation.ReflTransGen.head_induction_on with
  | refl =>
    rw [harr.ancestors_eq hc]
    exact List.mem_cons_self
  | head hlink _ ih =>
    obtain ⟨-, hd, hp⟩ := hlink
    rw [harr.ancestors_of_parent hc hp]
    exact List.mem_cons_of_mem _ (ih hd)

theorem path_of_mem_ancestors (harr : h.Arranges classes) (hc : c ∈ classes) {d : ClassDecl}
    (hd : d ∈ h.ancestors c.name) : Relation.ReflTransGen (ParentLink classes) c d := by
  induction harr.rooted hc with
  | @root c hc hp =>
    rw [harr.ancestors_of_root hc hp, List.mem_singleton] at hd
    rw [hd]
  | @child c e hc hp he ih =>
    rw [harr.ancestors_of_parent hc hp] at hd
    rcases List.mem_cons.mp hd with rfl | hd
    · exact .refl
    · exact .head ⟨hc, he.mem, hp⟩ (ih he.mem hd)

/-- The chain of a class holds only classes that stand before it in the order, besides itself. -/
theorem mem_of_mem_ancestors (harr : h.Arranges classes) {before after : List ClassDecl}
    (horder : h.order = before ++ c :: after) {d : ClassDecl} (hd : d ∈ h.ancestors c.name) :
    d ∈ before ∨ d = c := by
  have hplaced : h.placed = after.reverse ++ c :: before.reverse := by
    rw [← List.reverse_reverse h.placed]
    change h.order.reverse = _
    simp [horder]
  have hnodup : (h.placed.map (·.name)).Nodup := (harr.perm.map _).nodup_iff.mpr harr.nodup
  have hafter : ∀ e ∈ after.reverse, e.name ≠ c.name := by
    intro e he
    rw [hplaced, List.map_append, List.map_cons] at hnodup
    exact fun hname => (List.nodup_append.mp hnodup).2.2 _ (List.mem_map_of_mem he) _
      List.mem_cons_self hname
  rw [ancestors, hplaced, chain_append_of_forall_ne hafter] at hd
  rcases List.mem_cons.mp (mem_of_mem_chain hd) with rfl | hd
  · exact .inr rfl
  · exact .inl (List.mem_reverse.mp hd)

end Arranges

/-- Building succeeds if and only if the names are unique and every class has a root. -/
theorem exists_build_iff {classes : List ClassDecl} :
    (∃ h, build classes = .ok h) ↔
      (classes.map (·.name)).Nodup ∧ ∀ c ∈ classes, Rooted classes c := by
  constructor
  · rintro ⟨h, hbuild⟩
    have harr := arranges_of_build hbuild
    exact ⟨harr.nodup, fun c hc => harr.rooted hc⟩
  · rintro ⟨hnodup, hroots⟩
    have hparents : ∀ c ∈ classes, c.ParentDeclared classes := by
      intro c hc p hp
      obtain ⟨d, hd, rfl⟩ := (hroots c hc).exists_parent hp
      exact List.mem_map_of_mem hd.mem
    have hnone : unrooted classes = [] := by
      rw [List.eq_nil_iff_forall_not_mem]
      intro c hc
      obtain ⟨hmem, hroot⟩ := mem_unrooted.mp hc
      exact hroot (hroots c hmem)
    obtain ⟨h, -, hbuild⟩ := build_eq_of_declared hnodup hparents
    exact ⟨h, by rw [hbuild, if_pos hnone]⟩

end Hierarchy
end ClassLang
