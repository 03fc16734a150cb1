import ClassLang.Proofs.Hierarchy.Chains

/-! # Hierarchies within hierarchies

Other classes see of a class its name, its parent, the types of its fields and the signatures of
its methods. A hierarchy lies within another one if all that is seen in it is seen there too. -/

namespace ClassLang

/-- Other classes see the same of both. -/
structure ClassDecl.Resembles (c d : ClassDecl) : Prop where
  name : d.name = c.name
  parent : d.parent = c.parent
  fieldType : ∀ x, (d.field? x).map (·.ty) = (c.field? x).map (·.ty)
  signature : ∀ m, (d.method? m).map (·.toSignature) = (c.method? m).map (·.toSignature)

theorem ClassDecl.Resembles.refl (c : ClassDecl) : c.Resembles c :=
  ⟨rfl, rfl, fun _ => rfl, fun _ => rfl⟩

theorem ClassDecl.Resembles.symm {c d : ClassDecl} (hcd : c.Resembles d) : d.Resembles c where
  name := hcd.name.symm
  parent := hcd.parent.symm
  fieldType := fun x => (hcd.fieldType x).symm
  signature := fun m => (hcd.signature m).symm

/-- Like classes have their roots in like classes. -/
theorem Rooted.resembles {classes classes' : List ClassDecl}
    (hcover : ∀ c ∈ classes, ∃ d ∈ classes', c.Resembles d) {c : ClassDecl}
    (hc : Rooted classes c) {d : ClassDecl} (hd : d ∈ classes') (hcd : c.Resembles d) :
    Rooted classes' d := by
  induction hc generalizing d with
  | root _ hp => exact .root hd (hcd.parent.trans hp)
  | @child c e _ hp he ih =>
    obtain ⟨f, hf, hef⟩ := hcover e he.mem
    apply Rooted.child hd _ (ih hf hef)
    rw [hcd.parent, hp, hef.name]

theorem ClassDecl.Resembles.map_name {classes classes' : List ClassDecl}
    (hall : List.Forall₂ ClassDecl.Resembles classes classes') :
    classes'.map (·.name) = classes.map (·.name) := by
  induction hall with
  | nil => rfl
  | cons hcd _ ih => rw [List.map_cons, List.map_cons, hcd.name, ih]

theorem exists_mem_of_forall₂ {α β : Type} {R : α → β → Prop} {as : List α} {bs : List β}
    (hall : List.Forall₂ R as bs) {a : α} (ha : a ∈ as) : ∃ b ∈ bs, R a b := by
  induction hall with
  | nil => simp at ha
  | @cons a' b as bs hab _ ih =>
    rcases List.mem_cons.mp ha with rfl | ha
    · exact ⟨b, List.mem_cons_self, hab⟩
    · obtain ⟨b', hb', hab'⟩ := ih ha
      exact ⟨b', List.mem_cons_of_mem b hb', hab'⟩

/-- What like classes show of a member, chains of like classes show of the nearest one. -/
theorem map_findSome?_of_forall₂ {α β : Type} {member : ClassDecl → Option α} {view : α → β}
    (hview : ∀ c d, c.Resembles d → (member d).map view = (member c).map view)
    {cs ds : List ClassDecl} (hcs : List.Forall₂ ClassDecl.Resembles cs ds) :
    (ds.findSome? member).map view = (cs.findSome? member).map view := by
  induction hcs with
  | nil => rfl
  | @cons c d cs ds hcd _ ih =>
    have hmember := hview c d hcd
    rw [List.findSome?_cons, List.findSome?_cons]
    cases hc : member c with
    | none => simp_all
    | some a =>
      rw [hc, Option.map_some, Option.map_eq_some_iff] at hmember
      obtain ⟨b, hd, hb⟩ := hmember
      simp [hd, hb]

namespace Hierarchy

/-- What is seen in the hierarchy is seen alike in the other one, which may hold more. -/
structure Embeds (h h' : Hierarchy) : Prop where
  contains : ∀ {c}, h.contains c = true → h'.contains c = true
  isAncestorOrSelf : ∀ {a c}, h.isAncestorOrSelf a c = true → h'.isAncestorOrSelf a c = true
  field? : ∀ {c x f}, h.field? c x = some f → ∃ f', h'.field? c x = some f' ∧ f'.ty = f.ty
  method? : ∀ {c m d}, h.method? c m = some d →
    ∃ d', h'.method? c m = some d' ∧ d'.toSignature = d.toSignature

namespace Arranges

variable {h h' : Hierarchy} {classes classes' : List ClassDecl}

/-- Chains run in parallel: like classes have parents of the same name. -/
theorem forall₂_ancestors (harr : h.Arranges classes) (harr' : h'.Arranges classes')
    (hcover : ∀ c ∈ classes, ∃ d ∈ classes', c.Resembles d) {c : ClassDecl} (hc : c ∈ classes) :
    List.Forall₂ ClassDecl.Resembles (h.ancestors c.name) (h'.ancestors c.name) := by
  induction harr.rooted hc with
  | @root c hc hp =>
    obtain ⟨d, hd, hcd⟩ := hcover c hc
    rw [harr.ancestors_of_root hc hp, ← hcd.name,
      harr'.ancestors_of_root hd (hcd.parent.trans hp)]
    exact .cons hcd .nil
  | @child c e hc hp he ih =>
    obtain ⟨d, hd, hcd⟩ := hcover c hc
    rw [harr.ancestors_of_parent hc hp, ← hcd.name,
      harr'.ancestors_of_parent hd (hcd.parent.trans hp)]
    exact .cons hcd (ih he.mem)

theorem embeds (harr : h.Arranges classes) (harr' : h'.Arranges classes')
    (hcover : ∀ c ∈ classes, ∃ d ∈ classes', c.Resembles d) : h.Embeds h' := by
  have hchain {name : String} {d : ClassDecl} (hd : d ∈ h.ancestors name) :
      List.Forall₂ ClassDecl.Resembles (h.ancestors name) (h'.ancestors name) := by
    obtain ⟨c, hc, rfl⟩ := List.mem_map.mp (harr.contains_iff.mp (contains_of_mem_ancestors hd))
    exact harr.forall₂_ancestors harr' hcover hc
  refine ⟨?_, ?_, ?_, ?_⟩
  · intro c hc
    obtain ⟨k, hk, rfl⟩ := List.mem_map.mp (harr.contains_iff.mp hc)
    obtain ⟨d, hd, hkd⟩ := hcover k hk
    exact harr'.contains_iff.mpr (hkd.name ▸ List.mem_map_of_mem hd)
  · intro a c ha
    rw [isAncestorOrSelf_iff] at ha ⊢
    obtain ⟨k, hk, rfl⟩ := ha
    obtain ⟨d, hd, hkd⟩ := exists_mem_of_forall₂ (hchain hk) hk
    exact ⟨d, hd, hkd.name⟩
  · intro c x f hf
    obtain ⟨k, hk, -⟩ := List.exists_of_findSome?_eq_some hf
    have hview := map_findSome?_of_forall₂ (fun _ _ hcd => hcd.fieldType x) (hchain hk)
    rw [show (h.ancestors c).findSome? (·.field? x) = some f from hf] at hview
    exact Option.map_eq_some_iff.mp hview
  · intro c m d hd
    obtain ⟨k, hk, -⟩ := List.exists_of_findSome?_eq_some hd
    have hview := map_findSome?_of_forall₂ (fun _ _ hcd => hcd.signature m) (hchain hk)
    rw [show (h.ancestors c).findSome? (·.method? m) = some d from hd] at hview
    exact Option.map_eq_some_iff.mp hview

end Arranges

/-- Classes that resemble those of a hierarchy, one by one, make up a hierarchy that shows the
same. -/
theorem exists_build_of_resembles {classes classes' : List ClassDecl} {h : Hierarchy}
    (hbuild : build classes = .ok h) (hnodup : (classes'.map (·.name)).Nodup)
    (hcover : ∀ c ∈ classes, ∃ d ∈ classes', c.Resembles d)
    (hback : ∀ d ∈ classes', ∃ c ∈ classes, c.Resembles d) :
    ∃ h', build classes' = .ok h' ∧ h.Embeds h' ∧ h'.Embeds h := by
  have harr := arranges_of_build hbuild
  have hroots : ∀ d ∈ classes', Rooted classes' d := by
    intro d hd
    obtain ⟨c, hc, hcd⟩ := hback d hd
    exact (harr.rooted hc).resembles hcover hd hcd
  obtain ⟨h', hbuild'⟩ := exists_build_iff.mpr ⟨hnodup, hroots⟩
  have harr' := arranges_of_build hbuild'
  refine ⟨h', hbuild', harr.embeds harr' hcover, harr'.embeds harr ?_⟩
  intro d hd
  obtain ⟨c, hc, hcd⟩ := hback d hd
  exact ⟨c, hc, hcd.symm⟩

end Hierarchy
end ClassLang
