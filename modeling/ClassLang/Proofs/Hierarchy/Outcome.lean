import ClassLang.Proofs.Hierarchy.Placement
import Mathlib.Data.Fintype.Card
import Mathlib.Data.List.Nodup
import Mathlib.Data.Set.Finite.Basic
import Mathlib.Logic.Relation
import Mathlib.Order.WellFounded

/-! # The outcome of building a hierarchy

Building answers with the first repeated name, else with the first undeclared parent, else with the
classes that have no root above them, else with all classes in an order with parents first. A class
without a root stands on a cycle of parent links or below one. -/

namespace ClassLang

/-- The parent of the class, if it has one, is among the classes. -/
def ClassDecl.ParentDeclared (c : ClassDecl) (classes : List ClassDecl) : Prop :=
  ∀ p, c.parent = some p → p ∈ classes.map (·.name)

open Classical in
/-- The classes with no root above them, in source order. -/
noncomputable def unrooted (classes : List ClassDecl) : List ClassDecl :=
  classes.filter fun c => ¬ Rooted classes c

theorem mem_unrooted {classes : List ClassDecl} {c : ClassDecl} :
    c ∈ unrooted classes ↔ c ∈ classes ∧ ¬ Rooted classes c := by
  simp [unrooted]

/-! ## The first repeated name -/

theorem firstRepeated?_eq_none {seen names : List String} :
    firstRepeated? seen names = none ↔ names.Nodup ∧ ∀ n ∈ names, n ∉ seen := by
  induction names generalizing seen with
  | nil => simp [firstRepeated?]
  | cons n names ih =>
    by_cases hn : n ∈ seen
    · simp [firstRepeated?, hn]
    · rw [firstRepeated?, if_neg hn, ih, List.nodup_cons]
      constructor
      · rintro ⟨hnodup, hseen⟩
        refine ⟨⟨fun hmem => hseen n hmem List.mem_cons_self, hnodup⟩, ?_⟩
        intro m hm
        rcases List.mem_cons.mp hm with rfl | hm
        · exact hn
        · exact fun hs => hseen m hm (List.mem_cons_of_mem _ hs)
      · rintro ⟨⟨hnotin, hnodup⟩, hseen⟩
        refine ⟨hnodup, ?_⟩
        intro m hm hs
        rcases List.mem_cons.mp hs with rfl | hs
        · exact hnotin hm
        · exact hseen m (List.mem_cons_of_mem _ hm) hs

theorem firstRepeated?_eq_some {seen names : List String} {n : String}
    (h : firstRepeated? seen names = some n) :
    ∃ before after, names = before ++ n :: after ∧ (n ∈ before ∨ n ∈ seen) ∧
      firstRepeated? seen before = none := by
  induction names generalizing seen with
  | nil => simp [firstRepeated?] at h
  | cons m names ih =>
    by_cases hm : m ∈ seen
    · rw [firstRepeated?, if_pos hm] at h
      obtain rfl := Option.some.inj h
      exact ⟨[], names, rfl, .inr hm, rfl⟩
    · rw [firstRepeated?, if_neg hm] at h
      obtain ⟨before, after, rfl, hn, hbefore⟩ := ih h
      refine ⟨m :: before, after, rfl, ?_, ?_⟩
      · rcases hn with hn | hn
        · exact .inl (List.mem_cons_of_mem _ hn)
        · rcases List.mem_cons.mp hn with rfl | hn
          · exact .inl List.mem_cons_self
          · exact .inr hn
      · rw [firstRepeated?, if_neg hm, hbefore]

/-- The first repetition among the names of the classes, as a place in the source. -/
theorem exists_first_repetition {classes : List ClassDecl} {n : String}
    (h : firstRepeated? [] (classes.map (·.name)) = some n) :
    ∃ before c after, classes = before ++ c :: after ∧ c.name = n ∧
      c.name ∈ before.map (·.name) ∧ (before.map (·.name)).Nodup := by
  obtain ⟨before, after, hnames, hn, hbefore⟩ := firstRepeated?_eq_some h
  obtain ⟨cs, rest, rfl, rfl, hrest⟩ := List.map_eq_append_iff.mp hnames
  obtain ⟨c, ds, rfl, rfl, rfl⟩ := List.map_eq_cons_iff.mp hrest
  refine ⟨cs, c, ds, rfl, rfl, ?_, (firstRepeated?_eq_none.mp hbefore).1⟩
  exact hn.resolve_right (List.not_mem_nil)

/-! ## The first undeclared parent -/

theorem parent_filter_eq_none {classes : List ClassDecl} {c : ClassDecl} :
    (c.parent.filter fun p => !classes.any (·.name == p)) = none ↔ c.ParentDeclared classes := by
  simp [Option.filter_eq_none_iff, ClassDecl.ParentDeclared]

theorem firstOrphanParent?_eq_none {classes : List ClassDecl} :
    firstOrphanParent? classes = none ↔ ∀ c ∈ classes, c.ParentDeclared classes := by
  rw [firstOrphanParent?, List.findSome?_eq_none_iff]
  exact forall₂_congr fun _ _ => parent_filter_eq_none

theorem firstOrphanParent?_eq_some {classes : List ClassDecl} {p : String}
    (h : firstOrphanParent? classes = some p) :
    ∃ before c after, classes = before ++ c :: after ∧ c.parent = some p ∧
      p ∉ classes.map (·.name) ∧ ∀ d ∈ before, d.ParentDeclared classes := by
  obtain ⟨before, c, after, hsplit, hc, hbefore⟩ := List.findSome?_eq_some_iff.mp h
  obtain ⟨hparent, hp⟩ := Option.filter_eq_some_iff.mp hc
  exact ⟨before, c, after, hsplit, hparent, by simpa using hp,
    fun d hd => parent_filter_eq_none.mp (hbefore d hd)⟩

/-! ## Cycles of parent links -/

/-- One step from a class to its parent. -/
def ParentLink (classes : List ClassDecl) (c d : ClassDecl) : Prop :=
  c ∈ classes ∧ d ∈ classes ∧ c.parent = some d.name

section Cycles

variable {classes : List ClassDecl} (hnodup : (classes.map (·.name)).Nodup)

include hnodup

theorem Rooted.parent {c d : ClassDecl} (hc : Rooted classes c) (hcd : ParentLink classes c d) :
    Rooted classes d := by
  obtain ⟨-, hd, hparent⟩ := hcd
  cases hc with
  | root _ hp =>
    rw [hp] at hparent
    cases hparent
  | @child _ d' _ hp hd' =>
    have hname : d'.name = d.name := Option.some.inj (hp.symm.trans hparent)
    exact List.inj_on_of_nodup_map hnodup hd'.mem hd hname ▸ hd'

theorem Rooted.not_on_cycle {c : ClassDecl} (hc : Rooted classes c) :
    ¬ Relation.TransGen (ParentLink classes) c c := by
  induction hc with
  | root _ hp =>
    intro hcycle
    obtain ⟨d, ⟨-, -, hparent⟩, -⟩ := Relation.TransGen.head'_iff.mp hcycle
    rw [hp] at hparent
    cases hparent
  | @child c d _ hp hd ih =>
    intro hcycle
    obtain ⟨d', hlink, hback⟩ := Relation.TransGen.head'_iff.mp hcycle
    have hname : d.name = d'.name := Option.some.inj (hp.symm.trans hlink.2.2)
    obtain rfl := List.inj_on_of_nodup_map hnodup hd.mem hlink.2.1 hname
    -- Turned by one step, the cycle through the class is one through its parent.
    exact ih (Relation.TransGen.tail' hback hlink)

omit hnodup in
theorem rooted_of_no_cycle (hparents : ∀ c ∈ classes, c.ParentDeclared classes) {c : ClassDecl}
    (hc : c ∈ classes)
    (hcycle : ∀ d, Relation.ReflTransGen (ParentLink classes) c d →
      ¬ Relation.TransGen (ParentLink classes) d d) : Rooted classes c := by
  let above := {d : ClassDecl // d ∈ classes ∧ Relation.ReflTransGen (ParentLink classes) c d}
  let higher : above → above → Prop := fun d e => Relation.TransGen (ParentLink classes) e.1 d.1
  have : Finite above := (classes.finite_toSet.subset fun d hd => hd.1).to_subtype
  have : IsTrans above higher := ⟨fun _ _ _ h₁ h₂ => h₂.trans h₁⟩
  have : Std.Irrefl higher := ⟨fun d => hcycle d.1 d.2.2⟩
  have hwf : WellFounded higher := Finite.wellFounded_of_trans_of_irrefl higher
  have hall (d : above) : Rooted classes d.1 := by
    induction d using hwf.induction with
    | _ d ih =>
      obtain ⟨d, hd, hpath⟩ := d
      cases hp : d.parent with
      | none => exact .root hd hp
      | some p =>
        obtain ⟨e, he, rfl⟩ := List.mem_map.mp (hparents d hd p hp)
        have hlink : ParentLink classes d e := ⟨hd, he, hp⟩
        exact .child hd hp (ih ⟨e, he, hpath.tail hlink⟩ (.single hlink))
  exact hall ⟨c, hc, .refl⟩

theorem Rooted.above {c d : ClassDecl} (hc : Rooted classes c)
    (hpath : Relation.ReflTransGen (ParentLink classes) c d) : Rooted classes d := by
  induction hpath with
  | refl => exact hc
  | tail _ hlink ih => exact ih.parent hnodup hlink

/-- A class has no root if and only if it stands on a cycle or below one. -/
theorem not_rooted_iff (hparents : ∀ c ∈ classes, c.ParentDeclared classes) {c : ClassDecl}
    (hc : c ∈ classes) :
    ¬ Rooted classes c ↔ ∃ d, Relation.ReflTransGen (ParentLink classes) c d ∧
      Relation.TransGen (ParentLink classes) d d := by
  constructor
  · intro hroot
    by_contra hcycle
    exact hroot (rooted_of_no_cycle hparents hc fun d hpath hd => hcycle ⟨d, hpath, hd⟩)
  · rintro ⟨d, hpath, hcycle⟩ hroot
    exact (hroot.above hnodup hpath).not_on_cycle hnodup hcycle

end Cycles

/-! ## The outcome -/

/-- A property of the waiting classes that no placed class has picks them out of the source. -/
theorem Placement.filter_eq_waiting {classes placed waiting : List ClassDecl}
    (h : Placement classes placed waiting) {P : ClassDecl → Bool}
    (hplaced : ∀ c ∈ placed, P c = false) (hwaiting : ∀ c ∈ waiting, P c = true) :
    classes.filter P = waiting := by
  have hself : waiting.filter P = waiting := List.filter_eq_self.mpr hwaiting
  have hnone : placed.filter P = [] := List.filter_eq_nil_iff.mpr fun c hc => by simp [hplaced c hc]
  have hsub : waiting.Sublist (classes.filter P) := hself ▸ h.sublist.filter P
  have hperm := h.perm.filter P
  rw [List.filter_append, hnone, hself, List.nil_append] at hperm
  exact (hsub.eq_of_length hperm.length_eq).symm

theorem Placement.unrooted_eq_stuck {classes placed stuck : List ClassDecl}
    (h : Placement classes placed stuck) (hready : ∀ c ∈ stuck, c.isReady placed = false) :
    unrooted classes = stuck := by
  apply h.filter_eq_waiting
  · intro c hc
    simpa using rooted_of_mem_placed h.parentsFirst (fun d hd => (h.mem_iff d).mpr (.inl hd)) hc
  · intro c hc
    simpa using h.not_rooted_of_stuck hready hc

namespace Hierarchy

/-- The hierarchy holds these classes and no others, under unique names and parents first. -/
structure Arranges (h : Hierarchy) (classes : List ClassDecl) : Prop where
  nodup : (classes.map (·.name)).Nodup
  perm : h.placed.Perm classes
  parentsFirst : ParentsFirst h.placed

/-- Without a fault in names and parents the classes are swept, and those without a root decide. -/
theorem build_eq_of_declared {classes : List ClassDecl}
    (hnodup : (classes.map (·.name)).Nodup)
    (hparents : ∀ c ∈ classes, c.ParentDeclared classes) :
    ∃ h : Hierarchy, (unrooted classes = [] → h.Arranges classes) ∧
      build classes = if unrooted classes = [] then .ok h
        else .error ⟨.cyclicHierarchy ((unrooted classes).map (·.name)), .program⟩ := by
  obtain ⟨placed, stuck, hplace, hready, hsettle⟩ := exists_settled (Placement.start classes)
  obtain rfl := hplace.unrooted_eq_stuck hready
  refine ⟨⟨placed⟩, ?_, ?_⟩
  · intro hnil
    have hperm := hplace.perm
    rw [hnil, List.append_nil] at hperm
    exact ⟨hnodup, hperm, hplace.parentsFirst⟩
  · have hnames : firstRepeated? [] (classes.map (·.name)) = none :=
      firstRepeated?_eq_none.mpr ⟨hnodup, by simp⟩
    rw [build, hnames, firstOrphanParent?_eq_none.mpr hparents]
    change (settle [] classes).map mk = _
    rw [hsettle]
    split_ifs <;> rfl

theorem arranges_of_build {classes : List ClassDecl} {h : Hierarchy}
    (hb : build classes = .ok h) : h.Arranges classes := by
  cases hnames : firstRepeated? [] (classes.map (·.name)) with
  | some n => simp [build, hnames] at hb
  | none =>
    cases horphan : firstOrphanParent? classes with
    | some p => simp [build, hnames, horphan] at hb
    | none =>
      obtain ⟨h', harranges, heq⟩ := build_eq_of_declared (firstRepeated?_eq_none.mp hnames).1
        (firstOrphanParent?_eq_none.mp horphan)
      rw [hb] at heq
      split_ifs at heq with hnil
      cases heq
      exact harranges hnil

/-- Building tells the first repeated name; if there is none, the first undeclared parent; if there
is none, the classes on or below a cycle; and if there are none, it succeeds. -/
theorem build_outcome (classes : List ClassDecl) :
    (¬ (classes.map (·.name)).Nodup →
      ∃ before c after, classes = before ++ c :: after ∧ c.name ∈ before.map (·.name) ∧
        (before.map (·.name)).Nodup ∧
        build classes = .error ⟨.duplicateClass c.name, .classDecl⟩) ∧
    ((classes.map (·.name)).Nodup → (∃ c ∈ classes, ¬ c.ParentDeclared classes) →
      ∃ before c after p, classes = before ++ c :: after ∧ c.parent = some p ∧
        p ∉ classes.map (·.name) ∧ (∀ d ∈ before, d.ParentDeclared classes) ∧
        build classes = .error ⟨.unknownClass p, .classDecl⟩) ∧
    ((classes.map (·.name)).Nodup → (∀ c ∈ classes, c.ParentDeclared classes) →
      (∃ c ∈ classes, ¬ Rooted classes c) →
      build classes = .error ⟨.cyclicHierarchy ((unrooted classes).map (·.name)), .program⟩ ∧
      ∀ c ∈ classes, ¬ Rooted classes c ↔
        ∃ d, Relation.ReflTransGen (ParentLink classes) c d ∧
          Relation.TransGen (ParentLink classes) d d) ∧
    ((classes.map (·.name)).Nodup → (∀ c ∈ classes, c.ParentDeclared classes) →
      (∀ c ∈ classes, Rooted classes c) →
      ∃ h : Hierarchy, build classes = .ok h ∧ h.Arranges classes) := by
  refine ⟨?_, ?_, ?_, ?_⟩
  · intro hnodup
    cases hnames : firstRepeated? [] (classes.map (·.name)) with
    | none => exact absurd (firstRepeated?_eq_none.mp hnames).1 hnodup
    | some n =>
      obtain ⟨before, c, after, hsplit, rfl, hrepeated, hfirst⟩ := exists_first_repetition hnames
      exact ⟨before, c, after, hsplit, hrepeated, hfirst, by rw [build, hnames]⟩
  · rintro hnodup ⟨c, hc, horphan⟩
    have hnames : firstRepeated? [] (classes.map (·.name)) = none :=
      firstRepeated?_eq_none.mpr ⟨hnodup, by simp⟩
    cases hfirst : firstOrphanParent? classes with
    | none => exact absurd (firstOrphanParent?_eq_none.mp hfirst c hc) horphan
    | some p =>
      obtain ⟨before, d, after, hsplit, hparent, hp, hbefore⟩ := firstOrphanParent?_eq_some hfirst
      exact ⟨before, d, after, p, hsplit, hparent, hp, hbefore, by rw [build, hnames, hfirst]⟩
  · rintro hnodup hparents ⟨c, hc, hroot⟩
    refine ⟨?_, fun d hd => not_rooted_iff hnodup hparents hd⟩
    obtain ⟨h, -, hbuild⟩ := build_eq_of_declared hnodup hparents
    have hne : unrooted classes ≠ [] := List.ne_nil_of_mem (mem_unrooted.mpr ⟨hc, hroot⟩)
    rw [hbuild, if_neg hne]
  · intro hnodup hparents hroots
    obtain ⟨h, harranges, hbuild⟩ := build_eq_of_declared hnodup hparents
    have hnil : unrooted classes = [] := by
      apply List.eq_nil_iff_forall_not_mem.mpr
      intro c hc
      exact (mem_unrooted.mp hc).2 (hroots c (mem_unrooted.mp hc).1)
    exact ⟨h, by rw [hbuild, if_pos hnil], harranges hnil⟩

end Hierarchy
end ClassLang
