import ClassLang.Proofs.Checker.Extension
import Mathlib.Data.List.Find

/-! # The order of declarations

Whether a program is accepted does not depend on the order of its classes, nor on that of the
methods in a class whose methods have different names. Of methods of one name the first counts, so
these have to stay as they are. -/

namespace ClassLang

/-- The same class with its methods in another order. -/
structure ClassDecl.Reorders (c d : ClassDecl) : Prop where
  eq : d = { c with methods := d.methods }
  methods : d.methods = c.methods ∨
    (c.methods.map (·.name)).Nodup ∧ d.methods.Perm c.methods

/-- The same classes in another order, some with their methods in another order. -/
def Program.Reorders (p q : Program) : Prop :=
  ∃ classes, List.Forall₂ ClassDecl.Reorders p.classes classes ∧ classes.Perm q.classes

namespace ClassDecl.Reorders

variable {c d : ClassDecl}

theorem name (hcd : c.Reorders d) : d.name = c.name := by
  rw [hcd.eq]

theorem parent (hcd : c.Reorders d) : d.parent = c.parent := by
  rw [hcd.eq]

theorem fields (hcd : c.Reorders d) : d.fields = c.fields := by
  rw [hcd.eq]

theorem perm (hcd : c.Reorders d) : d.methods.Perm c.methods := by
  rcases hcd.methods with heq | ⟨-, hperm⟩
  · rw [heq]
  · exact hperm

theorem symm (hcd : c.Reorders d) : d.Reorders c where
  eq := by rw [hcd.eq]
  methods := by
    rcases hcd.methods with heq | ⟨hnodup, hperm⟩
    · exact .inl heq.symm
    · exact .inr ⟨(hperm.map _).nodup_iff.mpr hnodup, hperm.symm⟩

theorem method? (hcd : c.Reorders d) (m : String) : d.method? m = c.method? m := by
  rcases hcd.methods with heq | ⟨hnodup, hperm⟩
  · rw [ClassDecl.method?, ClassDecl.method?, heq]
  · symm
    apply List.find?_eq_find?_of_perm hperm.symm
    rintro a ⟨ha, hname⟩ b ⟨hb, hname'⟩
    apply List.inj_on_of_nodup_map hnodup ha hb
    exact (beq_iff_eq.mp hname).trans (beq_iff_eq.mp hname').symm

theorem resembles (hcd : c.Reorders d) : c.Resembles d where
  name := hcd.name
  parent := hcd.parent
  fieldType := fun x => by rw [ClassDecl.field?, ClassDecl.field?, hcd.fields]
  signature := fun m => by rw [hcd.method? m]

theorem wellTyped {h : Hierarchy} (hcd : c.Reorders d) (hc : c.WellTyped h) : d.WellTyped h where
  fields := by
    rw [hcd.name, hcd.fields]
    exact hc.fields
  methods := by
    intro m hm
    rw [hcd.name]
    exact hc.methods m (hcd.perm.mem_iff.mp hm)

end ClassDecl.Reorders

namespace Program

variable {p q : Program}

theorem Reorders.symm (hpq : p.Reorders q) : q.Reorders p := by
  obtain ⟨classes, hall, hperm⟩ := hpq
  have hback : List.Forall₂ ClassDecl.Reorders classes p.classes :=
    hall.flip.imp fun _ _ hcd => hcd.symm
  exact List.perm_comp_forall₂ hperm.symm hback

theorem Reorders.exists_class (hpq : p.Reorders q) {c : ClassDecl} (hc : c ∈ p.classes) :
    ∃ d ∈ q.classes, c.Reorders d := by
  obtain ⟨classes, hall, hperm⟩ := hpq
  obtain ⟨d, hd, hcd⟩ := exists_mem_of_forall₂ hall hc
  exact ⟨d, hperm.mem_iff.mp hd, hcd⟩

theorem Reorders.perm_names (hpq : p.Reorders q) :
    (q.classes.map (·.name)).Perm (p.classes.map (·.name)) := by
  obtain ⟨classes, hall, hperm⟩ := hpq
  rw [← ClassDecl.Resembles.map_name (hall.imp fun _ _ hcd => hcd.resembles)]
  exact (hperm.map _).symm

theorem Reorders.check (hpq : p.Reorders q) (hp : p.check = .ok ()) : q.check = .ok () := by
  obtain ⟨h, hbuild, hclasses⟩ := check_eq_ok_iff.mp hp
  have hnodup : (q.classes.map (·.name)).Nodup :=
    hpq.perm_names.nodup_iff.mpr (Hierarchy.arranges_of_build hbuild).nodup
  have hcover : ∀ c ∈ p.classes, ∃ d ∈ q.classes, c.Resembles d := by
    intro c hc
    obtain ⟨d, hd, hcd⟩ := hpq.exists_class hc
    exact ⟨d, hd, hcd.resembles⟩
  have hback : ∀ d ∈ q.classes, ∃ c ∈ p.classes, c.Resembles d := by
    intro d hd
    obtain ⟨c, hc, hdc⟩ := hpq.symm.exists_class hd
    exact ⟨c, hc, hdc.symm.resembles⟩
  obtain ⟨h', hbuild', hemb, -⟩ :=
    Hierarchy.exists_build_of_resembles hbuild hnodup hcover hback
  refine check_eq_ok_iff.mpr ⟨h', hbuild', ?_⟩
  intro d hd
  obtain ⟨c, hc, hdc⟩ := hpq.symm.exists_class hd
  exact hdc.symm.wellTyped ((hclasses c hc).mono hemb)

/-- Reordering the declarations of a program changes nothing about its acceptance. -/
theorem check_iff_of_reorders (hpq : p.Reorders q) : p.check = .ok () ↔ q.check = .ok () :=
  ⟨hpq.check, hpq.symm.check⟩

/-- The added class first, and the methods of the other one exchanged. -/
def itemFirst : Program :=
  ⟨[item, { shelf with methods := shelf.methods.reverse }]⟩

theorem itemFirst_check_iff : (Program.mk [shelf, item]).Reorders itemFirst ∧
    ((Program.mk [shelf, item]).check = .ok () ↔ itemFirst.check = .ok ()) ∧
      itemFirst.check = .ok () := by
  have hreorders : (Program.mk [shelf, item]).Reorders itemFirst := by
    refine ⟨[{ shelf with methods := shelf.methods.reverse }, item], ?_, .swap ..⟩
    have hshelf : shelf.Reorders { shelf with methods := shelf.methods.reverse } :=
      ⟨rfl, .inr ⟨by decide, List.reverse_perm _⟩⟩
    exact .cons hshelf (.cons ⟨rfl, .inl rfl⟩ .nil)
  exact ⟨hreorders, check_iff_of_reorders hreorders, by decide +kernel⟩

end Program
end ClassLang
