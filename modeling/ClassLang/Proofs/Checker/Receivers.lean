import ClassLang.Proofs.Checker.Coherence

/-! # Receivers and their types

A call on a name looks its method up in the class that the name was last declared with as an object.
That is the type of the name unless it has been declared again since, with a type that is not of
objects: the class then stays behind while the type is gone. -/

namespace ClassLang

/-- The name is last declared as an object by a declaration with class `k`; the given ones stand
behind it. -/
def LastObject (ds : List Param) (x k : String) (after : List Param) : Prop :=
  ∃ before, ds = before ++ ⟨.object k, x⟩ :: after ∧
    ∀ d ∈ after, d.name = x → d.ty.className? = none

namespace Scope

variable {Γ : Scope} {ds : List Param} {x : String}

theorem introduceAll_types_of_forall_ne (hds : ∀ d ∈ ds, d.name ≠ x) :
    (Γ.introduceAll ds).types[x]? = Γ.types[x]? := by
  induction ds generalizing Γ with
  | nil => rfl
  | cons d ds ih =>
    apply (ih fun e he => hds e (List.mem_cons_of_mem d he)).trans
    rw [introduce_types, if_neg (hds d List.mem_cons_self)]

/-- A name that is declared has the type of one of its declarations. -/
theorem exists_types_introduceAll (hds : ∃ d ∈ ds, d.name = x) :
    ∃ d ∈ ds, d.name = x ∧ (Γ.introduceAll ds).types[x]? = some d.ty := by
  induction ds generalizing Γ with
  | nil => simp at hds
  | cons d ds ih =>
    by_cases hlater : ∃ e ∈ ds, e.name = x
    · obtain ⟨e, he, hname, htype⟩ := ih (Γ := Γ.introduce d.name d.ty) hlater
      exact ⟨e, List.mem_cons_of_mem d he, hname, htype⟩
    · have hd : d.name = x := by
        obtain ⟨e, he, hname⟩ := hds
        rcases List.mem_cons.mp he with rfl | he
        · exact hname
        · exact absurd ⟨e, he, hname⟩ hlater
      refine ⟨d, List.mem_cons_self, hd, ?_⟩
      have hne : ∀ e ∈ ds, e.name ≠ x := fun e he hname => hlater ⟨e, he, hname⟩
      apply (introduceAll_types_of_forall_ne hne).trans
      rw [introduce_types, if_pos hd]

/-- The class of a name comes from its last declaration as an object, if it was not there before
all of them. -/
theorem objects_introduceAll_eq_some {k : String}
    (hx : (Γ.introduceAll ds).objects[x]? = some k) :
    (Γ.objects[x]? = some k ∧ ∀ d ∈ ds, d.name = x → d.ty.className? = none) ∨
      ∃ after, LastObject ds x k after := by
  induction ds generalizing Γ with
  | nil => exact .inl ⟨hx, by simp⟩
  | cons d ds ih =>
    rcases ih hx with ⟨hd, hlater⟩ | ⟨after, before, rfl, hafter⟩
    · rw [introduce_objects] at hd
      by_cases hname : d.name = x
      · rw [if_pos hname] at hd
        rcases Option.or_eq_some_iff.mp hd with hclass | ⟨hnone, hd⟩
        · right
          refine ⟨ds, [], ?_, hlater⟩
          rw [← Ty.className?_eq_some.mp hclass, ← hname]
          rfl
        · left
          refine ⟨hd, ?_⟩
          intro e he
          rcases List.mem_cons.mp he with rfl | he
          · exact fun _ => hnone
          · exact hlater e he
      · rw [if_neg hname] at hd
        left
        refine ⟨hd, ?_⟩
        intro e he
        rcases List.mem_cons.mp he with rfl | he
        · exact fun hname' => absurd hname' hname
        · exact hlater e he
    · exact .inr ⟨after, d :: before, rfl, hafter⟩

/-- The name has the type that calls on it go by if and only if no declaration of it stands behind
the one that gave it its class. -/
theorem infer_var_eq_object_iff {h : Hierarchy} {k : String} {after : List Param}
    (hlast : LastObject ds x k after) :
    (Expr.var x).infer h (Γ.introduceAll ds) = .ok (some (.object k)) ↔
      ∀ d ∈ after, d.name ≠ x := by
  obtain ⟨before, rfl, hafter⟩ := hlast
  have htypes : (Γ.introduceAll (before ++ ⟨.object k, x⟩ :: after)).types[x]? =
      (((Γ.introduceAll before).introduce x (.object k)).introduceAll after).types[x]? := by
    rw [introduceAll_append]
    rfl
  constructor
  · intro hinfer d hd hname
    obtain ⟨_, htype, ⟨⟩⟩ := Expr.infer_var_eq_ok.mp hinfer
    obtain ⟨e, he, hname', hty⟩ := exists_types_introduceAll
      (Γ := (Γ.introduceAll before).introduce x (.object k)) ⟨d, hd, hname⟩
    -- The type is that of a later declaration, and none of these is of objects.
    rw [← htypes] at hty
    have heq : e.ty = .object k := by
      rcases type?_eq_some.mp htype with hx | ⟨hx, -⟩
      · exact Option.some.inj (hty.symm.trans hx)
      · rw [hty] at hx
        cases hx
    have hclass := hafter e he hname'
    rw [heq] at hclass
    cases hclass
  · intro hne
    rw [introduceAll_types_of_forall_ne hne, introduce_types, if_pos rfl] at htypes
    exact Expr.infer_var_eq_ok.mpr ⟨_, type?_eq_some.mpr (.inl htypes), rfl⟩

end Scope

/-- In an accepted program the checker comes to every place. A call there on a name looks its method
up in the class of the last declaration of the name as an object, and finds it. This is the type of
the name too if and only if the name has not been declared again since. -/
theorem Program.receiver_of_check {p : Program} (hp : p.check = .ok ()) :
    ∃ h, Hierarchy.build p.classes = .ok h ∧ ∀ c ∈ p.classes, ∀ pl, c.Holds pl →
      (∃ t, p.Reaches h c pl t) ∧ ∀ t, p.Reaches h c pl t →
        ∀ x n args, pl.Calls (.var x) n args → ∃ k d after,
          (∀ site, t.scope.classOfReceiver site (.var x) = .ok k) ∧ h.method? k n = some d ∧
          LastObject pl.declared x k after ∧
          ((Expr.var x).infer h t.scope = .ok (some (.object k)) ↔
            ∀ e ∈ after, e.name ≠ x) := by
  obtain ⟨h, hbuild, hclasses⟩ := check_eq_ok_iff.mp hp
  refine ⟨h, hbuild, ?_⟩
  intro c hc pl hpl
  refine ⟨exists_reaches hbuild hclasses hc hpl, ?_⟩
  intro t ht x n args hcall
  obtain ⟨r, htyped⟩ := (hclasses c hc).hasType_of_calls hpl hcall
  rw [ht.scope_eq]
  cases htyped with
  | @call _ _ k _ d hr hd _ =>
    cases hr with
    | var hobject =>
      have hlast : ∃ after, LastObject pl.declared x k after := by
        rcases Scope.objects_introduceAll_eq_some hobject with ⟨hnone, -⟩ | hlast
        · simp [Scope.ofClass] at hnone
        · exact hlast
      obtain ⟨after, hlast⟩ := hlast
      exact ⟨k, d, after, fun _ => Scope.classOfReceiver_eq_ok.mpr (.var hobject),
        Hierarchy.method?_eq_some.mpr hd, hlast, Scope.infer_var_eq_object_iff hlast⟩

/-- The parameter is declared again as a number, and then called on. -/
def reset : MethodDecl :=
  { name := "reset", params := [⟨.object "Cell", "x"⟩]
    locals := [{ ty := .int, name := "x" }]
    body := [.call (.var "x") "clear" []] }

def cell : ClassDecl :=
  { name := "Cell", methods := [{ name := "clear" }, reset] }

theorem cell_holds_reset : cell.Holds (.stmt reset (.call (.var "x") "clear" [])) :=
  ⟨by simp [cell], _, List.mem_singleton.mpr rfl, .self⟩

theorem Program.cell_receiver : (Program.mk [cell]).check = .ok () ∧
    ∃ h, Hierarchy.build [cell] = .ok h ∧
      (∃ t, (Program.mk [cell]).Reaches h cell (.stmt reset (.call (.var "x") "clear" [])) t) ∧
      ∀ t, (Program.mk [cell]).Reaches h cell (.stmt reset (.call (.var "x") "clear" [])) t →
        ∃ k d after, (∀ site, t.scope.classOfReceiver site (.var "x") = .ok k) ∧
          h.method? k "clear" = some d ∧
          LastObject [⟨.object "Cell", "x"⟩, ⟨.int, "x"⟩] "x" k after ∧
          ((Expr.var "x").infer h t.scope = .ok (some (.object k)) ↔
            ∀ e ∈ after, e.name ≠ "x") := by
  have haccepted : (Program.mk [cell]).check = .ok () := by decide +kernel
  obtain ⟨h, hbuild, hall⟩ := receiver_of_check haccepted
  obtain ⟨hreach, hcalls⟩ := hall cell List.mem_cons_self _ cell_holds_reset
  exact ⟨haccepted, h, hbuild, hreach,
    fun t ht => hcalls t ht "x" "clear" [] (.inr ⟨reset, rfl⟩)⟩

/-- An accepted call on a name that is a number: its method is looked up in the class that the name
was declared with before. -/
theorem Program.cell_disagrees : (Program.mk [cell]).check = .ok () ∧
    ∃ t, (Program.mk [cell]).Reaches ⟨[cell]⟩ cell
        (.stmt reset (.call (.var "x") "clear" [])) t ∧
      t.scope.classOfReceiver .callStmt (.var "x") = .ok "Cell" ∧
      (Expr.var "x").infer ⟨[cell]⟩ t.scope = .ok (some .int) := by
  have hbuild : Hierarchy.build [cell] = .ok ⟨[cell]⟩ := by
    simp [Hierarchy.build, firstRepeated?, firstOrphanParent?, settle, sweep, ClassDecl.isReady,
      cell, Except.map]
  have horder : Hierarchy.order ⟨[cell]⟩ = [] ++ cell :: [] := rfl
  have hmethods : cell.methods = [{ name := "clear" }] ++ reset :: [] := rfl
  have hbody : reset.body = [] ++ .call (.var "x") "clear" [] :: [] := rfl
  exact ⟨by decide +kernel, _, .intro hbuild horder rfl
    (.stmt (.intro rfl hmethods rfl rfl) rfl hbody rfl .self), rfl, rfl⟩

end ClassLang
