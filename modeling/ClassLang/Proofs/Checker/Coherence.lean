import ClassLang.Proofs.Checker.Refusals

/-! # Names of objects

A scope keeps the types of names, and apart from these the classes of the names that calls may be
made on. Wherever the checker comes to, the two fit together as far as objects go, and every class
that a name leads to is one of the program. So a call on a parameter or a local of object type is
never refused because the name is not known. -/

namespace ClassLang

/-- The class of an object type. -/
def Ty.className? : Ty → Option String
  | .object c => some c
  | .int | .bool | .array _ => none

theorem Ty.className?_eq_some {t : Ty} {c : String} : t.className? = some c ↔ t = .object c := by
  cases t <;> simp [className?]

namespace Scope

/-- Names of object type can be called on, as objects of the class of their type, and no class is
named that is not declared. -/
structure Coherent (declared : String → Prop) (Γ : Scope) : Prop where
  types : ∀ x c : String, Γ.types[x]? = some (.object c) → declared c
  receivers : ∀ x c : String, Γ.types[x]? = some (.object c) → Γ.objects[x]? = some c
  objects : ∀ x c : String, Γ.objects[x]? = some c → declared c

theorem introduce_types (Γ : Scope) (x : String) (t : Ty) (y : String) :
    (Γ.introduce x t).types[y]? = if x = y then some t else Γ.types[y]? := by
  have htypes : (Γ.introduce x t).types = Γ.types.insert x t := by
    cases t <;> rfl
  rw [htypes, Std.TreeMap.getElem?_insert]
  simp only [Std.LawfulEqCmp.compare_eq_iff_eq]

/-- A type that is not of objects leaves the class that the name had before. -/
theorem introduce_objects (Γ : Scope) (x : String) (t : Ty) (y : String) :
    (Γ.introduce x t).objects[y]? =
      if x = y then t.className?.or Γ.objects[y]? else Γ.objects[y]? := by
  cases t with
  | object c =>
    change (Γ.objects.insert x c)[y]? = _
    rw [Std.TreeMap.getElem?_insert]
    simp only [Std.LawfulEqCmp.compare_eq_iff_eq]
    rfl
  | _ => exact (ite_self _).symm

variable {declared : String → Prop} {Γ : Scope}

theorem coherent_ofClass (declared : String → Prop) (c : String) :
    (ofClass c).Coherent declared := by
  constructor <;> simp [ofClass]

theorem Coherent.introduce (hΓ : Γ.Coherent declared) {x : String} {t : Ty}
    (ht : ∀ c, t = .object c → declared c) : (Γ.introduce x t).Coherent declared := by
  have hreceivers : ∀ y c : String, (Γ.introduce x t).types[y]? = some (.object c) →
      (Γ.introduce x t).objects[y]? = some c := by
    intro y c hy
    rw [introduce_types] at hy
    rw [introduce_objects]
    by_cases hxy : x = y
    · rw [if_pos hxy] at hy ⊢
      rw [Ty.className?_eq_some.mpr (Option.some.inj hy), Option.some_or]
    · rw [if_neg hxy] at hy ⊢
      exact hΓ.receivers y c hy
  have hobjects : ∀ y c : String, (Γ.introduce x t).objects[y]? = some c → declared c := by
    intro y c hy
    rw [introduce_objects] at hy
    split_ifs at hy with hxy
    · rcases Option.or_eq_some_iff.mp hy with hy | ⟨-, hy⟩
      · exact ht c (Ty.className?_eq_some.mp hy)
      · exact hΓ.objects y c hy
    · exact hΓ.objects y c hy
  exact ⟨fun y c hy => hobjects y c (hreceivers y c hy), hreceivers, hobjects⟩

theorem Coherent.introduceAll (hΓ : Γ.Coherent declared) {ds : List Param}
    (hds : ∀ d ∈ ds, ∀ c, d.ty = .object c → declared c) :
    (Γ.introduceAll ds).Coherent declared := by
  induction ds generalizing Γ with
  | nil => exact hΓ
  | cons d ds ih =>
    apply ih (hΓ.introduce (hds d List.mem_cons_self))
    exact fun e he => hds e (List.mem_cons_of_mem d he)

/-- A name that calls cannot be made on has never been declared as an object. -/
theorem objects_introduceAll_eq_none {ds : List Param} {x : String}
    (hx : (Γ.introduceAll ds).objects[x]? = none) :
    Γ.objects[x]? = none ∧ ∀ d ∈ ds, d.name = x → d.ty.className? = none := by
  induction ds generalizing Γ with
  | nil => exact ⟨hx, by simp⟩
  | cons d ds ih =>
    obtain ⟨hd, hds⟩ := ih hx
    rw [introduce_objects] at hd
    by_cases hname : d.name = x
    · rw [if_pos hname, Option.or_eq_none_iff] at hd
      exact ⟨hd.2, List.forall_mem_cons.mpr ⟨fun _ => hd.1, hds⟩⟩
    · rw [if_neg hname] at hd
      exact ⟨hd, List.forall_mem_cons.mpr ⟨fun heq => absurd heq hname, hds⟩⟩

end Scope

section Reached

variable {p : Program} {h : Hierarchy} {c : ClassDecl} {pl : Place} {t : Checker}

theorem ClassDecl.Reaches.fields_wellTyped {s : Checker} (hpl : c.Reaches h s pl t)
    (hin : pl.InMethod) : AllVarsWellTyped h (.ofClass c.name) c.fields := by
  cases hpl with
  | fieldInit _ => exact hin.elim
  | localInit hm _ => exact hm.fields
  | stmt hm _ _ _ _ => exact hm.fields

/-- Before the checker comes to a method it has passed the fields of the class and of all classes
above it, since these stand before it in the order. -/
theorem Program.Reaches.knows_field (hr : p.Reaches h c pl t) (hin : pl.InMethod) {k : ClassDecl}
    (hk : k ∈ h.ancestors c.name) {v : VarDecl} (hv : v ∈ k.fields) : h.Knows v.ty := by
  obtain ⟨hbuild, horder, hbefore, hpl⟩ := hr
  obtain ⟨hpassed, -⟩ := classes_forM_eq_ok.mp hbefore
  have hfields : ∃ Γ, AllVarsWellTyped h Γ k.fields := by
    rcases (Hierarchy.arranges_of_build hbuild).mem_of_mem_ancestors horder hk with hk | rfl
    · exact ⟨_, (hpassed k hk).fields⟩
    · exact ⟨_, hpl.fields_wellTyped hin⟩
  obtain ⟨Γ, hall⟩ := hfields
  obtain ⟨Δ, hwt⟩ := hall.exists_scope hv
  exact hwt.knows

theorem Program.Reaches.coherent (hr : p.Reaches h c pl t) :
    t.scope.Coherent (· ∈ p.classes.map (·.name)) := by
  rw [hr.scope_eq]
  apply (Scope.coherent_ofClass _ _).introduceAll
  exact fun d hd k hk => hr.arranges.contains_iff.mp (hr.knows d hd k hk)

theorem Program.Reaches.self_eq (hr : p.Reaches h c pl t) : t.scope.self = some c.name := by
  rw [hr.scope_eq, Place.scope, Scope.introduceAll_self]
  rfl

theorem Program.Reaches.declared (hr : p.Reaches h c pl t) : t.scope.Declared h := by
  have hc : h.contains c.name = true := by
    obtain ⟨-, horder, -, -⟩ := hr
    have hmem : c ∈ h.order := by simp [horder]
    exact Hierarchy.contains_iff.mpr ⟨c, Hierarchy.mem_order.mp hmem, rfl⟩
  exact ⟨⟨c.name, hr.self_eq, hc⟩,
    fun hx => hr.arranges.contains_iff.mpr (hr.coherent.objects _ _ hx)⟩

/-- Wherever the checker comes to in a program, accepted or not, the scope is coherent. In a method
every name that stands for an object is of a class of the program, also the name of a field. -/
theorem Program.coherent_of_reaches (hr : p.Reaches h c pl t) :
    t.scope.Coherent (· ∈ p.classes.map (·.name)) ∧
    (∀ x k : String, t.scope.types[x]? = some (.object k) →
      ∀ site, t.scope.classOfReceiver site (.var x) = .ok k) ∧
    (pl.InMethod → ∀ x k, (Expr.var x).infer h t.scope = .ok (some (.object k)) →
      k ∈ p.classes.map (·.name)) := by
  have hnames {n : String} : h.contains n = true ↔ n ∈ p.classes.map (·.name) :=
    hr.arranges.contains_iff
  have hcoherent := hr.coherent
  refine ⟨hcoherent, ?_, ?_⟩
  · intro x k hx site
    exact Scope.classOfReceiver_eq_ok.mpr (.var (hcoherent.receivers x k hx))
  · intro hin x k hx
    obtain ⟨_, htype, ⟨⟩⟩ := Expr.infer_var_eq_ok.mp hx
    rcases Scope.type?_eq_some.mp htype with hx | ⟨-, d, f, hself, hf, hty⟩
    · exact hcoherent.types x k hx
    · obtain rfl : c.name = d := Option.some.inj (hr.self_eq.symm.trans hself)
      obtain ⟨below, e, above, hchain, hfield, -⟩ := hf
      have he : e ∈ h.ancestors c.name := by simp [hchain]
      exact hnames.mp (hr.knows_field hin he (List.mem_of_find?_eq_some hfield) k hty)

/-- If a program is refused because the receiver of a call is not known, then the checker has come
to a place where that is so, and nothing declared there under this name, be it a parameter or a
local, is of object type. -/
theorem Program.exists_undeclared_of_unknownName {x : String} {site : Construct}
    (hsite : site.IsCall) (hd : p.check = .error ⟨.unknownName x, site⟩) :
    ∃ h c pl t, p.Reaches h c pl t ∧ pl.question h t = .error ⟨.unknownName x, site⟩ ∧
      ∀ d ∈ pl.declared, d.name = x → d.ty.className? = none := by
  rcases exists_reaches_of_error hd with hbuild | hdecl | ⟨h, c, pl, t, hr, hquestion⟩
  · cases Hierarchy.build_faults p.classes _ hbuild
  · cases hdecl
  · have hx : t.scope.objects[x]? = none := by
      cases pl.question_faults hr.declared _ hquestion with
      | unknownReceiver _ hx => exact hx
      | unknownName hvar _ =>
        rcases hsite with rfl | rfl <;> simp at hvar
    rw [hr.scope_eq] at hx
    exact ⟨h, c, pl, t, hr, hquestion, (Scope.objects_introduceAll_eq_none hx).2⟩

-- A field is not declared at the places in a method, so its name cannot be called on.
example :
    let ring : ClassDecl :=
      { name := "Ring", fields := [{ ty := .object "Ring", name := "next" }]
        methods := [{ name := "turn", body := [.call (.var "next") "turn" []] }] }
    (Program.mk [ring]).check = .error ⟨.unknownName "next", .callStmt⟩ := by
  decide +kernel

end Reached

/-- The last statement is refused. By then the name `x` has been declared again, with another type,
and `next` is a field of the parent. -/
def walk : MethodDecl :=
  { name := "walk", params := [⟨.object "Node", "x"⟩]
    locals := [{ ty := .object "Node", name := "y", init := some (.var "next") },
      { ty := .int, name := "x" }]
    body := [.call (.var "y") "walk" [.var "next"], .assign (.var "x") (.bool true)] }

def link : ClassDecl :=
  { name := "Link", fields := [{ ty := .object "Node", name := "next" }] }

def node : ClassDecl :=
  { name := "Node", parent := some "Link", methods := [walk] }

theorem build_node_link : Hierarchy.build [node, link] = .ok ⟨[node, link]⟩ := by
  simp [Hierarchy.build, firstRepeated?, firstOrphanParent?, settle, sweep, ClassDecl.isReady,
    node, link, Except.map]

theorem Program.node_coherent :
    (Program.mk [node, link]).check = .error ⟨.typeMismatch "int" "boolean", .assign⟩ ∧
    ∃ t, (Program.mk [node, link]).Reaches ⟨[node, link]⟩ node
        (.stmt walk (.assign (.var "x") (.bool true))) t ∧
      t.scope.Coherent (· ∈ ["Node", "Link"]) ∧
      (∀ x k : String, t.scope.types[x]? = some (.object k) →
        ∀ site, t.scope.classOfReceiver site (.var x) = .ok k) ∧
      ∀ x k, (Expr.var x).infer ⟨[node, link]⟩ t.scope = .ok (some (.object k)) →
        k ∈ ["Node", "Link"] := by
  have horder : Hierarchy.order ⟨[node, link]⟩ = [link] ++ node :: [] := rfl
  have hmethods : node.methods = [] ++ walk :: [] := rfl
  have hbody : walk.body = [.call (.var "y") "walk" [.var "next"]] ++
      .assign (.var "x") (.bool true) :: [] := rfl
  obtain ⟨t, ht⟩ : ∃ t, (Program.mk [node, link]).Reaches ⟨[node, link]⟩ node
      (.stmt walk (.assign (.var "x") (.bool true))) t :=
    ⟨_, .intro build_node_link horder rfl
      (.stmt (.intro rfl hmethods rfl rfl) rfl hbody rfl .self)⟩
  obtain ⟨hcoherent, hreceivers, hfields⟩ := coherent_of_reaches ht
  exact ⟨by decide +kernel, t, ht, hcoherent, hreceivers, hfields trivial⟩

end ClassLang
