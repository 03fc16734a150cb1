import ClassLang.Proofs.Checker.Coherence
import ClassLang.Proofs.Renaming.Syntax

/-! # Class names in declarations

A name that is declared with an object type has a class of the program. Result types and the
elements of arrays are not asked for, but an object of a class that is not there gets no further:
none is the initial value of a variable or an argument, and none is called on or asked for a
field. -/

namespace ClassLang

namespace ClassDecl

/-- The types that fields, parameters and locals are declared with. -/
def nameTypes (c : ClassDecl) : List Ty :=
  c.fields.map (·.ty) ++
    c.methods.flatMap fun m => m.params.map (·.ty) ++ m.locals.map (·.ty)

def resultTypes (c : ClassDecl) : List Ty :=
  c.methods.filterMap (·.ret)

end ClassDecl

/-- Every object that the code at the place passes on, or asks for something, is of a declared
class. -/
structure Place.ObjectsDeclared (declared : String → Prop) (h : Hierarchy) (Γ : Scope)
    (pl : Place) : Prop where
  init : ∀ v e k, pl.Starts v e → e.infer h Γ = .ok (some (.object k)) → declared k
  arg : ∀ r n args a k, pl.Calls r n args → a ∈ args → a.infer h Γ = .ok (some (.object k)) →
    declared k
  receiver : ∀ r n args site k, pl.Calls r n args → Γ.classOfReceiver site r = .ok k → declared k
  selected : ∀ r x k, pl.Has (.field r x) → r.infer h Γ = .ok (some (.object k)) → declared k

section WellTyped

variable {h : Hierarchy} {Γ : Scope} {c : ClassDecl}

theorem HasType.unique {e : Expr} {r r' : Option Ty} (he : HasType h Γ e r)
    (he' : HasType h Γ e r') : r = r' := by
  rw [← Expr.infer_eq_ok_iff] at he he'
  exact Except.ok.inj (he.symm.trans he')

theorem HasArgs.knows_of_mem {params : List Param} {args : List Expr}
    (hargs : HasArgs h Γ params args) {e : Expr} (he : e ∈ args) {t : Ty}
    (ht : HasType h Γ e (some t)) : h.Knows t := by
  induction args generalizing params with
  | nil => simp at he
  | cons a args ih =>
    cases hargs with
    | cons ha haccepts hrest =>
      rcases List.mem_cons.mp he with rfl | he
      · obtain rfl := Option.some.inj (ha.unique ht)
        exact haccepts.knows_arg
      · exact ih hrest he

theorem Hierarchy.contains_of_nearest {α : Type} {member : ClassDecl → Option α} {k : String}
    {a : α} (ha : Nearest member (h.ancestors k) a) : h.contains k = true := by
  obtain ⟨below, d, above, hchain, -, -⟩ := ha
  have hd : d ∈ h.ancestors k := by simp [hchain]
  exact contains_of_mem_ancestors hd

theorem ClassDecl.WellTyped.knows_of_mem (hc : c.WellTyped h) {t : Ty} (ht : t ∈ c.nameTypes) :
    h.Knows t := by
  rcases List.mem_append.mp ht with ht | ht
  · obtain ⟨v, hv, rfl⟩ := List.mem_map.mp ht
    obtain ⟨Γ, hwt⟩ := hc.fields.exists_scope hv
    exact hwt.knows
  · obtain ⟨m, hm, ht⟩ := List.mem_flatMap.mp ht
    rcases List.mem_append.mp ht with ht | ht
    · obtain ⟨q, hq, rfl⟩ := List.mem_map.mp ht
      exact (hc.methods m hm).params q hq
    · obtain ⟨v, hv, rfl⟩ := List.mem_map.mp ht
      obtain ⟨Γ, hwt⟩ := (hc.methods m hm).locals.exists_scope hv
      exact hwt.knows

/-- Each of these objects has passed a test of its class, or a member of the class was found. -/
theorem ClassDecl.WellTyped.objectsDeclared (hc : c.WellTyped h) {pl : Place}
    (hpl : c.Holds pl) : pl.ObjectsDeclared (h.contains · = true) h (pl.scope c) where
  init := by
    intro v e k he hk
    obtain ⟨t, ht, haccepts⟩ := hc.accepts_of_starts hpl he
    have hkt := ht.unique ((Expr.infer_eq_ok_iff _ _).mp hk)
    exact haccepts.knows_arg k (Option.some.inj hkt)
  arg := by
    intro r n args a k hcall ha hk
    obtain ⟨t, ht⟩ := hc.hasType_of_calls hpl hcall
    cases ht with
    | call _ _ hargs => exact hargs.knows_of_mem ha ((Expr.infer_eq_ok_iff _ _).mp hk) k rfl
  receiver := by
    intro r n args site k hcall hk
    obtain ⟨t, ht⟩ := hc.hasType_of_calls hpl hcall
    cases ht with
    | call hr hd _ =>
      obtain rfl := Except.ok.inj (hk.symm.trans (Scope.classOfReceiver_eq_ok.mpr hr))
      exact Hierarchy.contains_of_nearest hd
  selected := by
    intro r x k hhas hk
    obtain ⟨t, ht⟩ := hc.exists_hasType_of_has hpl hhas nofun nofun nofun
    cases ht with
    | field _ hr hcontains _ =>
      cases hr.unique ((Expr.infer_eq_ok_iff _ _).mp hk)
      exact hcontains

end WellTyped

theorem Place.ObjectsDeclared.mono {declared declared' : String → Prop} {h : Hierarchy} {Γ : Scope}
    {pl : Place} (hpl : pl.ObjectsDeclared declared h Γ)
    (hle : ∀ k, declared k → declared' k) : pl.ObjectsDeclared declared' h Γ where
  init v e k he hk := hle k (hpl.init v e k he hk)
  arg r n args a k hcall ha hk := hle k (hpl.arg r n args a k hcall ha hk)
  receiver r n args site k hcall hk := hle k (hpl.receiver r n args site k hcall hk)
  selected r x k hhas hk := hle k (hpl.selected r x k hhas hk)

/-- In an accepted program the class of every name that is declared as an object is declared. The
checker comes to every place, and whatever classes are named by result types and in arrays, the
objects that are passed on or asked for something there are of declared classes. -/
theorem Program.objectsDeclared_of_check {p : Program} (hp : p.check = .ok ()) :
    (∀ c ∈ p.classes, ∀ t ∈ c.nameTypes, ∀ n, t.className? = some n →
      n ∈ p.classes.map (·.name)) ∧
    ∃ h, Hierarchy.build p.classes = .ok h ∧ ∀ c ∈ p.classes, ∀ pl, c.Holds pl →
      (∃ t, p.Reaches h c pl t) ∧ ∀ t, p.Reaches h c pl t →
        pl.ObjectsDeclared (· ∈ p.classes.map (·.name)) h t.scope := by
  obtain ⟨h, hbuild, hclasses⟩ := check_eq_ok_iff.mp hp
  have harr := Hierarchy.arranges_of_build hbuild
  constructor
  · intro c hc t ht n hn
    exact harr.contains_iff.mp
      ((hclasses c hc).knows_of_mem ht n (Ty.className?_eq_some.mp hn))
  · refine ⟨h, hbuild, ?_⟩
    intro c hc pl hpl
    refine ⟨exists_reaches hbuild hclasses hc hpl, ?_⟩
    intro t ht
    rw [ht.scope_eq]
    exact ((hclasses c hc).objectsDeclared hpl).mono fun k => harr.contains_iff.mp

def peek : MethodDecl :=
  { name := "peek", ret := some (.object "Ghost")
    params := [⟨.array (.array (.object "Ghost")), "all"⟩]
    locals := [{ ty := .array (.object "Ghost"), name := "kept" }]
    body := [.ret (some .this)] }

def touch : MethodDecl :=
  { name := "touch", params := [⟨.object "Box", "other"⟩]
    body := [.call (.var "other") "touch" [.this]] }

/-- There is no class `Ghost`. -/
def box : ClassDecl :=
  { name := "Box", fields := [{ ty := .array (.object "Ghost"), name := "seen" }]
    methods := [peek, touch] }

theorem box_holds_touch : box.Holds (.stmt touch (.call (.var "other") "touch" [.this])) :=
  ⟨by simp [box], _, List.mem_singleton.mpr rfl, .self⟩

theorem Program.box_objectsDeclared : (Program.mk [box]).check = .ok () ∧
    (∀ t ∈ box.nameTypes, ∀ n, t.className? = some n → n ∈ ["Box"]) ∧
    ∃ h, Hierarchy.build [box] = .ok h ∧
      (∃ t, (Program.mk [box]).Reaches h box
        (.stmt touch (.call (.var "other") "touch" [.this])) t) ∧
      ∀ t, (Program.mk [box]).Reaches h box
          (.stmt touch (.call (.var "other") "touch" [.this])) t →
        (Place.stmt touch (.call (.var "other") "touch" [.this])).ObjectsDeclared (· ∈ ["Box"]) h
          t.scope := by
  have haccepted : (Program.mk [box]).check = .ok () := by decide +kernel
  obtain ⟨htypes, h, hbuild, hall⟩ := objectsDeclared_of_check haccepted
  obtain ⟨hreach, hplace⟩ := hall box List.mem_cons_self _ box_holds_touch
  exact ⟨haccepted, htypes box List.mem_cons_self, h, hbuild, hreach, hplace⟩

/-- An accepted program that names a class it does not have: in an array that a field, a parameter
or a local is declared with, and as the result type of a method. -/
theorem Program.box_names_ghost : (Program.mk [box]).check = .ok () ∧
    "Ghost" ∉ (Program.mk [box]).classes.map (·.name) ∧
    (∃ v ∈ box.fields, "Ghost" ∈ v.ty.classNames) ∧
    (∃ q ∈ peek.params, "Ghost" ∈ q.ty.classNames) ∧
    (∃ v ∈ peek.locals, "Ghost" ∈ v.ty.classNames) ∧
    .object "Ghost" ∈ box.resultTypes := by
  refine ⟨by decide +kernel, by simp [box], ?_, ?_, ?_, ?_⟩
  · simp [box, Ty.classNames]
  · simp [peek, Ty.classNames]
  · simp [peek, Ty.classNames]
  · simp [ClassDecl.resultTypes, box, peek, touch]

end ClassLang
